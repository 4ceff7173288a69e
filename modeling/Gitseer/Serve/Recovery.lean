/-
**Recovering from lost events.**

Events get lost: the watcher says so by an event that asks for a rescan or by an error, and the
queue by its flag.  A turn that finds out about a loss reads the whole repository.  A directory
whose creation was among the lost events ought to be watched afterwards, for which the watches would
have to be read again as well.  They are for an event that asks for a rescan, and also for one that
names a file with ignore rules.  They are not for an error, nor for the flag of the queue.

A turn is looked at from its first step on, or from a step on in which it finds out about a loss.

Main definitions:

* `Lossy`, `Caused`, `Reconciled`, `ReadFailed` — what is seen in a part of a turn;
* `TurnInv` — what holds during such a part;
* `Rewatches` — the repository is read and the watches are replaced by what was read.

Main results:

* `recovery_iff` — a turn that finds out about a loss refreshes everything, and it rewatches exactly
  when it takes an event for which the watcher does that;
* `error_not_reconciled` — after an error of the watcher a directory stays without a watch.
-/

import Gitseer.Serve.NoLoss

set_option relaxedAutoImplicit false
set_option autoImplicit false

open StdPath (PathBuf)

namespace Gitseer

/-! ### What is seen in a turn -/

/-- Does a turn begin with the step? -/
def LoopLabel.begins : LoopLabel → Bool
  | .polled => true
  | .overflowTaken .nextEvent => true
  | _ => false

/-- Does the event say that others may have been lost? -/
def WatchEvent.isLoss : WatchEvent → Bool
  | .ok event => event.needRescan
  | .error _ => true

/-- Is a loss noticed in the step? -/
def LoopLabel.isLoss : LoopLabel → Bool
  | .took _ event _ _ => event.isLoss
  | .overflowTaken _ => true
  | _ => false

/-- Is an event taken for which the watcher reads everything again? -/
def LoopLabel.causes : LoopLabel → Bool
  | .took _ _ _ reconciles => reconciles
  | _ => false

/-- Are the watches replaced by what was read? -/
def LoopLabel.reconciles : LoopLabel → Bool
  | .advanced (.reconciled (some _)) => true
  | _ => false

/-- Could the repository not be read? -/
def LoopLabel.fails : LoopLabel → Bool
  | .advanced (.reconciled none) => true
  | _ => false

/-- The turn noticed a loss. -/
def Lossy (turn : List LoopLabel) : Prop := ∃ l ∈ turn, l.isLoss = true

/-- The turn took an event for which the watcher reads everything again. -/
def Caused (turn : List LoopLabel) : Prop := ∃ l ∈ turn, l.causes = true

/-- The turn replaced the watches. -/
def Reconciled (turn : List LoopLabel) : Prop := ∃ l ∈ turn, l.reconciles = true

/-- The turn could not read the repository. -/
def ReadFailed (turn : List LoopLabel) : Prop := ∃ l ∈ turn, l.fails = true

/-! ### What holds during a turn -/

/-- The watches are being read again. -/
def Pc.Reconciling : Pc → Prop
  | .received _ _ (some .reconcile) _ => True
  | .received _ _ (some (.reconciled _)) _ => True
  | _ => False

/-- The turn will read everything: by its plan, or by the event that was received. -/
def Pc.Recovering (pc : Pc) : Prop :=
  pc = .overflow ∨ pc.plan = some .full ∨
    ∃ serial event pending draining, pc = .received serial event pending draining ∧
      event.isLoss = true

/-- Within a turn the watches have been read again, or are being read, exactly when an event was
taken that causes that; and a loss that was noticed leads to a full refresh. -/
structure TurnInv (turn : List LoopLabel) (pc : Pc) : Prop where
  caused : Caused turn ↔ Reconciled turn ∨ ReadFailed turn ∨ pc.Reconciling
  lossy : Lossy turn → pc.Recovering

section

variable {t : List LoopLabel} {l : LoopLabel} {pc pc' : Pc}

theorem exists_mem_concat {α : Type} {test : α → Bool} {l : List α} {a : α} :
    (∃ x ∈ l ++ [a], test x = true) ↔ (∃ x ∈ l, test x = true) ∨ test a = true := by
  constructor
  · rintro ⟨x, hx, htest⟩
    rcases List.mem_append.1 hx with hx | hx
    · exact Or.inl ⟨x, hx, htest⟩
    · rw [List.mem_singleton.1 hx] at htest
      exact Or.inr htest
  · rintro (⟨x, hx, htest⟩ | htest)
    · exact ⟨x, List.mem_append_left _ hx, htest⟩
    · exact ⟨a, List.mem_append_right _ (List.mem_singleton.2 rfl), htest⟩

/-- A step in which nothing is seen of losses and of the watches. -/
theorem TurnInv.quiet (hinv : TurnInv t pc) (hloss : l.isLoss = false) (hcauses : l.causes = false)
    (hreconciles : l.reconciles = false) (hfails : l.fails = false)
    (hreconciling : pc'.Reconciling ↔ pc.Reconciling)
    (hrecovering : pc.Recovering → pc'.Recovering) : TurnInv (t ++ [l]) pc' := by
  constructor
  · have hcaused := hinv.caused
    unfold Caused Reconciled ReadFailed at hcaused ⊢
    rw [exists_mem_concat, exists_mem_concat, exists_mem_concat, hcauses, hreconciles, hfails,
      hreconciling]
    simpa using hcaused
  · intro hlossy
    unfold Lossy at hlossy
    rw [exists_mem_concat, hloss] at hlossy
    exact hrecovering (hinv.lossy (hlossy.resolve_right Bool.false_ne_true))

/-- A loss is noticed by the flag. -/
theorem TurnInv.overflow (hinv : TurnInv t pc) {test : OverflowTest} (hpc : ¬ pc.Reconciling)
    (hpc' : ¬ pc'.Reconciling) (hrecovering : pc'.Recovering) :
    TurnInv (t ++ [.overflowTaken test]) pc' := by
  constructor
  · have hcaused := hinv.caused
    unfold Caused Reconciled ReadFailed at hcaused ⊢
    rw [exists_mem_concat, exists_mem_concat, exists_mem_concat]
    simpa [LoopLabel.causes, LoopLabel.reconciles, LoopLabel.fails, hpc, hpc'] using hcaused
  · exact fun _ => hrecovering

/-- An event is taken; the update of the watches for it begins. -/
theorem TurnInv.take (hinv : TurnInv t pc) {serial : ℕ} {event : WatchEvent}
    {subscribed reconciles : Bool} {pending : Option Pending} {draining : Option (RefreshPlan × ℕ)}
    (hpc : ¬ pc.Reconciling) (hplan : pc.Recovering → draining.map Prod.fst = some .full)
    (hreconciling : (Pc.received serial event pending draining).Reconciling ↔ reconciles = true) :
    TurnInv (t ++ [.took serial event subscribed reconciles])
      (.received serial event pending draining) := by
  constructor
  · have hcaused := hinv.caused
    unfold Caused Reconciled ReadFailed at hcaused ⊢
    rw [exists_mem_concat, exists_mem_concat, exists_mem_concat, hreconciling, hcaused]
    simp [LoopLabel.causes, LoopLabel.reconciles, LoopLabel.fails, hpc, or_assoc]
  · intro hlossy
    unfold Lossy at hlossy
    rw [exists_mem_concat] at hlossy
    rcases hlossy with hlossy | hloss
    · exact Or.inr (Or.inl (hplan (hinv.lossy hlossy)))
    · exact Or.inr (Or.inr ⟨_, _, _, _, rfl, hloss⟩)

end

/-- An update begins with reading everything again exactly when the event causes that. -/
theorem updateWatches_reconciling (s : LoopState) (serial : ℕ) (event : WatchEvent)
    (draining : Option (RefreshPlan × ℕ)) :
    (Pc.received serial event (s.watcher.updateWatchesForEvent s.world event)
      draining).Reconciling ↔ s.reconcilesFor event = true := by
  unfold LoopState.reconcilesFor RepositoryWatcher.updateWatchesForEvent
  cases event with
  | error e => simp [Pc.Reconciling]
  | ok event =>
      dsimp only
      split
      · next h => simp [Pc.Reconciling, h]
      · next h =>
          simp only [h]
          refine iff_of_false ?_ Bool.false_ne_true
          split
          · exact id
          · split
            · exact id
            · cases event.paths <;> exact id

/-- A loss makes the plan of an event a full one. -/
theorem refreshPlanForEvent_of_isLoss (s : LoopState) {event : WatchEvent}
    (h : event.isLoss = true) : s.refreshPlanForEvent event = .full := by
  cases event with
  | error e => rfl
  | ok event =>
      have hrescan : event.needRescan = true := h
      simp [LoopState.refreshPlanForEvent, refreshPlanForEvent, hrescan]

/-- A part of an update that does not read everything again leads to another such part. -/
theorem not_reconciling_advance {pending : Pending} {next : Option Pending}
    {watcher watcher' : RepositoryWatcher} {world : World} {serial : ℕ} {event : WatchEvent}
    {draining : Option (RefreshPlan × ℕ)}
    (h : pending.advance watcher world = (watcher', next))
    (hnot : ¬ (Pc.received serial event (some pending) draining).Reconciling) :
    ¬ (Pc.received serial event next draining).Reconciling := by
  have hnext : ∀ worktreeRoot rest,
      ¬ (Pc.received serial event (Pending.next worktreeRoot rest) draining).Reconciling := by
    intro worktreeRoot rest
    cases rest <;> exact id
  cases pending with
  | paths worktreeRoot path rest =>
      simp only [Pending.advance] at h
      split at h
      · obtain ⟨-, rfl⟩ := Prod.mk.inj h
        exact id
      · obtain ⟨-, rfl⟩ := Prod.mk.inj h
        exact hnext _ _
  | scan worktreeRoot path rest =>
      obtain ⟨-, rfl⟩ := Prod.mk.inj h
      exact id
  | scanned worktreeRoot path dirs rest =>
      obtain ⟨-, rfl⟩ := Prod.mk.inj h
      exact hnext _ _
  | reconcile => exact absurd trivial hnot
  | reconciled result => exact absurd trivial hnot

/-- A part of an update keeps the account of the turn. -/
theorem TurnInv.advance {t : List LoopLabel} {pending : Pending} {next : Option Pending}
    {watcher watcher' : RepositoryWatcher} {world : World} {serial : ℕ} {event : WatchEvent}
    {draining : Option (RefreshPlan × ℕ)}
    (hinv : TurnInv t (.received serial event (some pending) draining))
    (h : pending.advance watcher world = (watcher', next)) :
    TurnInv (t ++ [.advanced pending]) (.received serial event next draining) := by
  have hrecovering : (Pc.received serial event (some pending) draining).Recovering →
      (Pc.received serial event next draining).Recovering := by
    rintro (hover | hfull | ⟨_, _, _, _, hpc, hloss⟩)
    · cases hover
    · exact Or.inr (Or.inl hfull)
    · cases hpc
      exact Or.inr (Or.inr ⟨_, _, _, _, rfl, hloss⟩)
  by_cases hre : (Pc.received serial event (some pending) draining).Reconciling
  · -- everything is being read again: what was read is at hand, or is put into effect
    have hcaused : Caused t := hinv.caused.2 (Or.inr (Or.inr hre))
    have hlossy : Lossy (t ++ [.advanced pending]) →
        (Pc.received serial event next draining).Recovering := by
      intro hlossy
      unfold Lossy at hlossy
      rw [exists_mem_concat] at hlossy
      exact hrecovering (hinv.lossy (hlossy.resolve_right (by simp [LoopLabel.isLoss])))
    have hcaused' : Caused (t ++ [.advanced pending]) := exists_mem_concat.2 (Or.inl hcaused)
    refine ⟨iff_of_true hcaused' ?_, hlossy⟩
    cases pending with
    | reconcile =>
        obtain ⟨-, rfl⟩ := Prod.mk.inj h
        exact Or.inr (Or.inr trivial)
    | reconciled result =>
        cases result with
        | none => exact Or.inr (Or.inl (exists_mem_concat.2 (Or.inr rfl)))
        | some result => exact Or.inl (exists_mem_concat.2 (Or.inr rfl))
    | paths worktreeRoot path rest => exact absurd hre id
    | scan worktreeRoot path rest => exact absurd hre id
    | scanned worktreeRoot path dirs rest => exact absurd hre id
  · refine hinv.quiet rfl rfl ?_ ?_ ?_ hrecovering
    · cases pending with
      | reconciled result => exact absurd trivial hre
      | _ => rfl
    · cases pending with
      | reconciled result => exact absurd trivial hre
      | _ => rfl
    · exact iff_of_false (not_reconciling_advance h hre) hre

/-- With a plan and no event in hand, a turn that reads everything does so by its plan. -/
theorem Pc.Recovering.full {pc : Pc} {plan : RefreshPlan} (h : pc.Recovering)
    (hplan : pc.plan = some plan) (hserial : pc.serial = none) : plan = .full := by
  rcases h with rfl | hfull | ⟨_, _, _, _, rfl, -⟩
  · cases hplan
  · rw [hplan] at hfull
    exact Option.some.inj hfull
  · cases hserial

/-- What holds up to the head or to the stop. -/
def TurnOk (turn : List LoopLabel) (pc : Pc) : Prop := pc = .head ∨ pc = .stopped ∨ TurnInv turn pc

theorem TurnInv.empty {pc : Pc} (h : ¬ pc.Reconciling) : TurnInv [] pc := by
  constructor
  · refine iff_of_false ?_ ?_
    · rintro ⟨l, hl, -⟩
      cases hl
    · rintro (⟨l, hl, -⟩ | ⟨l, hl, -⟩ | hreconciling)
      · cases hl
      · cases hl
      · exact h hreconciling
  · rintro ⟨l, hl, -⟩
    cases hl

section

variable {serde : SerdeJson} {capacity budget : ℕ} {s₀ u s s' : LoopState} {t : List LoopLabel}
  {l : LoopLabel} {past rest : List LoopLabel}

/-- Within a turn its account is kept. -/
theorem TurnOk.inv {pc : Pc} (hok : TurnOk t s.pc) (hpc : s.pc = pc) (hhead : pc ≠ .head)
    (hstopped : pc ≠ .stopped) : TurnInv t pc := by
  subst hpc
  exact (hok.resolve_left hhead).resolve_left hstopped

/-- A turn that is to recover begins with a full plan. -/
theorem TurnOk.planFirst {serial : Option ℕ} {event : WatchEvent} (hok : TurnOk t s.pc)
    (hpc : s.pc.returned = some (serial, event)) :
    TurnOk (t ++ [.planned serial (s.refreshPlanForEvent event)])
      (Pc.withPlan (s.refreshPlanForEvent event) (.debounce (s.refreshPlanForEvent event))) := by
  unfold Pc.withPlan
  split
  · right; right
    rcases returned_cases hpc with ⟨k, -, hreceived⟩ | ⟨-, rfl, hoverflow⟩
    · refine (hok.inv hreceived (by simp) (by simp)).quiet rfl rfl rfl rfl Iff.rfl ?_
      rintro (hover | hfull | ⟨_, _, _, _, hpc', hloss⟩)
      · cases hover
      · cases hfull
      · cases hpc'
        rw [refreshPlanForEvent_of_isLoss s hloss]
        exact Or.inr (Or.inl rfl)
    · exact (hok.inv hoverflow (by simp) (by simp)).quiet rfl rfl rfl rfl Iff.rfl
        fun _ => Or.inr (Or.inl rfl)
  · exact Or.inl rfl

/-- The plan stays full when an event is drained for, and becomes full when the event is a loss. -/
theorem TurnInv.planDrained {serial drained : ℕ} {event : WatchEvent} {plan : RefreshPlan}
    (hinv : TurnInv t (.received serial event none (some (plan, drained)))) :
    TurnInv (t ++ [.planned (some serial) (s.refreshPlanForEvent event)])
      (Pc.afterDrained budget (plan.combine (s.refreshPlanForEvent event)) (drained + 1)) := by
  have hpc : (Pc.afterDrained budget (plan.combine (s.refreshPlanForEvent event))
      (drained + 1)).plan = some (plan.combine (s.refreshPlanForEvent event)) ∧
      ¬ (Pc.afterDrained budget (plan.combine (s.refreshPlanForEvent event))
        (drained + 1)).Reconciling := by
    unfold Pc.afterDrained
    split <;> exact ⟨rfl, id⟩
  refine hinv.quiet rfl rfl rfl rfl (iff_of_false hpc.2 id) ?_
  rintro (hover | hfull | ⟨_, _, _, _, hreceived, hloss⟩)
  · cases hover
  · obtain rfl : plan = .full := Option.some.inj hfull
    exact Or.inr (Or.inl (by rw [hpc.1, RefreshPlan.full_combine]))
  · cases hreceived
    have hplan := refreshPlanForEvent_of_isLoss s hloss
    exact Or.inr (Or.inl (by rw [hpc.1, hplan, RefreshPlan.combine_full]))

/-- A step of a turn keeps its account. -/
theorem TurnOk.step (hok : TurnOk t s.pc) (hstep : LoopStep serde capacity budget s l s')
    (hbegins : l.begins = false) : TurnOk (t ++ [l]) s'.pc := by
  cases hstep with
  | offer _ | change _ =>
      rcases hok with hhead | hstopped | hinv
      · exact Or.inl hhead
      · exact Or.inr (Or.inl hstopped)
      · exact Or.inr (Or.inr (hinv.quiet rfl rfl rfl rfl Iff.rfl id))
  | pollOverflow hpc h => cases hbegins
  | pollRecv hpc h => cases hbegins
  | @recvTake serial event rest hpc hitems =>
      right; right
      refine (hok.inv hpc (by simp) (by simp)).take id ?_
        (updateWatches_reconciling s serial event none)
      rintro (hover | hfull | ⟨_, _, _, _, hreceived, -⟩)
      · cases hover
      · cases hfull
      · cases hreceived
  | advance hpc h => exact Or.inr (Or.inr ((hok.inv hpc (by simp) (by simp)).advance h))
  | plan hpc hsubscribed => exact hok.planFirst hpc
  | wakeOverflow hpc h | endOverflow hpc h =>
      have hinv := hok.inv hpc (by simp) (by simp)
      exact Or.inr (Or.inr (hinv.overflow id id (Or.inr (Or.inl rfl))))
  | wake hpc h | drainEmpty hpc hitems =>
      refine Or.inr (Or.inr ((hok.inv hpc (by simp) (by simp)).quiet rfl rfl rfl rfl Iff.rfl ?_))
      intro hrecovering
      rw [hrecovering.full rfl rfl]
      exact Or.inr (Or.inl rfl)
  | @drainTake plan drained serial event rest hpc hitems =>
      refine Or.inr (Or.inr ((hok.inv hpc (by simp) (by simp)).take id ?_
        (updateWatches_reconciling s serial event _)))
      intro hrecovering
      rw [hrecovering.full rfl rfl]
      rfl
  | drainPlan hpc => exact Or.inr (Or.inr (hok.inv hpc (by simp) (by simp)).planDrained)
  | @endDrain plan hpc h =>
      change TurnOk _ (Pc.withPlan _ _)
      unfold Pc.withPlan
      split
      · refine Or.inr (Or.inr ((hok.inv hpc (by simp) (by simp)).quiet rfl rfl rfl rfl Iff.rfl ?_))
        intro hrecovering
        rw [hrecovering.full rfl rfl]
        exact Or.inr (Or.inl rfl)
      · exact Or.inl rfl
  | discard _ _ | refresh _ _ | line _ _ => exact Or.inl rfl
  | refreshFails _ _ | stop _ => exact Or.inr (Or.inl rfl)

/-- A turn begins, or notices a loss, where no watches are being read. -/
theorem not_reconciling_of_step (hstep : LoopStep serde capacity budget s l s')
    (hl : l.begins = true ∨ l.isLoss = true) : ¬ s.pc.Reconciling := by
  cases hstep with
  | pollOverflow hpc h => rw [hpc]; exact id
  | pollRecv hpc h => rw [hpc]; exact id
  | recvTake hpc hitems => rw [hpc]; exact id
  | drainTake hpc hitems => rw [hpc]; exact id
  | wakeOverflow hpc h => rw [hpc]; exact id
  | endOverflow hpc h => rw [hpc]; exact id
  | _ => rcases hl with hl | hl <;> cases hl

theorem TurnOk.first (hstep : LoopStep serde capacity budget s l s')
    (hl : l.begins = true ∨ l.isLoss = true) : TurnOk [l] s'.pc := by
  have hempty : TurnInv [] s.pc := TurnInv.empty (not_reconciling_of_step hstep hl)
  cases hbegins : l.begins with
  | false => exact TurnOk.step (Or.inr (Or.inr hempty)) hstep hbegins
  | true =>
      cases hstep with
      | pollOverflow hpc h =>
          rw [hpc] at hempty
          exact Or.inr (Or.inr (hempty.overflow id id (Or.inl rfl)))
      | pollRecv hpc h =>
          rw [hpc] at hempty
          refine Or.inr (Or.inr (hempty.quiet rfl rfl rfl rfl Iff.rfl ?_))
          rintro (hover | hfull | ⟨_, _, _, _, hreceived, -⟩)
          · cases hover
          · cases hfull
          · cases hreceived
      | wakeOverflow hpc h => cases hbegins
      | endOverflow hpc h => cases hbegins
      | _ => cases hbegins

/-- The account is kept to the end of the turn. -/
theorem TurnOk.run (hok : TurnOk t u.pc)
    (hrun : Lts.Run (LoopStep serde capacity budget) u rest s)
    (hturn : ∀ l ∈ rest, l.begins = false) : TurnOk (t ++ rest) s.pc := by
  induction hrun with
  | nil => rwa [List.append_nil]
  | @snoc rest s l s' hrun hstep ih =>
      rw [← List.append_assoc]
      refine TurnOk.step (ih ?_) hstep (hturn l (by simp))
      intro l' hl'
      exact hturn l' (List.mem_append_left _ hl')

/-! ### What is read is put into effect -/

theorem Pending.next_ne_reconciled {worktreeRoot : PathBuf} {rest : List PathBuf}
    {result : Option Reconciliation} :
    Pending.next worktreeRoot rest ≠ some (.reconciled result) := by
  intro h
  cases rest <;> cases h

/-- An update does not begin with a result. -/
theorem updateWatches_ne_reconciled {watcher : RepositoryWatcher} {world : World}
    {event : WatchEvent} {result : Option Reconciliation} :
    watcher.updateWatchesForEvent world event ≠ some (.reconciled result) := by
  unfold RepositoryWatcher.updateWatchesForEvent
  cases event with
  | error e => simp
  | ok event =>
      dsimp only
      split
      · simp
      · split
        · simp
        · split
          · simp
          · exact Pending.next_ne_reconciled

/-- A result comes from reading the repository. -/
theorem Pending.advance_reconciled {pending : Pending} {watcher watcher' : RepositoryWatcher}
    {world : World} {result : Option Reconciliation}
    (h : pending.advance watcher world = (watcher', some (.reconciled result))) :
    pending = .reconcile ∧ result = readReconciliation world watcher.repoPath := by
  cases pending with
  | paths worktreeRoot path rest =>
      simp only [advance] at h
      split at h
      · cases (Prod.mk.inj h).2
      · exact absurd (Prod.mk.inj h).2 next_ne_reconciled
  | scan worktreeRoot path rest => cases (Prod.mk.inj h).2
  | scanned worktreeRoot path dirs rest => exact absurd (Prod.mk.inj h).2 next_ne_reconciled
  | reconcile =>
      obtain ⟨-, hresult⟩ := Prod.mk.inj h
      cases hresult
      exact ⟨rfl, rfl⟩
  | reconciled result => cases result <;> cases (Prod.mk.inj h).2

/-- Where the result of a reading is at hand, it was read before. -/
theorem exists_reading {v : LoopState} {serial : ℕ} {event : WatchEvent}
    {result : Option Reconciliation} {draining : Option (RefreshPlan × ℕ)}
    (hstart : ¬ u.pc.Reconciling) (hrun : Lts.Run (LoopStep serde capacity budget) u t v)
    (hpc : v.pc = .received serial event (some (.reconciled result)) draining) :
    ∃ before middle r r', t = before ++ .advanced .reconcile :: middle ∧
      Lts.Run (LoopStep serde capacity budget) u before r ∧
      LoopStep serde capacity budget r (.advanced .reconcile) r' ∧
      Lts.Run (LoopStep serde capacity budget) r' middle v ∧
      result = readReconciliation r.world r.watcher.repoPath := by
  induction hrun with
  | nil =>
      rw [hpc] at hstart
      exact absurd trivial hstart
  | @snoc t s l s' hrun hstep ih =>
      have hlater : s.pc = s'.pc → ∃ before middle r r',
          t ++ [l] = before ++ .advanced .reconcile :: middle ∧
          Lts.Run (LoopStep serde capacity budget) u before r ∧
          LoopStep serde capacity budget r (.advanced .reconcile) r' ∧
          Lts.Run (LoopStep serde capacity budget) r' middle s' ∧
          result = readReconciliation r.world r.watcher.repoPath := by
        intro hsame
        obtain ⟨before, middle, r, r', rfl, hbefore, hread, hmiddle, hresult⟩ :=
          ih (hsame.trans hpc)
        exact ⟨before, middle ++ [l], r, r', by simp, hbefore, hread, hmiddle.snoc hstep, hresult⟩
      cases hstep with
      | offer h => exact hlater rfl
      | change hpersists => exact hlater rfl
      | @advance serial' event' pending next draining' watcher hpc' h =>
          obtain ⟨-, -, rfl, -⟩ := Pc.received.inj hpc
          obtain ⟨rfl, hresult⟩ := Pending.advance_reconciled h
          exact ⟨t, [], s, _, rfl, hrun, .advance hpc' h, Lts.Run.nil, hresult⟩
      | recvTake hpc' hitems =>
          exact absurd (Pc.received.inj hpc).2.2.1 updateWatches_ne_reconciled
      | drainTake hpc' hitems =>
          exact absurd (Pc.received.inj hpc).2.2.1 updateWatches_ne_reconciled
      | plan hpc' hsubscribed =>
          change Pc.withPlan _ _ = _ at hpc
          unfold Pc.withPlan at hpc
          split at hpc <;> cases hpc
      | drainPlan hpc' =>
          change Pc.afterDrained _ _ _ = _ at hpc
          unfold Pc.afterDrained at hpc
          split at hpc <;> cases hpc
      | endDrain hpc' h =>
          change Pc.withPlan _ _ = _ at hpc
          unfold Pc.withPlan at hpc
          split at hpc <;> cases hpc
      | _ => cases hpc

/-- A directory that a reading in `r` finds is watched when the result is put into effect in the
step from `v` to `v'`, provided that it is still there and was not on the list. -/
def Regains (r v v' : LoopState) : Prop :=
  ∀ p inode, r.world.ScanReaches r.watcher.repoPath p → v.world.fs.dirInode p = some inode →
    p ∉ v.watcher.watchedRoots → p ∈ v'.watcher.watchedRoots ∧ inode ∈ v'.watcher.notify.live

/-- In the part of the run after `past` the repository is read and what was read is put into effect,
so that the directories that were found are regained. -/
def Rewatches (serde : SerdeJson) (capacity budget : ℕ) (s₀ : LoopState)
    (past part : List LoopLabel) (s : LoopState) : Prop :=
  ∃ before middle after r r' v v' result,
    part = before ++ .advanced .reconcile :: middle ++
      .advanced (.reconciled (some result)) :: after ∧
    Lts.Run (LoopStep serde capacity budget) s₀ (past ++ before) r ∧
    LoopStep serde capacity budget r (.advanced .reconcile) r' ∧
    Lts.Run (LoopStep serde capacity budget) r' middle v ∧
    LoopStep serde capacity budget v (.advanced (.reconciled (some result))) v' ∧
    Lts.Run (LoopStep serde capacity budget) v' after s ∧ Regains r v v'

theorem rewatches_iff (hpast : Lts.Run (LoopStep serde capacity budget) s₀ past u)
    (hstart : ¬ u.pc.Reconciling) (hrun : Lts.Run (LoopStep serde capacity budget) u t s) :
    Rewatches serde capacity budget s₀ past t s ↔ Reconciled t := by
  constructor
  · rintro ⟨before, middle, after, _, _, _, _, result, rfl, -⟩
    exact ⟨.advanced (.reconciled (some result)), by simp, rfl⟩
  · rintro ⟨l, hl, hreconciles⟩
    obtain ⟨first, after, rfl⟩ := List.append_of_mem hl
    obtain ⟨v, hfirst, hrest⟩ := hrun.split
    obtain ⟨v', hstep, hafter⟩ := hrest.uncons
    have hstep' := hstep
    cases hstep with
    | @advance serial event pending next draining watcher hpc h =>
        cases pending with
        | reconciled result =>
            cases result with
            | none => cases hreconciles
            | some result =>
                obtain ⟨before, middle, r, r', rfl, hbefore, hread, hmiddle, hresult⟩ :=
                  exists_reading hstart hfirst hpc
                refine ⟨before, middle, after, r, r', v, _, result, rfl, hpast.append hbefore,
                  hread, hmiddle, hstep', hafter, ?_⟩
                -- the directory is among the targets that were read
                intro p inode hreaches hinode hnew
                obtain ⟨found, hfound, hmem⟩ := hreaches.mem_targets
                obtain rfl := Option.some.inj (hresult.trans hfound)
                obtain ⟨rfl, -⟩ := Prod.mk.inj h
                exact ⟨RepositoryWatcher.replaceWatchTargets_lists hmem
                  (FileSystem.pathExists_of_dirInode hinode),
                  RepositoryWatcher.watched_of_replacement hmem hinode hnew⟩
        | _ => cases hreconciles
    | _ => cases hreconciles

/-- Let a turn go on from its first step, or from one in which it notices a loss, to a refresh.  If
it notices a loss it refreshes everything; and unless the repository cannot be read it rewatches
exactly when it takes an event for which the watcher reads everything again. -/
theorem recovery_iff {plan : RefreshPlan}
    (hrun : Lts.Run (LoopStep serde capacity budget) s₀ (past ++ l :: rest) s)
    (hl : l.begins = true ∨ l.isLoss = true) (hturn : ∀ l ∈ rest, l.begins = false)
    (hpc : s.pc = .refresh plan) (hreads : ¬ ReadFailed (l :: rest)) :
    (Lossy (l :: rest) → plan = .full) ∧
      (Rewatches serde capacity budget s₀ past (l :: rest) s ↔ Caused (l :: rest)) := by
  obtain ⟨u, hpast, hpart⟩ := hrun.split
  obtain ⟨u', hstep, hrest⟩ := hpart.uncons
  have hok : TurnOk (l :: rest) (.refresh plan) := hpc ▸ (TurnOk.first hstep hl).run hrest hturn
  have hinv : TurnInv (l :: rest) (.refresh plan) :=
    (hok.resolve_left (by simp)).resolve_left (by simp)
  refine ⟨fun hlossy => (hinv.lossy hlossy).full rfl rfl, ?_⟩
  rw [rewatches_iff hpast (not_reconciling_of_step hstep hl) hpart, hinv.caused]
  constructor
  · exact Or.inl
  · rintro (hreconciled | hfailed | hreconciling)
    · exact hreconciled
    · exact absurd hfailed hreads
    · exact absurd hreconciling id

end

/-! ### A directory whose event was lost -/

/-- The steps with the bounds of the source. -/
abbrev BoundedStep : LoopState → LoopLabel → LoopState → Prop :=
  LoopStep refreshJson maxPendingWatchEvents maxDebounceDrainEvents

def rescanEvent : WatchEvent := .ok ⟨.any, [], true⟩

/-- What is read when the directory for sources is there. -/
def srcReconciliation : Reconciliation where
  targets := [⟨repoRoot, .nonRecursive⟩, ⟨repoGitDir, .recursive⟩, ⟨srcPath, .nonRecursive⟩]
  worktreeRoot := some repoRoot
  gitDir := repoGitDir
  commonDir := repoGitDir

/-- The turn of a rescan. -/
def rescanTurn : List LoopLabel :=
  [.took 0 rescanEvent true true, .advanced .reconcile, .advanced (.reconciled srcReconciliation),
    .planned (some 0) .full, .moved, .moved, .moved]

theorem rescan_run : Lts.Run BoundedStep (serveState none {2, 1} {} 0 .head)
    ([.offered 0 rescanEvent true] ++ .polled :: rescanTurn)
    (serveState (some 3) {3, 2, 1} {} 1 (.refresh .full)) := by
  have hupdate : (srcWatcher none {2, 1}).updateWatchesForEvent (srcWorld (some 3)) rescanEvent =
      some .reconcile := by decide
  have hreconciles : (serveState none {2, 1} ⟨[(0, rescanEvent)], false⟩ 1 .recv).reconcilesFor
      rescanEvent = true := by decide
  have hread : BoundedStep
      (serveState none {2, 1} {} 1 (.received 0 rescanEvent (some .reconcile) none))
      (.advanced .reconcile)
      (serveState none {2, 1} {} 1
        (.received 0 rescanEvent (some (.reconciled srcReconciliation)) none)) := by
    have hresult : Pending.advance (srcWatcher none {2, 1}) (srcWorld (some 3)) .reconcile =
        (srcWatcher none {2, 1}, some (.reconciled (some srcReconciliation))) := by decide
    exact .advance rfl hresult
  have hput : BoundedStep
      (serveState none {2, 1} {} 1
        (.received 0 rescanEvent (some (.reconciled srcReconciliation)) none))
      (.advanced (.reconciled srcReconciliation))
      (serveState (some 3) {3, 2, 1} {} 1 (.received 0 rescanEvent none none)) := by
    have hwatched : Pending.advance (srcWatcher none {2, 1}) (srcWorld (some 3))
        (.reconciled (some srcReconciliation)) = (srcWatcher (some 3) {3, 2, 1}, none) := by decide
    exact .advance rfl hwatched
  have hown : (serveState (some 3) {3, 2, 1} {} 1
      (.received 0 rescanEvent none none)).refreshPlanForEvent rescanEvent = .full := by decide
  have htaken := (serveState_taken refreshJson rfl hupdate hreconciles).mono fun _ _ _ h => h.1.1
  have hdrained := (serveState_drained refreshJson hown rfl).mono fun _ _ _ h => h.1.1
  exact ((htaken.snoc hread).snoc hput).append hdrained

/-- After a rescan the directory is watched. -/
theorem recovery_iff_rescan :
    Rewatches refreshJson maxPendingWatchEvents maxDebounceDrainEvents
      (serveState none {2, 1} {} 0 .head) [.offered 0 rescanEvent true] (.polled :: rescanTurn)
      (serveState (some 3) {3, 2, 1} {} 1 (.refresh .full)) := by
  refine (recovery_iff rescan_run (Or.inl rfl) ?_ rfl ?_).2.2 ?_
  · simp [rescanTurn, LoopLabel.begins]
  · simp [ReadFailed, rescanTurn, LoopLabel.fails]
  · exact ⟨.took 0 rescanEvent true true, by simp [rescanTurn], rfl⟩

def watchError : WatchEvent := .error "events were lost"

/-- The turn of an error. -/
def errorTurn : List LoopLabel :=
  [.took 0 watchError true false, .planned (some 0) .full, .moved, .moved, .moved]

/-- A directory is created, and instead of its event an error is delivered.  Everything is refreshed
then, but the watches are not read again, and the directory has none. -/
theorem error_not_reconciled : ∃ s₀ past l rest s,
    s₀.AtStart ∧ RepositoryWatcher.new s₀.world repoRoot = .ok s₀.watcher ∧
    Lts.Run BoundedStep s₀ (past ++ l :: rest) s ∧ l.begins = true ∧
    (∀ l ∈ rest, l.begins = false) ∧ Lossy (l :: rest) ∧ ¬ ReadFailed (l :: rest) ∧
    s.pc = .refresh .full ∧
    ¬ Rewatches refreshJson maxPendingWatchEvents maxDebounceDrainEvents s₀ past (l :: rest) s ∧
    s.world.fs.dirInode srcPath = some 3 ∧ s.world.ignores repoRoot srcPath = false ∧
    srcPath ∉ s.watcher.watchedRoots ∧ 3 ∉ s.watcher.notify.live := by
  have hcreated : BoundedStep { serveState none {2, 1} {} 0 .head with world := srcWorld none }
      .changed (serveState none {2, 1} {} 0 .head) :=
    LoopStep.change (s := { serveState none {2, 1} {} 0 .head with world := srcWorld none })
      serveState_persists
  have hreconciles : (serveState none {2, 1} ⟨[(0, watchError)], false⟩ 1 .recv).reconcilesFor
      watchError = false := rfl
  have hown : (serveState none {2, 1} {} 1
      (.received 0 watchError none none)).refreshPlanForEvent watchError = .full := rfl
  have hdrained := serveState_drained refreshJson hown rfl
  have htaken := serveState_taken refreshJson rfl rfl hreconciles
  have hrun := (htaken.append hdrained).mono fun _ _ _ h => h.1.1
  refine ⟨_, [.changed, .offered 0 watchError true], .polled, errorTurn, _, ⟨rfl, rfl, rfl⟩,
    by decide, hrun.cons hcreated, rfl, by simp [errorTurn, LoopLabel.begins], ?_, ?_, rfl, ?_,
    by decide, by decide, by decide, by decide⟩
  · exact ⟨.took 0 watchError true false, by simp [errorTurn], rfl⟩
  · simp [ReadFailed, errorTurn, LoopLabel.fails]
  · rintro ⟨before, middle, after, _, _, _, _, result, hlabels, -⟩
    have hmem : LoopLabel.advanced .reconcile ∈ LoopLabel.polled :: errorTurn := by
      rw [hlabels]
      simp
    simp [errorTurn] at hmem

end Gitseer
