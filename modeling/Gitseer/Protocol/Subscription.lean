/-
**A subscription begins with a baseline.**

A client that subscribes is told so before the repository is read, and gets the snapshot only when
the read succeeds.  The deltas that follow are relative to the baseline of the worker, whoever it
was sent to.  So a subscription whose read fails begins with a delta when there is an old baseline
that the next update is compared with; and also when there is none, but a refresh without id writes
one that nobody is told about.

Main definitions:

* `AnswersSubscribe` — the step that tells a client it is subscribed;
* `SubscriptionsBased` — after every such step, every delta has a full snapshot before it;
* `Covers` — the step does neither of the two things above.

Main results:

* `publications_of_unbased` — without a baseline nothing was published;
* `subscriptions_based` — in every run of covering steps, every subscription begins with a baseline;
* `uncovered_step_breaks` — after any other step, an update with a change breaks this.
-/

import Gitseer.Protocol.Runs

set_option relaxedAutoImplicit false
set_option autoImplicit false

open StdPath (PathBuf)
open Json (Value)
open Replica (Publication Based)

namespace Gitseer

/-! ### Subscriptions -/

/-- The line is a subscription with an id, which is answered with success. -/
def SubscribeLine (serde : SerdeJson) (text : String) : Prop :=
  ∃ request, parseRequest serde text = .ok (request, false) ∧ request.method = "gitseer/subscribe"

/-- The step answers a subscription. -/
def AnswersSubscribe (serde : SerdeJson) (l : StreamLabel) : Prop :=
  ∃ text read, l.event = .line text read ∧ SubscribeLine serde text

/-- After every answered subscription, every delta has a snapshot notification or the result of a
refresh before it that was sent in that subscription or later. -/
def SubscriptionsBased (serde : SerdeJson) (labels : List StreamLabel) : Prop :=
  ∀ before l after, labels = before ++ l :: after → AnswersSubscribe serde l →
    Based (publications (output (l :: after)))

/-- What a step must do in a state, after the steps before it: a subscription reads the repository,
unless there is no baseline; and a refresh without id writes no first baseline after a subscription
was answered. -/
def Covers (serde : SerdeJson) (before : List StreamLabel) (s : ProcessState) (l : StreamLabel) :
    Prop :=
  match l.event with
  | .line text read =>
      (SubscribeLine serde text → s.latestSnapshot = none ∨ (read s.repo {}).toOption ≠ none) ∧
      (SilentRefresh serde text → baselineWrite serde read s.repo text = none ∨
        s.latestSnapshot ≠ none ∨ ∀ m ∈ before, ¬ AnswersSubscribe serde m)
  | .update _ => True

section

variable {serde : SerdeJson} {s s' : ProcessState} {l : StreamLabel} {labels : List StreamLabel}

/-- A subscription is no refresh. -/
theorem SubscribeLine.not_silentRefresh {text : String} (h : SubscribeLine serde text) :
    ¬ SilentRefresh serde text := by
  obtain ⟨request, hparse, hmethod⟩ := h
  rintro ⟨request', hparse', -⟩
  cases hparse.symm.trans hparse'

/-- What a subscription writes is what it reads. -/
theorem SubscribeLine.baselineWrite {text : String} (h : SubscribeLine serde text)
    (read : SnapshotRead) (repo : PathBuf) :
    baselineWrite serde read repo text =
      (read repo {}).toOption.map fun snapshot => ({}, snapshot) := by
  obtain ⟨request, hparse, hmethod⟩ := h
  have hopt : baselineOptions serde request = some {} := by simp [baselineOptions, hmethod]
  simp only [Gitseer.baselineWrite, hparse, Except.toOption, Option.bind_eq_bind,
    Option.bind_some, hopt]
  cases read repo {} <;> rfl

/-- What a step in a state without baseline does: nothing is written or published, or a first
baseline is written, which is published in full unless the step is a silent refresh. -/
theorem step_of_unbased (h : StreamStep serde s l s') (hnone : s.latestSnapshot = none) :
    (s'.latestSnapshot = none ∧ publications l.messages = []) ∨
    (s'.latestSnapshot ≠ none ∧
      ((∃ version snapshot, publications l.messages = [.full version snapshot]) ∨
        (Suppressed serde s.repo l ∧ publications l.messages = []))) := by
  cases h with
  | @line _ text read messages h =>
      have hspec := handleRequest_spec h
      cases hwrite : baselineWrite serde read s.repo text with
      | none =>
          rw [hwrite] at hspec
          exact .inl ⟨by rw [hspec.1.snapshot, hnone], hspec.2⟩
      | some write =>
          rw [hwrite] at hspec
          obtain ⟨hwrites, hsilent, hloud⟩ := hspec
          refine .inr ⟨by simp [hwrites.snapshot], ?_⟩
          by_cases hs : SilentRefresh serde text
          · exact .inr ⟨⟨text, read, rfl, hs, by simp [hwrite]⟩, hsilent hs⟩
          · exact .inl ⟨_, _, hloud hs⟩
  | update h =>
      obtain ⟨-, hsnapshot, hspec⟩ := snapshotUpdateMessages_spec h
      rw [hnone] at hspec
      exact .inr ⟨by simp [hsnapshot], .inl ⟨_, _, hspec.2⟩⟩

/-- A baseline stays. -/
theorem step_based (h : StreamStep serde s l s') (hsome : s.latestSnapshot ≠ none) :
    s'.latestSnapshot ≠ none := by
  cases h with
  | @line _ text read messages h =>
      have hspec := handleRequest_spec h
      cases hwrite : baselineWrite serde read s.repo text with
      | none =>
          rw [hwrite] at hspec
          rwa [hspec.1.snapshot]
      | some write =>
          rw [hwrite] at hspec
          simp [hspec.1.snapshot]
  | update h => simp [(snapshotUpdateMessages_spec h).2.1]

/-- Without a baseline nothing was published. -/
theorem publications_of_unbased {repo : PathBuf}
    (h : Lts.Run (StreamStep serde) (ProcessState.new repo) labels s)
    (hnone : s.latestSnapshot = none) : publications (output labels) = [] := by
  induction h with
  | nil => rfl
  | @snoc labels s l s' _ hstep ih =>
      have hbefore : s.latestSnapshot = none := by
        by_contra hsome
        exact step_based hstep hsome hnone
      rcases step_of_unbased hstep hbefore with ⟨-, hnil⟩ | ⟨hsome, -⟩
      · rw [publications_output_concat, ih hbefore, hnil]
        rfl
      · exact absurd hnone hsome

/-- A label of a longer list is the last one, or one of the list. -/
theorem split_concat {before after : List StreamLabel} {m : StreamLabel}
    (h : labels ++ [m] = before ++ l :: after) :
    (before = labels ∧ l = m ∧ after = []) ∨
      ∃ rest, after = rest ++ [m] ∧ labels = before ++ l :: rest := by
  rcases List.eq_nil_or_concat after with rfl | ⟨rest, m', rfl⟩
  · obtain ⟨rfl, hlast⟩ := List.append_inj' h rfl
    exact .inl ⟨rfl, (List.cons.inj hlast).1.symm, rfl⟩
  · have hassoc : labels ++ [m] = (before ++ l :: rest) ++ [m'] := by
      rw [h, List.concat_eq_append]
      simp
    obtain ⟨rfl, hlast⟩ := List.append_inj' hassoc rfl
    obtain rfl := (List.cons.inj hlast).1
    exact .inr ⟨rest, List.concat_eq_append .., rfl⟩

/-! ### Every run of covering steps -/

/-- What was published since a subscription was answered begins with a full snapshot, or there is
nothing yet, and no baseline either. -/
def Begun (serde : SerdeJson) (labels : List StreamLabel) (s : ProcessState) : Prop :=
  ∀ before l after, labels = before ++ l :: after → AnswersSubscribe serde l →
    (publications (output (l :: after)) ≠ [] ∧ Based (publications (output (l :: after)))) ∨
    (publications (output (l :: after)) = [] ∧ s.latestSnapshot = none)

/-- A subscription that covers begins. -/
theorem subscribe_begins {text : String} {read : SnapshotRead} {messages : List ServerMessage}
    (h : handleRequest serde read s text = some (s', messages)) (hsub : SubscribeLine serde text)
    (hcovers : s.latestSnapshot = none ∨ (read s.repo {}).toOption ≠ none) :
    (publications messages ≠ [] ∧ Based (publications messages)) ∨
      (publications messages = [] ∧ s'.latestSnapshot = none) := by
  have hspec := handleRequest_spec h
  rw [hsub.baselineWrite] at hspec
  cases hread : (read s.repo {}).toOption with
  | none =>
      rw [hread] at hspec
      rcases hcovers with hnone | hsome
      · exact .inr ⟨hspec.2, by rw [hspec.1.snapshot, hnone]⟩
      · exact absurd hread hsome
  | some snapshot =>
      rw [hread] at hspec
      have hpubs := hspec.2.2 hsub.not_silentRefresh
      exact .inl ⟨by simp [hpubs], by simp [hpubs, Replica.based_iff, Publication.isFull]⟩

theorem Begun.step {before : List StreamLabel} (hbegun : Begun serde before s)
    (hstep : StreamStep serde s l s') (hcovers : Covers serde before s l) :
    Begun serde (before ++ [l]) s' := by
  intro earlier m after hsplit hsub
  rcases split_concat hsplit with ⟨rfl, rfl, rfl⟩ | ⟨rest, rfl, rfl⟩
  · -- the subscription is the step itself
    obtain ⟨text, read, hevent, hline⟩ := hsub
    cases hstep with
    | line h =>
        obtain ⟨rfl, rfl⟩ := StreamEvent.line.inj hevent
        simpa [output] using subscribe_begins h hline (hcovers.1 hline)
    | update _ => cases hevent
  · -- the subscription was answered before
    have hconcat : publications (output (m :: (rest ++ [l]))) =
        publications (output (m :: rest)) ++ publications l.messages :=
      publications_output_concat (m :: rest) l
    rw [hconcat]
    rcases hbegun earlier m rest rfl hsub with ⟨hne, hbased⟩ | ⟨hnil, hnone⟩
    · exact .inl ⟨by simp [hne], hbased.append hne⟩
    · rw [hnil, List.nil_append]
      rcases step_of_unbased hstep hnone with ⟨hnone', hpubs⟩ | ⟨-, ⟨v, snapshot, hpubs⟩ | hs⟩
      · exact .inr ⟨hpubs, hnone'⟩
      · exact .inl ⟨by simp [hpubs], by simp [hpubs, Replica.based_iff, Publication.isFull]⟩
      · obtain ⟨⟨text, read, hevent, hsilent, hwrites⟩, -⟩ := hs
        unfold Covers at hcovers
        rw [hevent] at hcovers
        rcases hcovers.2 hsilent with hwrite | hsome | hnever
        · exact absurd hwrite hwrites
        · exact absurd hnone hsome
        · exact absurd hsub (hnever m (by simp))

/-- In every run in which every step covers, every answered subscription begins with a snapshot
notification or the result of a refresh. -/
theorem subscriptions_based {repo : PathBuf}
    (h : Lts.Run (StreamStep serde) (ProcessState.new repo) labels s)
    (hcovers : ∀ before l after t, labels = before ++ l :: after →
      Lts.Run (StreamStep serde) (ProcessState.new repo) before t → Covers serde before t l) :
    SubscriptionsBased serde labels := by
  have hbegun : Begun serde labels s := by
    induction h with
    | nil =>
        intro before l after hsplit
        simp at hsplit
    | @snoc labels t l t' hrun hstep ih =>
        have hearlier : Begun serde labels t := by
          refine ih fun before m after u hsplit hbefore => ?_
          refine hcovers before m (after ++ [l]) u ?_ hbefore
          rw [hsplit]
          simp
        exact hearlier.step hstep (hcovers labels l [] t rfl hrun)
  intro before l after hsplit hsub
  rcases hbegun before l after hsplit hsub with ⟨-, hbased⟩ | ⟨hnil, -⟩
  · exact hbased
  · rw [hnil]
    exact Replica.based_nil

/-! ### Any other step -/

/-- An update with a change is published as a delta. -/
theorem update_publishes_delta {snapshot : RepositorySnapshot} {messages : List ServerMessage}
    (h : snapshotUpdateMessages s snapshot = some (s', messages))
    (hsome : s.latestSnapshot ≠ none)
    (hchanges : ∀ previous, s.latestSnapshot = some previous →
      (snapshotDelta previous snapshot).hasChanges = true) :
    ∃ p, publications messages = [p] ∧ p.isFull = false := by
  obtain ⟨previous, hprevious⟩ := Option.ne_none_iff_exists'.1 hsome
  obtain ⟨-, -, hspec⟩ := snapshotUpdateMessages_spec h
  rw [hprevious] at hspec
  simp only [hchanges previous hprevious, if_true] at hspec
  exact ⟨_, hspec.2, rfl⟩

/-- A step that does not cover leaves a baseline, and nothing was published since some subscription
was answered. -/
theorem exists_begun_in_silence {repo : PathBuf}
    (h : Lts.Run (StreamStep serde) (ProcessState.new repo) labels s)
    (hstep : StreamStep serde s l s') (huncovered : ¬ Covers serde labels s l) :
    s'.latestSnapshot ≠ none ∧ ∃ before m rest, labels ++ [l] = before ++ m :: rest ∧
      AnswersSubscribe serde m ∧ publications (output (m :: rest)) = [] := by
  cases hstep with
  | update _ => exact absurd trivial huncovered
  | @line _ text read messages hline =>
      have hspec := handleRequest_spec hline
      rcases not_and_or.1 huncovered with hsub | hrefresh
      · -- a subscription without a read, beside an old baseline
        rw [Classical.not_imp, not_or, not_not] at hsub
        obtain ⟨hsub, hsome, hread⟩ := hsub
        rw [hsub.baselineWrite, hread] at hspec
        refine ⟨by rwa [hspec.1.snapshot], labels, _, [], rfl, ⟨text, read, rfl, hsub⟩, ?_⟩
        simpa [output] using hspec.2
      · -- a silent first baseline, after a subscription was answered
        simp only [Classical.not_imp, not_or, not_not, not_forall] at hrefresh
        obtain ⟨hsilent, hwrites, hnone, m, hmem, hsub⟩ := hrefresh
        obtain ⟨before, rest, rfl⟩ := List.append_of_mem hmem
        have hnothing := publications_of_unbased h hnone
        rw [publications_output, List.flatMap_append, ← publications_output,
          ← publications_output, List.append_eq_nil_iff] at hnothing
        obtain ⟨write, hwrite⟩ := Option.ne_none_iff_exists'.1 hwrites
        rw [hwrite] at hspec
        refine ⟨by simp [hspec.1.snapshot], before, m, rest ++ [⟨.line text read, messages⟩],
          by simp, hsub, ?_⟩
        rw [← List.cons_append, publications_output_concat, hnothing.2, hspec.2.1 hsilent]
        rfl

/-- After a step that does not cover, an update with a change is a delta without a snapshot before
it in the subscription. -/
theorem uncovered_step_breaks {repo : PathBuf} {s'' : ProcessState} {snapshot : RepositorySnapshot}
    {messages : List ServerMessage}
    (h : Lts.Run (StreamStep serde) (ProcessState.new repo) labels s)
    (hstep : StreamStep serde s l s') (huncovered : ¬ Covers serde labels s l)
    (hupdate : snapshotUpdateMessages s' snapshot = some (s'', messages))
    (hchanges : ∀ previous, s'.latestSnapshot = some previous →
      (snapshotDelta previous snapshot).hasChanges = true) :
    ¬ SubscriptionsBased serde (labels ++ [l] ++ [⟨.update snapshot, messages⟩]) := by
  obtain ⟨hsome, before, m, rest, hsplit, hsub, hnil⟩ := exists_begun_in_silence h hstep huncovered
  obtain ⟨p, hp, hdelta⟩ := update_publishes_delta hupdate hsome hchanges
  intro hbased
  have hpubs := hbased before m (rest ++ [⟨.update snapshot, messages⟩]) (by simp [hsplit]) hsub
  rw [← List.cons_append, publications_output_concat, hnil, List.nil_append, hp,
    Replica.based_iff] at hpubs
  exact absurd (hpubs p rfl) (by simp [hdelta])

end

/-! ### A subscription, and one during a failing read -/

/-- A subscription with an id. -/
def subscribeLine : String :=
  "\x7b\"jsonrpc\":\"2.0\",\"id\":1,\"method\":\"gitseer/subscribe\"\x7d"

def unsubscribeLine : String :=
  "\x7b\"jsonrpc\":\"2.0\",\"id\":2,\"method\":\"gitseer/unsubscribe\"\x7d"

def subscribeJson : SerdeJson := knownLines [
  (subscribeLine, .object [("jsonrpc", .string "2.0"), ("id", .number (.int 1)),
    ("method", .string "gitseer/subscribe")]),
  (unsubscribeLine, .object [("jsonrpc", .string "2.0"), ("id", .number (.int 2)),
    ("method", .string "gitseer/unsubscribe")])]

/-- A read that fails. -/
def readFails : SnapshotRead := fun repo _ => .error (.notRepository repo)

/-- The state of a subscribed worker after its first baseline. -/
def subscribedState : ProcessState := { basedState plainSnapshot with subscribed := true }

theorem subscribe_line : ∃ messages,
    handleRequest subscribeJson readPlain (ProcessState.new repoRoot) subscribeLine =
      some (subscribedState, messages) := exists_messages (by decide)

theorem subscribed_update : ∃ messages,
    snapshotUpdateMessages subscribedState (conflictSnapshot "1") =
      some (subscribedState.withBaseline (conflictSnapshot "1"), messages) :=
  exists_messages (by decide)

/-- A subscription, and an update with a change. -/
theorem subscriptions_based_conflict : ∃ answered updated,
    SubscriptionsBased subscribeJson
      [⟨.line subscribeLine readPlain, answered⟩, ⟨.update (conflictSnapshot "1"), updated⟩] := by
  obtain ⟨answered, hsubscribe⟩ := subscribe_line
  obtain ⟨updated, hupdate⟩ := subscribed_update
  have hone : Lts.Run (StreamStep subscribeJson) (ProcessState.new repoRoot)
      [⟨.line subscribeLine readPlain, answered⟩] subscribedState :=
    .single (.line hsubscribe)
  refine ⟨answered, updated, subscriptions_based (hone.snoc (.update hupdate)) ?_⟩
  intro before l after t hsplit hrun
  rcases split_concat (show [_] ++ [_] = before ++ l :: after from hsplit) with
    ⟨-, rfl, -⟩ | ⟨rest, -, hfirst⟩
  · trivial
  · rcases split_concat (show [] ++ [_] = before ++ l :: rest from hfirst) with
      ⟨rfl, rfl, -⟩ | ⟨rest, -, hnil⟩
    · obtain rfl := hrun.eq_of_nil
      exact ⟨fun _ => .inl rfl, fun _ => .inr (.inr (by simp))⟩
    · simp at hnil

/-- A client that unsubscribed subscribes again, while the repository cannot be read: it is told
that it is subscribed, and the next it gets is a delta. -/
theorem subscription_without_baseline : ∃ first left second updated s,
    Lts.Run (StreamStep subscribeJson) (ProcessState.new repoRoot)
      [⟨.line subscribeLine readPlain, first⟩, ⟨.line unsubscribeLine readPlain, left⟩,
        ⟨.line subscribeLine readFails, second⟩, ⟨.update (conflictSnapshot "1"), updated⟩] s ∧
    ¬ SubscriptionsBased subscribeJson
      [⟨.line subscribeLine readPlain, first⟩, ⟨.line unsubscribeLine readPlain, left⟩,
        ⟨.line subscribeLine readFails, second⟩, ⟨.update (conflictSnapshot "1"), updated⟩] := by
  obtain ⟨first, hfirst⟩ := subscribe_line
  obtain ⟨left, hleft⟩ : ∃ messages,
      handleRequest subscribeJson readPlain subscribedState unsubscribeLine =
        some (basedState plainSnapshot, messages) := exists_messages (by decide)
  obtain ⟨second, hsecond⟩ : ∃ messages,
      handleRequest subscribeJson readFails (basedState plainSnapshot) subscribeLine =
        some (subscribedState, messages) := exists_messages (by decide)
  obtain ⟨updated, hupdate⟩ := subscribed_update
  have hone : Lts.Run (StreamStep subscribeJson) (ProcessState.new repoRoot)
      [⟨.line subscribeLine readPlain, first⟩] subscribedState := .single (.line hfirst)
  have htwo := hone.snoc (.line hleft)
  have huncovered : ¬ Covers subscribeJson
      ([⟨.line subscribeLine readPlain, first⟩] ++ [⟨.line unsubscribeLine readPlain, left⟩])
      (basedState plainSnapshot) ⟨.line subscribeLine readFails, second⟩ := by
    intro hcovers
    rcases hcovers.1 ⟨_, rfl, rfl⟩ with hnone | hread
    · cases hnone
    · exact hread rfl
  refine ⟨first, left, second, updated, _, (htwo.snoc (.line hsecond)).snoc (.update hupdate), ?_⟩
  refine uncovered_step_breaks htwo (.line hsecond) huncovered hupdate ?_
  intro previous hprevious
  obtain rfl := Option.some.inj hprevious
  decide

end Gitseer
