/-
**Every snapshot the worker retains or sends is well formed.**

The worker mixes sections that it read at different moments.  Its plans come from the classifier or
from an overflow, and no such plan reads the head without the upstream; so what holds of every full
read holds of every snapshot in a run of the loop, however the repository changes in it, and of
every snapshot that is sent to the client: with a version, in a notification or as the result of a
refresh, or alone, as the result of `gitseer/getSnapshot`.

Main definitions:

* `sentSnapshot` — the whole snapshot that a message carries, if it carries one;
* `SendsWellFormed` — the snapshots in the messages are well formed;
* `SnapshotInv` — the retained snapshot is well formed, and the plan of the turn is one of events.

Main results:

* `SnapshotInv.step` — every step keeps the invariant, and sends well-formed snapshots;
* `snapshots_wellFormed` — so does every run.
-/

import Gitseer.Protocol.RoundTrip
import Gitseer.Repository.WellFormed
import Gitseer.Serve.Convergence

set_option relaxedAutoImplicit false
set_option autoImplicit false

namespace Gitseer

open Json (Value)

/-! ### The snapshots in the messages -/

/-- A snapshot, alone or with its version. -/
def snapshotIn (v : Value) : Option RepositorySnapshot :=
  (Wire.repositorySnapshotCodec.dec v).or
    ((Wire.snapshotNotificationParamsCodec.dec v).map SnapshotNotificationParams.snapshot)

/-- The whole snapshot that a message carries, if it carries one. -/
def sentSnapshot : ServerMessage → Option RepositorySnapshot
  | .response response => response.result.bind snapshotIn
  | .notification notification =>
      if notification.method = "gitseer/snapshot" then notification.params.bind snapshotIn else none

/-- The snapshots in the messages are well formed. -/
def SendsWellFormed (messages : List ServerMessage) : Prop :=
  ∀ m ∈ messages, ∀ snapshot, sentSnapshot m = some snapshot → snapshot.WellFormed

theorem snapshotIn_of_mem_fixedResults {v : Value} (h : v ∈ fixedResults) :
    snapshotIn v = none := by
  rcases List.mem_cons.1 h with rfl | h
  · rfl
  · rcases List.mem_pair.1 h with rfl | rfl <;> rfl

theorem snapshotIn_snapshot {snapshot : RepositorySnapshot} {v : Value}
    (h : Wire.repositorySnapshotCodec.enc snapshot = some v) : snapshotIn v = some snapshot := by
  simp [snapshotIn, Wire.repositorySnapshotCodec.dec_enc h]

/-- A snapshot with its version has no `identity`, so it is not read as one alone. -/
theorem snapshotIn_params {params : SnapshotNotificationParams} {v : Value}
    (h : Wire.snapshotNotificationParamsCodec.enc params = some v) :
    snapshotIn v = some params.snapshot := by
  have hread := Wire.snapshotNotificationParamsCodec.dec_enc h
  obtain ⟨o, rfl, hnames⟩ := Json.Codec.struct_enc h
  have hidentity : "identity" ∉ o.names := fun hmem => absurd (hnames _ hmem) (by decide)
  have hdec : (Json.Fields.field "identity" Wire.repositoryIdentityCodec).dec o = none :=
    Json.Fields.field_dec_of_missing rfl (Json.lookup_eq_none_of_not_mem hidentity)
  have halone : Wire.repositorySnapshotCodec.dec (.object o) = none := by
    simp [Wire.repositorySnapshotCodec, Json.Codec.struct, Json.Fields.and, hdec]
  simp [snapshotIn, hread, halone]

/-- The snapshot in a message for a line was read for it. -/
theorem LineMessage.read_of_sent {read : SnapshotRead} {m : ServerMessage}
    {snapshot : RepositorySnapshot} (h : LineMessage read m) (hm : sentSnapshot m = some snapshot) :
    ∃ repo options, read repo options = .ok snapshot := by
  cases h with
  | error hid hcode => cases hm
  | fixed hid hv =>
      have hnone := snapshotIn_of_mem_fixedResults hv
      cases hnone.symm.trans hm
  | snapshot hid hread henc =>
      obtain rfl := Option.some.inj ((snapshotIn_snapshot henc).symm.trans hm)
      exact ⟨_, _, hread⟩
  | baseline hid hread henc =>
      obtain rfl := Option.some.inj ((snapshotIn_params henc).symm.trans hm)
      exact ⟨_, _, hread⟩
  | announced hread henc =>
      obtain rfl := Option.some.inj ((snapshotIn_params henc).symm.trans hm)
      exact ⟨_, _, hread⟩

/-- The snapshot in a message for an update is the one the update is made from. -/
theorem UpdateMessage.eq_of_sent {snapshot sent : RepositorySnapshot} {m : ServerMessage}
    (h : UpdateMessage snapshot m) (hm : sentSnapshot m = some sent) : sent = snapshot := by
  cases h with
  | baseline hparams henc =>
      exact (Option.some.inj ((snapshotIn_params henc).symm.trans hm)).symm.trans hparams
  | delta hparams henc => cases hm

/-! ### The retained snapshot -/

/-- The retained snapshot is well formed, and the plan of the turn comes from events. -/
structure SnapshotInv (s : LoopState) : Prop where
  retained : ∀ snapshot, s.process.latestSnapshot = some snapshot → snapshot.WellFormed
  plan : PlanOfEvents s

section

variable {serde : SerdeJson} {capacity budget : ℕ} {s₀ s s' : LoopState} {l : LoopLabel}

/-- A line retains what it read, if anything, and sends no other snapshot. -/
theorem line_wellFormed {text : String} {process : ProcessState} {messages : List ServerMessage}
    (hretained : ∀ snapshot, s.process.latestSnapshot = some snapshot → snapshot.WellFormed)
    (h : handleRequest serde s.read s.process text = some (process, messages)) :
    (∀ snapshot, process.latestSnapshot = some snapshot → snapshot.WellFormed) ∧
      SendsWellFormed messages := by
  have hspec := handleRequest_spec h
  refine ⟨?_, fun m hm snapshot hsent => ?_⟩
  · cases hwrite : baselineWrite serde s.read s.process.repo text with
    | none =>
        rw [hwrite] at hspec
        rw [hspec.1.snapshot]
        exact hretained
    | some write =>
        rw [hwrite] at hspec
        have hread : write.2.WellFormed := wellFormed_of_read (baselineWrite_eq_some hwrite)
        rw [hspec.1.snapshot]
        exact fun snapshot hsome => Option.some.inj hsome ▸ hread
  · obtain ⟨repo, options, hread⟩ := (handleRequest_messages h m hm).read_of_sent hsent
    exact wellFormed_of_read hread

/-- An update retains the snapshot it is made from, and sends no other one. -/
theorem update_wellFormed {process process' : ProcessState} {snapshot : RepositorySnapshot}
    {messages : List ServerMessage} (hsnapshot : snapshot.WellFormed)
    (h : snapshotUpdateMessages process snapshot = some (process', messages)) :
    (∀ snapshot, process'.latestSnapshot = some snapshot → snapshot.WellFormed) ∧
      SendsWellFormed messages := by
  obtain ⟨-, hlatest, -⟩ := snapshotUpdateMessages_spec h
  refine ⟨fun retained hsome => ?_, fun m hm sent hsent => ?_⟩
  · rw [hlatest] at hsome
    exact Option.some.inj hsome ▸ hsnapshot
  · exact (snapshotUpdateMessages_messages h m hm).eq_of_sent hsent ▸ hsnapshot

/-- Every step keeps the retained snapshot well formed, and sends well-formed snapshots. -/
theorem SnapshotInv.step (hinv : SnapshotInv s) (h : LoopStep serde capacity budget s l s') :
    SnapshotInv s' ∧ SendsWellFormed l.messages := by
  have hplan := hinv.plan.step h
  rcases h.sends with ⟨hprocess, hmessages, -⟩ | ⟨plan, process, messages, hpc, hupdate, rfl, rfl⟩ |
    ⟨text, process, messages, -, hhandle, hl, rfl⟩
  · refine ⟨⟨?_, hplan⟩, ?_⟩
    · rw [hprocess]
      exact hinv.retained
    · rw [hmessages]
      exact fun m hm => by cases hm
  · obtain ⟨refresh, hrefresh, hsome⟩ := Result.bind_eq_ok.1 hupdate
    have hclassified := hinv.plan plan (by rw [hpc]; rfl)
    have hwell : refresh.snapshot.WellFormed :=
      wellFormed_of_refresh hinv.retained hclassified.headWithUpstream hrefresh
    obtain ⟨hretained, hsends⟩ := update_wellFormed hwell (Except.ok.inj hsome)
    exact ⟨⟨hretained, hplan⟩, hsends⟩
  · obtain ⟨hretained, hsends⟩ := line_wellFormed hinv.retained hhandle
    rw [hl]
    exact ⟨⟨hretained, hplan⟩, hsends⟩

/-- In every run of the loop the retained snapshot, and every snapshot that was sent, is well
formed. -/
theorem snapshots_wellFormed {labels : List LoopLabel} (hstart : s₀.AtStart)
    (hfirst : ∀ snapshot, s₀.process.latestSnapshot = some snapshot → snapshot.WellFormed)
    (hrun : Lts.Run (LoopStep serde capacity budget) s₀ labels s) :
    (∀ snapshot, s.process.latestSnapshot = some snapshot → snapshot.WellFormed) ∧
      SendsWellFormed (labels.flatMap LoopLabel.messages) := by
  have hall : SnapshotInv s ∧ ∀ l ∈ labels, SendsWellFormed l.messages := by
    induction hrun with
    | nil => exact ⟨⟨hfirst, .of_plan_none (by rw [hstart.pc]; rfl)⟩, fun l hl => by cases hl⟩
    | snoc _ hstep ih =>
        obtain ⟨hinv, hsends⟩ := ih.1.step hstep
        refine ⟨hinv, fun l hl => ?_⟩
        rcases List.mem_append.1 hl with hl | hl
        · exact ih.2 l hl
        · exact List.mem_singleton.1 hl ▸ hsends
  refine ⟨hall.1.retained, fun m hm => ?_⟩
  obtain ⟨l, hl, hml⟩ := List.mem_flatMap.1 hm
  exact hall.2 l hl m hml

end

/-- A merge starts, and the snapshot that is retained then is well formed. -/
theorem snapshots_wellFormed_merge : mergingSnapshot.WellFormed ∧ ∃ labels s,
    Lts.Run (LoopStep refreshJson maxPendingWatchEvents maxDebounceDrainEvents)
      (serveState none {2, 1} {} 0 .head) labels s ∧
    s.process.latestSnapshot = some mergingSnapshot ∧
    SendsWellFormed (labels.flatMap LoopLabel.messages) := by
  obtain ⟨stale, messages, hrun, -⟩ := merge_run refreshJson
  have hrun := hrun.map Prod.fst fun _ _ _ h => h.1.1.1.1.1
  have hplain : plainSnapshot.WellFormed := wellFormed_of_read
    (show snapshotRepositoryWithOptions (fun _ => .ok plainRepository) repoRoot {} = _ by decide)
  obtain ⟨hretained, hsends⟩ := snapshots_wellFormed serveState_atStart
    (fun snapshot hsome => Option.some.inj hsome ▸ hplain) hrun
  exact ⟨hretained _ rfl, _, _, hrun, rfl, hsends⟩

end Gitseer
