/-
**Requests that read only do not interfere.**

A line that is rejected, that names a method the worker does not know, or that only asks about it or
the repository leaves the state of the worker alone, whatever the repository answers.  So such lines
can be put anywhere into a run: everything else is answered as before, down to the versions, and
the run ends in the same state.

Main definitions:

* `InertLine` — the line is not a refresh and changes no subscription.

Main results:

* `handleRequest_inert` — an inert line leaves the state as it was;
* `inert_lines_do_not_interfere` — two runs that differ in inert lines only;
* `exists_run_with_inert_lines` — there is such a second run where what is read has UTF-8 paths.
-/

import Gitseer.Lib.Interference
import Gitseer.Protocol.Envelope

set_option relaxedAutoImplicit false
set_option autoImplicit false

open StdPath (PathBuf)
open Json (Value)
open Interference (Slot first second Aligned)

namespace Gitseer

/-! ### Inert lines -/

/-- The methods that change the state of the worker. -/
def writingMethods : List String := ["gitseer/refresh", "gitseer/subscribe", "gitseer/unsubscribe"]

/-- The line is malformed, or it is a request of any other method: `initialize`,
`gitseer/getSnapshot`, or one that is not known. -/
def InertLine (serde : SerdeJson) (text : String) : Prop :=
  ∀ request isNotification, parseRequest serde text = .ok (request, isNotification) →
    request.method ∉ writingMethods

/-- The event is an inert line, whatever the repository answers to it. -/
def InertEvent (serde : SerdeJson) : StreamEvent → Prop
  | .line text _ => InertLine serde text
  | .update _ => False

section

variable {serde : SerdeJson} {read : SnapshotRead} {s s' : ProcessState} {text : String}
  {messages : List ServerMessage} {request : JsonRpcRequest}

theorem respond_inert (hmethod : request.method ∉ writingMethods)
    (h : respond serde read s request = some (s', messages)) : s' = s := by
  simp only [writingMethods, List.mem_cons, List.not_mem_nil, or_false, not_or] at hmethod
  obtain ⟨hrefresh, hsub, hunsub⟩ := hmethod
  unfold respond at h
  dsimp only at h
  split_ifs at h
  · exact (Prod.mk.inj (Option.some.inj h)).1.symm
  · exact (respondGetSnapshot_spec h).1
  · exact (Prod.mk.inj (Option.some.inj h)).1.symm
  · exact (Prod.mk.inj (Option.some.inj h)).1.symm

/-- An inert line leaves the state as it was. -/
theorem handleRequest_inert (hinert : InertLine serde text)
    (h : handleRequest serde read s text = some (s', messages)) : s' = s := by
  unfold handleRequest at h
  cases hparse : parseRequest serde text with
  | error rejected =>
      rw [hparse] at h
      exact (Prod.mk.inj (Option.some.inj h)).1.symm
  | ok parsed =>
      obtain ⟨request, isNotification⟩ := parsed
      rw [hparse] at h
      obtain ⟨⟨t, sent⟩, hrespond, hm⟩ := Option.bind_eq_some_iff.1 h
      obtain ⟨rfl, rfl⟩ := Prod.mk.inj (Option.some.inj hm)
      exact respond_inert (hinert _ _ hparse) hrespond

end

/-! ### Two runs -/

/-- A step is determined by its event. -/
theorem streamStep_deterministic (serde : SerdeJson) :
    Interference.Deterministic (StreamStep serde) StreamLabel.event := by
  rintro s l l' s' t' h h' hevent
  cases h with
  | line h =>
      cases h' with
      | line h' =>
          obtain ⟨rfl, rfl⟩ := StreamEvent.line.inj hevent
          obtain ⟨rfl, rfl⟩ := Prod.mk.inj (Option.some.inj (h.symm.trans h'))
          exact ⟨rfl, rfl⟩
      | update _ => cases hevent
  | update h =>
      cases h' with
      | line _ => cases hevent
      | update h' =>
          obtain rfl := StreamEvent.update.inj hevent
          obtain ⟨rfl, rfl⟩ := Prod.mk.inj (Option.some.inj (h.symm.trans h'))
          exact ⟨rfl, rfl⟩

theorem streamStep_ignores (serde : SerdeJson) :
    Interference.Ignores (StreamStep serde) StreamLabel.event (InertEvent serde) := by
  rintro s l s' h hinert
  cases h with
  | line h => exact handleRequest_inert hinert h
  | update _ => exact hinert.elim

/-- Of two runs that differ only in that the second has inert lines at any positions, all other
steps return the same messages, and both end in the same state. -/
theorem inert_lines_do_not_interfere {serde : SerdeJson} {slots : List (Slot StreamLabel)}
    {s t t' : ProcessState} (haligned : Aligned StreamLabel.event (InertEvent serde) slots)
    (hfirst : Lts.Run (StreamStep serde) s (first slots) t)
    (hsecond : Lts.Run (StreamStep serde) s (second slots) t') :
    t' = t ∧ ∀ l l', Slot.shared l l' ∈ slots → l'.messages = l.messages := by
  obtain ⟨hlast, hshared⟩ := Interference.runs_agree (streamStep_deterministic serde)
    (streamStep_ignores serde) haligned hfirst hsecond
  exact ⟨hlast, fun l l' hmem => by rw [hshared l l' hmem]⟩

/-- The event is an inert line, and what is read for it has UTF-8 paths only. -/
def AnsweredEvent (serde : SerdeJson) (repo : PathBuf) : StreamEvent → Prop
  | .line text read => InertLine serde text ∧ ReadsUtf8 serde read repo text
  | .update _ => False

theorem AnsweredEvent.inert {serde : SerdeJson} {repo : PathBuf} {event : StreamEvent}
    (h : AnsweredEvent serde repo event) : InertEvent serde event := by
  cases event with
  | line text read => exact h.1
  | update snapshot => exact h.elim

/-- Inert lines can be put anywhere into a run when what is read for them has UTF-8 paths only. -/
theorem exists_run_with_inert_lines {serde : SerdeJson} {plan : List (StreamLabel ⊕ StreamEvent)}
    {s t : ProcessState} (hplan : ∀ event, .inr event ∈ plan → AnsweredEvent serde s.repo event)
    (hrun : Lts.Run (StreamStep serde) s (plan.filterMap Sum.getLeft?) t) :
    ∃ slots, Aligned StreamLabel.event (InertEvent serde) slots ∧
      first slots = plan.filterMap Sum.getLeft? ∧
      (second slots).map StreamLabel.event = plan.map (Sum.elim StreamLabel.event id) ∧
      Lts.Run (StreamStep serde) s (second slots) t := by
  have hanswers : ∀ (u : ProcessState) (event : StreamEvent), u.repo = s.repo →
      AnsweredEvent serde s.repo event → ∃ l : StreamLabel, l.event = event ∧
        StreamStep serde u l u := by
    intro u event hu hanswered
    cases event with
    | line text read =>
        have hsome : (handleRequest serde read u text).isSome = true :=
          handleRequest_isSome_iff.2 (hu ▸ hanswered.2)
        obtain ⟨⟨u', messages⟩, hhandle⟩ := Option.isSome_iff_exists.1 hsome
        obtain rfl := handleRequest_inert hanswered.1 hhandle
        exact ⟨⟨.line text read, messages⟩, rfl, .line hhandle⟩
    | update snapshot => exact hanswered.elim
  obtain ⟨slots, haligned, hfirst, hsecond, hruns⟩ := Interference.exists_second
    (fun _ _ _ hu hstep => hstep.repo.trans hu) hanswers rfl hplan hrun
  refine ⟨slots, fun slot hslot => ?_, hfirst, hsecond, hruns⟩
  have hslot := haligned slot hslot
  cases slot with
  | shared l l' => exact hslot
  | extra l' => exact hslot.inert

/-! ### A request for a snapshot between a refresh and an update -/

def refreshOrGetJson : SerdeJson := knownLines [
  (refreshLine, .object [("jsonrpc", .string "2.0"), ("id", .number (.int 1)),
    ("method", .string "gitseer/refresh")]),
  (getSnapshotLine, .object [("jsonrpc", .string "2.0"), ("id", .number (.int 1)),
    ("method", .string "gitseer/getSnapshot")])]

/-- A read that finds a conflict. -/
def readConflict : SnapshotRead := fun _ _ => .ok (conflictSnapshot "2")

/-- The snapshot asked for in between is another one than both the others. -/
theorem inert_lines_do_not_interfere_getSnapshot : ∃ refreshed updated asked t t',
    Lts.Run (StreamStep refreshOrGetJson) (ProcessState.new repoRoot)
      [⟨.line refreshLine readPlain, refreshed⟩, ⟨.update (conflictSnapshot "1"), updated⟩] t ∧
    Lts.Run (StreamStep refreshOrGetJson) (ProcessState.new repoRoot)
      [⟨.line refreshLine readPlain, refreshed⟩, ⟨.line getSnapshotLine readConflict, asked⟩,
        ⟨.update (conflictSnapshot "1"), updated⟩] t' ∧
    t' = t := by
  obtain ⟨refreshed, hrefresh⟩ : ∃ messages, handleRequest refreshOrGetJson readPlain
      (ProcessState.new repoRoot) refreshLine = some (basedState plainSnapshot, messages) :=
    exists_messages (by decide)
  obtain ⟨asked, hget⟩ : ∃ messages, handleRequest refreshOrGetJson readConflict
      (basedState plainSnapshot) getSnapshotLine = some (basedState plainSnapshot, messages) :=
    exists_messages (by decide)
  obtain ⟨updated, hupdate⟩ := conflict_update
  have hone : Lts.Run (StreamStep refreshOrGetJson) (ProcessState.new repoRoot)
      [⟨.line refreshLine readPlain, refreshed⟩] (basedState plainSnapshot) :=
    .single (.line hrefresh)
  have hfirst := hone.snoc (.update hupdate)
  have hsecond := (hone.snoc (.line hget)).snoc (.update hupdate)
  have haligned : Aligned StreamLabel.event (InertEvent refreshOrGetJson)
      [.shared ⟨.line refreshLine readPlain, refreshed⟩ ⟨.line refreshLine readPlain, refreshed⟩,
        .extra ⟨.line getSnapshotLine readConflict, asked⟩,
        .shared ⟨.update (conflictSnapshot "1"), updated⟩
          ⟨.update (conflictSnapshot "1"), updated⟩] := by
    refine List.forall_mem_cons.2 ⟨rfl, List.forall_mem_cons.2 ⟨?_, by simp⟩⟩
    intro request isNotification hparse
    obtain ⟨rfl, -⟩ := Prod.mk.inj (Except.ok.inj hparse)
    decide
  exact ⟨refreshed, updated, asked, _, _, hfirst, hsecond,
    (inert_lines_do_not_interfere haligned hfirst hsecond).1⟩

end Gitseer
