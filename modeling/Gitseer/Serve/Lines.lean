/-
**What a line of the input can do to the loop.**

The loop reads lines of bytes.  The reader of the standard input decodes a line and fails when it
is not UTF-8, and every branch of the loop hands that failure on, so such a line ends the program
without an answer.  A line that is text is answered, whatever it says, unless it has a snapshot
read that cannot be written.  Between two lines the loop may take any turn that is not a line.

Main definitions:

* `nextLine`, `ServeInput.ofBytes` — the reader of lines, and what the loop gets from it;
* `Prescribed` — the answer to a line of bytes that the rules of JSON-RPC prescribe;
* `LinesServed` — every line of a sequence is answered so, and the loop goes on after it.

Main results:

* `serveTurn_line` — all branches of the loop take a line alike;
* `repo_of_run` — no turn changes which repository is served;
* `lines_served_iff` — which sequences of lines are served.
-/

import Gitseer.Protocol.Construction
import Gitseer.Serve.Sources

set_option relaxedAutoImplicit false
set_option autoImplicit false

open StdPath (PathBuf)

namespace Gitseer

/-! ### Lines of bytes -/

/-- `Lines::next_line` on the bytes before a newline: the text without a final carriage return,
or the failure for bytes that are not UTF-8. -/
def nextLine (bytes : List UInt8) : Option String :=
  (String.fromUTF8? ⟨bytes.toArray⟩).map fun text => (dropSuffix text "\r").getD text

/-- What the loop takes when the line is there. -/
def ServeInput.ofBytes (bytes : List UInt8) (read : SnapshotRead) : ServeInput :=
  match nextLine bytes with
  | some text => .line text read
  | none => .stdinFailed

def ServeInput.isLine : ServeInput → Bool
  | .line _ _ => true
  | _ => false

/-! ### Turns keep the repository -/

section

variable {serde : SerdeJson} {s s' : ServeState} {spawned : Bool} {messages : List ServerMessage}

theorem Turn.refresh_repo {plan : RefreshPlan} {discover : Discover}
    (h : Turn.refresh s plan discover = .again s' spawned messages) :
    s'.process.repo = s.process.repo := by
  unfold Turn.refresh at h
  split at h
  · next process sent hupdate =>
      injection h with hstate
      obtain ⟨refresh, -, hsome⟩ := Result.bind_eq_ok.1 hupdate
      rw [← hstate]
      exact (snapshotUpdateMessages_spec (Except.ok.inj hsome)).1
  · cases h

theorem Turn.refreshSubscribed_repo {discover : Discover}
    (h : Turn.refreshSubscribed s discover = .again s' spawned messages) :
    s'.process.repo = s.process.repo := by
  unfold Turn.refreshSubscribed at h
  split at h
  · injection h with hstate
    rw [hstate]
  · exact Turn.refresh_repo h

/-- All branches of the loop take a line alike. -/
theorem serveTurn_line (serde : SerdeJson) (s : ServeState) :
    ∃ next : ServeState → ServeState × Bool, (∀ t, (next t).1.process = t.process) ∧
      ∀ text read, serveTurn serde s (.line text read) = some (.line serde s text read next) := by
  have hstart : ∀ t, (startWatcherIfNeeded t).1.process = t.process :=
    fun t => (startWatcherIfNeeded_spec (Prod.eta _).symm).2.1
  unfold serveTurn
  split_ifs
  · exact ⟨_, fun _ => rfl, fun _ _ => rfl⟩
  · exact ⟨_, fun _ => rfl, fun _ _ => rfl⟩
  · exact ⟨_, fun t => hstart { t with pollingFallback := t.process.subscribed }, fun _ _ => rfl⟩
  · exact ⟨_, hstart, fun _ _ => rfl⟩

/-- And all of them end when the reader fails. -/
theorem serveTurn_stdinFailed (serde : SerdeJson) (s : ServeState) :
    serveTurn serde s .stdinFailed = some (.ends []) := by
  unfold serveTurn
  split_ifs <;> rfl

theorem serveTurn_repo {input : ServeInput}
    (h : serveTurn serde s input = some (.again s' spawned messages)) :
    s'.process.repo = s.process.repo := by
  cases input with
  | line text read =>
      obtain ⟨next, hnext, hturn⟩ := serveTurn_line serde s
      rw [hturn] at h
      obtain ⟨process, hreq, hstate⟩ := Turn.line_again (Option.some.inj h)
      have hprocess := hnext { s with process := process }
      rw [hstate] at hprocess
      rw [hprocess]
      exact handleRequest_repo hreq
  | stdinClosed =>
      unfold serveTurn at h
      split_ifs at h <;> cases h
  | stdinFailed =>
      rw [serveTurn_stdinFailed] at h
      cases h
  | started ok discover =>
      unfold serveTurn at h
      split_ifs at h
      · cases h
      · match ok with
        | none => cases h
        | some true =>
            have hrepo := Turn.refreshSubscribed_repo (Option.some.inj h)
            exact hrepo
        | some false =>
            have hrepo := Turn.refreshSubscribed_repo (Option.some.inj h)
            exact hrepo
      · cases h
      · cases h
  | watchEvent plan discover =>
      unfold serveTurn at h
      split_ifs at h
      · simp only [activeTurn] at h
        split_ifs at h
        · exact Turn.refresh_repo (Option.some.inj h)
        · cases h
          rfl
      · cases h
      · cases h
      · cases h
  | watcherStopped =>
      unfold serveTurn at h
      split_ifs at h <;> cases h
  | tick discover =>
      unfold serveTurn at h
      split_ifs at h
      · cases h
      · exact Turn.refreshSubscribed_repo (Option.some.inj h)
      · exact Turn.refreshSubscribed_repo (Option.some.inj h)
      · cases h

/-- No turn changes which repository is served. -/
theorem repo_of_run {labels : List ServeLabel} (h : Lts.Run (TurnStep serde) s labels s') :
    s'.process.repo = s.process.repo := by
  induction h with
  | nil => rfl
  | snoc _ hstep ih => exact (serveTurn_repo hstep).trans ih

end

/-! ### Sequences of lines -/

/-- The answer that the rules prescribe: a line of text is answered by the law, and one that is not
UTF-8 by a single error, as it is no JSON. -/
def Prescribed (serde : SerdeJson) (read : SnapshotRead) (s : ProcessState) (bytes : List UInt8)
    (s' : ProcessState) (messages : List ServerMessage) : Prop :=
  match nextLine bytes with
  | some text => EnvelopeLaw serde read s text ∧
      handleRequest serde read s text = some (s', messages)
  | none => s' = s ∧ ∃ message data, messages = [errorResponse .null parseError message data]

/-- Whatever other turns come before each line, it is answered as prescribed, and the loop goes
on. -/
def LinesServed (serde : SerdeJson) : ServeState → List (List UInt8 × SnapshotRead) → Prop
  | _, [] => True
  | s, (bytes, read) :: lines => ∀ labels t, Lts.Run (TurnStep serde) s labels t →
      (∀ l ∈ labels, l.input.isLine = false) → ∃ t' spawned messages,
        serveTurn serde t (.ofBytes bytes read) = some (.again t' spawned messages) ∧
        Prescribed serde read t.process bytes t'.process messages ∧ LinesServed serde t' lines

section

variable {serde : SerdeJson} {s : ServeState} {bytes : List UInt8} {read : SnapshotRead}

/-- One line is answered as prescribed exactly when it is UTF-8 and reads UTF-8 paths only. -/
theorem line_served_iff :
    (∃ s' spawned messages,
      serveTurn serde s (.ofBytes bytes read) = some (.again s' spawned messages) ∧
      Prescribed serde read s.process bytes s'.process messages) ↔
    ∃ text, nextLine bytes = some text ∧ ReadsUtf8 serde read s.process.repo text := by
  cases htext : nextLine bytes with
  | none =>
      refine iff_of_false ?_ (by simp)
      rintro ⟨s', spawned, messages, hturn, -⟩
      rw [ServeInput.ofBytes, htext, serveTurn_stdinFailed] at hturn
      cases hturn
  | some text =>
      obtain ⟨next, hnext, hturn⟩ := serveTurn_line serde s
      simp only [ServeInput.ofBytes, Prescribed, htext, hturn, Option.some.injEq, exists_eq_left']
      constructor
      · rintro ⟨s', spawned, messages, -, -, hreq⟩
        exact handleRequest_isSome_iff.1 (Option.isSome_iff_exists.2 ⟨_, hreq⟩)
      · intro hreads
        obtain ⟨⟨process, messages⟩, hreq⟩ :=
          Option.isSome_iff_exists.1 (handleRequest_isSome_iff.2 hreads)
        refine ⟨(next { s with process := process }).1, (next { s with process := process }).2,
          messages, ?_, envelopeLaw_of_readsUtf8 hreads, ?_⟩
        · rw [Turn.line, hreq]
        · rw [hnext]
          exact hreq

end

/-- The lines of a sequence are served exactly when each is UTF-8 and reads UTF-8 paths only. -/
theorem lines_served_iff (serde : SerdeJson) (s : ServeState)
    (lines : List (List UInt8 × SnapshotRead)) :
    LinesServed serde s lines ↔ ∀ line ∈ lines, ∃ text, nextLine line.1 = some text ∧
      ReadsUtf8 serde line.2 s.process.repo text := by
  induction lines generalizing s with
  | nil => simp [LinesServed]
  | cons line lines ih =>
      obtain ⟨bytes, read⟩ := line
      rw [List.forall_mem_cons]
      constructor
      · intro h
        obtain ⟨s', spawned, messages, hturn, hprescribed, hrest⟩ :=
          h [] s Lts.Run.nil (by simp)
        refine ⟨line_served_iff.1 ⟨s', spawned, messages, hturn, hprescribed⟩, ?_⟩
        rw [← serveTurn_repo hturn]
        exact (ih s').1 hrest
      · rintro ⟨hline, hlines⟩ labels t hrun _
        have hrepo := repo_of_run hrun
        rw [← hrepo] at hline
        obtain ⟨t', spawned, messages, hturn, hprescribed⟩ := line_served_iff.2 hline
        refine ⟨t', spawned, messages, hturn, hprescribed, (ih t').2 ?_⟩
        rw [serveTurn_repo hturn, hrepo]
        exact hlines

/-- A line with a byte that no UTF-8 text has is not answered, and the loop ends. -/
theorem latin_line_unserved :
    ¬ LinesServed subscribeJson (ServeState.new repoRoot) [([0xff], readPlain)] := by
  intro h
  obtain ⟨s', spawned, messages, hturn, -⟩ := h [] _ Lts.Run.nil (by simp)
  have hends : serveTurn subscribeJson (ServeState.new repoRoot) (.ofBytes [0xff] readPlain) =
      some (.ends []) := by
    have hline : nextLine [0xff] = none := by decide
    rw [ServeInput.ofBytes, hline, serveTurn_stdinFailed]
  rw [hends] at hturn
  cases hturn

end Gitseer
