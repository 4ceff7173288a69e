/-
**Output that breaks off.**

The worker may be stopped at any moment, also while it writes.  The client has then read the
beginning of what was sent: the last line may be cut, and of the messages of one turn it may have
the response and not the snapshot that was to follow.

It does not have a mix of two states.  A turn publishes at most once, so that what the client has is
what it would have after one of the turns, and shows the baseline that the worker had then.

Main results:

* `TurnStep.publishes` — a turn publishes at most once;
* `cut_copy_shows` — what a client has of output that breaks off anywhere.
-/

import Gitseer.Serve.Output
import Gitseer.Serve.Shown

set_option relaxedAutoImplicit false
set_option autoImplicit false

namespace Gitseer

/-! ### What a turn publishes -/

section

variable {serde : SerdeJson} {s s' : ServeState} {l : ServeLabel}

/-- A turn publishes at most once. -/
theorem TurnStep.publishes (h : TurnStep serde s l s') : (publications l.messages).length ≤ 1 := by
  obtain ⟨input, spawned, messages⟩ := l
  cases serveTurn_sends h with
  | @line text _ _ _ hreq =>
      have hspec := handleRequest_spec hreq
      split at hspec
      · simp [hspec.2]
      · by_cases hsilent : SilentRefresh serde text
        · simp [hspec.2.1 hsilent]
        · simp [hspec.2.2 hsilent]
  | update _ _ _ hupdate =>
      obtain ⟨refresh, -, hmessages⟩ := Result.bind_eq_ok.1 hupdate
      obtain ⟨-, -, hspec⟩ := snapshotUpdateMessages_spec (Except.ok.inj hmessages)
      dsimp only at hspec ⊢
      split at hspec
      · simp [hspec.2]
      · split at hspec
        · simp [hspec.2]
        · simp [hspec.2]
  | nothing => exact Nat.zero_le _

/-- A farewell publishes nothing. -/
theorem Farewell.publications {last : List ServerMessage} (h : Farewell last) :
    Gitseer.publications last = [] := by
  rcases h with rfl | ⟨reason, rfl⟩
  · rfl
  · rfl

end

/-! ### What the client has -/

section

variable {serde : SerdeJson} {repo : StdPath.PathBuf} {labels : List ServeLabel} {s : ServeState}
  {last : List ServerMessage} {toVec : Json.Value → List UInt8}
  {fromSlice : List UInt8 → Option Json.Value}

/-- A client that received the first messages of the turns shows the baseline as it was after one of
them. -/
theorem shows_of_prefix (hrun : Lts.Run (LoudTurn serde) (.new repo) labels s)
    {messages : List ServerMessage} (hcut : messages <+: labels.flatMap ServeLabel.messages) :
    ∃ before after t, labels = before ++ after ∧ Lts.Run (LoudTurn serde) (.new repo) before t ∧
      Lts.Run (LoudTurn serde) t after s ∧
      Option.Rel RepositorySnapshot.Shows (clientCopy messages) t.process.latestSnapshot :=
  Replica.run_related_of_prefix
    (fun copy (u : ServeState) => Option.Rel RepositorySnapshot.Shows copy u.process.latestSnapshot)
    ServeLabel.messages publication .none (fun _ _ _ _ hstep hcopy => hstep.shows hcopy)
    (fun _ _ _ hstep => hstep.1.publishes) hrun hcut

/-- The farewell does not matter for the copy. -/
theorem clientCopy_append_farewell (hlast : Farewell last) {messages more : List ServerMessage}
    (hmore : more <+: last) : clientCopy (messages ++ more) = clientCopy messages := by
  have hnone : publications more = [] := by
    have hseen := hmore.filterMap publication
    rw [show last.filterMap publication = [] from hlast.publications] at hseen
    exact List.prefix_nil.1 hseen
  rw [clientCopy, clientCopy, publications, List.filterMap_append, ← publications, ← publications,
    hnone, List.append_nil]

/-- A client that finds the output of a session broken off anywhere, also within a line, shows the
baseline of the worker as it was after one of the turns. -/
theorem cut_copy_shows (hrun : Lts.Run (LoudTurn serde) (.new repo) labels s)
    (hends : ∃ input, serveTurn serde s input = some (.ends last))
    (hwrites : WritesLines toVec fromSlice (transcript labels last)) {bytes : List UInt8}
    (hcut : bytes <+: writeServerMessages toVec (transcript labels last)) :
    ∃ before after t, labels = before ++ after ∧ Lts.Run (LoudTurn serde) (.new repo) before t ∧
      Lts.Run (LoudTurn serde) t after s ∧
      Option.Rel RepositorySnapshot.Shows (clientCopy (readServerMessages fromSlice bytes))
        t.process.latestSnapshot := by
  have hsession : Session serde repo labels last := ⟨s, hrun.mono fun _ _ _ h => h.1, hends⟩
  obtain ⟨input, hinput⟩ := hends
  have hlast := serveTurn_ends hinput
  obtain ⟨hread, -⟩ := readServerMessages_of_prefix hwrites (session_sendable hsession) hcut
  rcases List.prefix_or_prefix_of_prefix hread (List.prefix_append _ _) with hturns | hturns
  · exact shows_of_prefix hrun hturns
  · -- the output breaks off in the farewell
    obtain ⟨more, hmore⟩ := hturns
    rw [← hmore, transcript, List.prefix_append_right_inj] at hread
    rw [← hmore, clientCopy_append_farewell hlast hread]
    exact shows_of_prefix hrun List.prefix_rfl

end

/-! ### A subscription that breaks off -/

theorem subscribed_loud : LoudTurn subscribeJson (.new repoRoot) subscribedTurn
    { process := subscribedState, pendingWatcher := true } := by
  refine ⟨subscribed_turn, fun text htext => ?_⟩
  obtain rfl := Option.some.inj htext
  exact subscribeLine_loud

/-- A client that subscribed and finds these bytes shows the baseline as it was after one of the
turns. -/
def ShowsSubscription (bytes : List UInt8) : Prop :=
  ∃ before after t, [subscribedTurn] = before ++ after ∧
    Lts.Run (LoudTurn subscribeJson) (.new repoRoot) before t ∧
    Option.Rel RepositorySnapshot.Shows
      (clientCopy (readServerMessages (lineFromSlice subscribedMessages) bytes))
      t.process.latestSnapshot

/-- The output breaks off after the first byte of the notification, and of the goodbye. -/
theorem cut_copy_shows_subscribe :
    ShowsSubscription (writeServerMessage compactToVec subscribedResponse ++
      StdPath.bytesOf "\x7b") ∧
    ShowsSubscription (writeServerMessage compactToVec subscribedResponse ++
      writeServerMessage compactToVec subscribedSnapshot ++ StdPath.bytesOf "\x7b") := by
  have hall : ∀ bytes, bytes <+: writeServerMessages compactToVec subscribedMessages →
      ShowsSubscription bytes := by
    intro bytes hcut
    obtain ⟨before, after, t, hsplit, hbefore, -, hshows⟩ :=
      cut_copy_shows (.single subscribed_loud) ⟨.stdinClosed, rfl⟩ subscribed_lines hcut
    exact ⟨before, after, t, hsplit, hbefore, hshows⟩
  exact ⟨hall _ (by decide +kernel), hall _ (by decide +kernel)⟩

end Gitseer
