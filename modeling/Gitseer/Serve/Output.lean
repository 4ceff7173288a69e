/-
**The output of the worker, byte by byte.**

A message is written as one line of JSON text, and the output is flushed after each.  A client may
find it cut off anywhere, since the worker may be stopped while it writes.  What the client reads
from it is then a prefix of the messages of the session: none is garbled by the cut, and none is
taken for another one.

The writer of JSON text is a parameter.  That its compact form has no newline, and that what it
writes is read back, is asked of the messages of the session only.

Main definitions:

* `writeServerMessage`, `writeServerMessages` — the bytes that are written;
* `readServerMessages` — what a client reads from bytes, line by line.

Main results:

* `session_sendable` — all messages of a session are read back from their JSON form;
* `output_read` — from a prefix of the output of a session a client reads a prefix of its messages.
-/

import Gitseer.Lib.Framing
import Gitseer.Protocol.RoundTrip
import Gitseer.Serve.Transcript

set_option relaxedAutoImplicit false
set_option autoImplicit false

open Json (Value)

namespace Gitseer

/-! ### Writing and reading -/

/-- The newline. -/
def newline : UInt8 := 10

/-- `write_server_message`: the JSON text of the message and a newline. -/
def writeServerMessage (toVec : Value → List UInt8) (message : ServerMessage) : List UInt8 :=
  toVec message.toJson ++ [newline]

/-- `write_server_messages`. -/
def writeServerMessages (toVec : Value → List UInt8) (messages : List ServerMessage) :
    List UInt8 :=
  messages.flatMap (writeServerMessage toVec)

/-- What a client reads: the messages of the lines that are finished. -/
def readServerMessages (fromSlice : List UInt8 → Option Value) (bytes : List UInt8) :
    List ServerMessage :=
  (Framing.read newline bytes).1.filterMap fun line =>
    (fromSlice line).bind ServerMessage.fromJson

/-- The messages are written without a newline, and their JSON forms are read back. -/
structure WritesLines (toVec : Value → List UInt8) (fromSlice : List UInt8 → Option Value)
    (messages : List ServerMessage) : Prop where
  newline : ∀ m ∈ messages, newline ∉ toVec m.toJson
  read : ∀ m ∈ messages, fromSlice (toVec m.toJson) = some m.toJson

theorem writeServerMessages_eq (toVec : Value → List UInt8) (messages : List ServerMessage) :
    writeServerMessages toVec messages =
      Framing.write newline (messages.map fun m => toVec m.toJson) := by
  rw [Framing.write, List.flatMap_map]
  rfl

section

variable {serde : SerdeJson} {repo : StdPath.PathBuf} {labels : List ServeLabel}
  {last : List ServerMessage} {toVec : Value → List UInt8}
  {fromSlice : List UInt8 → Option Value}

/-- The lines of messages are read back as the messages. -/
theorem read_lines {messages : List ServerMessage} (hwrites : WritesLines toVec fromSlice messages)
    (hsendable : ∀ m ∈ messages, m.Sendable) :
    (messages.map fun m => toVec m.toJson).filterMap
      (fun line => (fromSlice line).bind ServerMessage.fromJson) = messages := by
  induction messages with
  | nil => rfl
  | cons m messages ih =>
      have hread : (fromSlice (toVec m.toJson)).bind ServerMessage.fromJson = some m := by
        rw [hwrites.read m List.mem_cons_self]
        exact ServerMessage.fromJson_toJson (hsendable m List.mem_cons_self)
      have hrest : WritesLines toVec fromSlice messages :=
        ⟨fun m hm => hwrites.newline m (List.mem_cons_of_mem _ hm),
          fun m hm => hwrites.read m (List.mem_cons_of_mem _ hm)⟩
      rw [List.map_cons, List.filterMap_cons, hread]
      exact congrArg (m :: ·) (ih hrest fun m hm => hsendable m (List.mem_cons_of_mem _ hm))

/-- From a prefix of the bytes of messages a prefix of the messages is read. -/
theorem readServerMessages_of_prefix {messages : List ServerMessage}
    (hwrites : WritesLines toVec fromSlice messages) (hsendable : ∀ m ∈ messages, m.Sendable)
    {bytes : List UInt8} (hcut : bytes <+: writeServerMessages toVec messages) :
    readServerMessages fromSlice bytes <+: messages ∧
      (bytes = writeServerMessages toVec messages →
        readServerMessages fromSlice bytes = messages) := by
  rw [writeServerMessages_eq] at hcut ⊢
  have hlines : ∀ line ∈ messages.map fun m => toVec m.toJson, newline ∉ line := by
    intro line hline
    obtain ⟨m, hm, rfl⟩ := List.mem_map.1 hline
    exact hwrites.newline m hm
  obtain ⟨hread, hall⟩ := Framing.read_of_prefix hlines hcut
  constructor
  · rw [← read_lines hwrites hsendable]
    exact hread.filterMap _
  · intro heq
    rw [readServerMessages, hall heq, read_lines hwrites hsendable]

/-! ### Sessions -/

/-- Every message of a session is read back from its JSON form. -/
theorem session_sendable (h : Session serde repo labels last) :
    ∀ m ∈ transcript labels last, m.Sendable := by
  obtain ⟨s, hrun, input, hends⟩ := h
  intro m hm
  rcases List.mem_append.1 hm with hm | hm
  · obtain ⟨l, hl, hown⟩ := List.mem_flatMap.1 hm
    obtain ⟨-, t, t', -, -, -, hstep, -⟩ := hrun.step_of_mem hl
    obtain ⟨input, spawned, messages⟩ := l
    cases serveTurn_sends hstep with
    | line hreq => exact (handleRequest_messages hreq m hown).sendable
    | update hline hdiscover hsubscribed hupdate =>
        obtain ⟨refresh, -, hmessages⟩ := Result.bind_eq_ok.1 hupdate
        exact (snapshotUpdateMessages_messages (Except.ok.inj hmessages) m hown).sendable
    | nothing => cases hown
  · rcases serveTurn_ends hends with rfl | ⟨reason, rfl⟩
    · cases hm
    · obtain rfl := List.mem_singleton.1 hm
      exact sendable_notify _ rfl

/-- A client that finds the output of a session cut off anywhere reads a prefix of the messages of
the session, and all of them from all of it. -/
theorem output_read (h : Session serde repo labels last)
    (hwrites : WritesLines toVec fromSlice (transcript labels last)) {bytes : List UInt8}
    (hcut : bytes <+: writeServerMessages toVec (transcript labels last)) :
    readServerMessages fromSlice bytes <+: transcript labels last ∧
      (bytes = writeServerMessages toVec (transcript labels last) →
        readServerMessages fromSlice bytes = transcript labels last) :=
  readServerMessages_of_prefix hwrites (session_sendable h) hcut

end

/-! ### A subscription -/

/-- A string without characters that are escaped. -/
def quoted (s : String) : String := "\"" ++ s ++ "\""

mutual

/-- The compact JSON text of a value whose numbers are integers, and whose strings have no
characters that are escaped. -/
def compactText : Value → String
  | .null => "null"
  | .bool b => if b then "true" else "false"
  | .number (.int n) => toString n
  | .number (.float _) => ""
  | .string s => quoted s
  | .array items => "[" ++ compactItems items ++ "]"
  | .object fields => "\x7b" ++ compactFields fields ++ "\x7d"

def compactItems : List Value → String
  | [] => ""
  | [v] => compactText v
  | v :: items => compactText v ++ "," ++ compactItems items

def compactFields : List (String × Value) → String
  | [] => ""
  | [(name, v)] => quoted name ++ ":" ++ compactText v
  | (name, v) :: fields => quoted name ++ ":" ++ compactText v ++ "," ++ compactFields fields

end

def compactToVec (v : Value) : List UInt8 := StdPath.bytesOf (compactText v)

/-- The lines of the messages, read. -/
def lineFromSlice (messages : List ServerMessage) (bytes : List UInt8) : Option Value :=
  (messages.find? fun m => compactToVec m.toJson = bytes).map ServerMessage.toJson

/-- Different lines are read as different messages. -/
theorem lineFromSlice_of_mem {messages : List ServerMessage}
    (hlines : messages.Pairwise fun m m' => compactToVec m.toJson ≠ compactToVec m'.toJson)
    {m : ServerMessage} (hm : m ∈ messages) :
    lineFromSlice messages (compactToVec m.toJson) = some m.toJson := by
  induction messages with
  | nil => cases hm
  | cons first messages ih =>
      rw [List.pairwise_cons] at hlines
      rcases List.mem_cons.1 hm with rfl | hm
      · rw [lineFromSlice, List.find?_cons_of_pos (by simp)]
        rfl
      · have hne := hlines.1 m hm
        rw [lineFromSlice, List.find?_cons_of_neg (by simpa using hne)]
        exact ih hlines.2 hm

/-- The response to the subscription. -/
def subscribedResponse : ServerMessage :=
  successResponse (.number (.int 1)) (.object [("subscribed", .bool true)])

/-- The snapshot that follows it. -/
def subscribedSnapshot : ServerMessage :=
  notify "gitseer/snapshot"
    ((Wire.snapshotNotificationParamsCodec.enc ⟨1, plainSnapshot⟩).getD .null)

/-- A client subscribes. -/
def subscribedTurn : ServeLabel :=
  ⟨.line subscribeLine readPlain, true, [subscribedResponse, subscribedSnapshot]⟩

theorem subscribed_turn : TurnStep subscribeJson (.new repoRoot) subscribedTurn
    { process := subscribedState, pendingWatcher := true } := by
  have hsubscribe : handleRequest subscribeJson readPlain (.new repoRoot) subscribeLine =
      some (subscribedState, [subscribedResponse, subscribedSnapshot]) := rfl
  change some (Turn.line _ _ _ _ _) = _
  simp only [Turn.line, ServeState.new, hsubscribe]
  rfl

/-- The messages of a client that subscribes and then closes its end. -/
def subscribedMessages : List ServerMessage :=
  transcript [subscribedTurn] [goodbyeMessage "stdin closed"]

theorem subscribed_session :
    Session subscribeJson repoRoot [subscribedTurn] [goodbyeMessage "stdin closed"] :=
  ⟨_, .single subscribed_turn, .stdinClosed, rfl⟩

theorem subscribed_lines :
    WritesLines compactToVec (lineFromSlice subscribedMessages) subscribedMessages :=
  ⟨by decide +kernel, fun _ hm => lineFromSlice_of_mem (by decide +kernel) hm⟩

/-- The response, and the notification up to its hundredth byte. -/
def brokenOff : List UInt8 :=
  (writeServerMessages compactToVec subscribedMessages).take
    ((writeServerMessage compactToVec subscribedResponse).length + 100)

/-- A client that finds the output broken off in the notification reads the response, and from all
of the output all three messages. -/
theorem output_read_subscribe :
    readServerMessages (lineFromSlice subscribedMessages) brokenOff = [subscribedResponse] ∧
    readServerMessages (lineFromSlice subscribedMessages)
      (writeServerMessages compactToVec subscribedMessages) = subscribedMessages := by
  have hpart : readServerMessages (lineFromSlice subscribedMessages) brokenOff <+:
      subscribedMessages :=
    (output_read subscribed_session subscribed_lines (List.take_prefix _ _)).1
  have hone : (readServerMessages (lineFromSlice subscribedMessages) brokenOff).length = 1 := by
    decide +kernel
  refine ⟨?_, (output_read subscribed_session subscribed_lines (List.prefix_refl _)).2 rfl⟩
  rw [List.prefix_iff_eq_take.1 hpart, hone]
  rfl

end Gitseer
