/-
**The transcript of a session.**

What a client sees of the worker is one sequence of messages, in which answers to its lines are
mixed with updates that nobody asked for.  The client has to take the two apart and to find the line
that a response belongs to.  It can, since in every session the responses come in the order of the
lines, one for each line that is owed one, under the id that can be told from the line; the rest are
notifications.

The capabilities tell the client what to expect.  They are a table of texts that no other code looks
at, so it has to be seen that they agree with the code: what they list as methods is what is carried
out, and what they list as notifications is all that is sent.

Main definitions:

* `owedId` — the id of the response that a line is owed;
* `responseIds`, `errors` — the responses of a list of messages, by their ids and errors;
* `advertised` — what the capabilities list;
* `Session` — the turns of a worker, up to the last one.

Main results:

* `handleRequest_responseIds` — a line is answered by the response it is owed;
* `answers_in_order` — the responses of a session are those its lines are owed, in order, and a
  goodbye is its last message;
* `capabilities_truthful` — the capabilities list the methods and notifications of every session.
-/

import Gitseer.Serve.Refinement
import Gitseer.Protocol.Envelope

set_option relaxedAutoImplicit false
set_option autoImplicit false

open Json (Value)

namespace Gitseer

/-! ### Responses -/

/-- The ids of the responses among the messages, in order. -/
def responseIds (messages : List ServerMessage) : List Value :=
  messages.filterMap fun
    | .response response => some response.id
    | .notification _ => none

/-- The errors of the responses among the messages, in order. -/
def errors (messages : List ServerMessage) : List ErrorObject :=
  messages.filterMap fun
    | .response response => response.error
    | .notification _ => none

instance (o : Json.Object) : Decidable (ValidRequest o) :=
  decidable_of_iff ((o.lookup "jsonrpc").bind Value.asStr = some jsonrpcVersion ∧
      (o.lookup "method").any Value.isString = true ∧
      (∀ id ∈ o.lookup "id", validRequestId id = true) ∧
      (∀ params ∈ o.lookup "params",
        (params.isNull || params.isObject || params.isArray) = true)) <| by
    constructor
    · rintro ⟨hjsonrpc, hmethod, hid, hparams⟩
      obtain ⟨v, hv, hversion⟩ := Option.bind_eq_some_iff.1 hjsonrpc
      obtain ⟨m, hm, hstring⟩ := (Option.any_eq_true _ _).1 hmethod
      obtain ⟨method, rfl⟩ := isString_iff.1 hstring
      rw [asStr_eq_some.1 hversion] at hv
      exact ⟨hv, ⟨method, hm⟩, hid, hparams⟩
    · rintro ⟨hjsonrpc, ⟨method, hmethod⟩, hid, hparams⟩
      exact ⟨by simp [hjsonrpc, Value.asStr], by simp [hmethod, Value.isString], hid, hparams⟩

/-- The id of the response that a line is owed: that of its request, if it has one, and the id under
which the line is rejected when it holds no request. -/
def owedId (serde : SerdeJson) (line : String) : Option Value :=
  match serde.fromStr line with
  | .ok (.object o) => if ValidRequest o then o.lookup "id" else some (requestId o)
  | _ => some .null

theorem responseIds_of_notifications {messages : List ServerMessage}
    (h : ∀ m ∈ messages, m.isNotification = true) : responseIds messages = [] := by
  refine List.filterMap_eq_nil_iff.2 fun m hm => ?_
  cases m with
  | response response => cases h _ hm
  | notification notification => rfl

section

variable {serde : SerdeJson} {read : SnapshotRead} {s s' : ProcessState} {line : String}
  {messages : List ServerMessage}

theorem Rejected.responseIds {code : ℤ} {id : Value} (h : Rejected serde read s line code id)
    (hreq : handleRequest serde read s line = some (s', messages)) :
    responseIds messages = [id] := by
  obtain ⟨message, data, hrejected⟩ := h
  rw [hrejected] at hreq
  obtain ⟨-, rfl⟩ := Prod.mk.inj (Option.some.inj hreq)
  rfl

/-- A line is answered by the response it is owed. -/
theorem handleRequest_responseIds (h : handleRequest serde read s line = some (s', messages)) :
    responseIds messages = (owedId serde line).toList := by
  unfold owedId
  split
  · next o hline =>
      by_cases hvalid : ValidRequest o
      · obtain ⟨sent, hanswered, rfl⟩ := exists_answered hline hvalid h
        obtain ⟨response, rest, rfl, hid, -, -, hrest⟩ := hanswered
        rw [if_pos hvalid]
        cases hlookup : o.lookup "id" with
        | none =>
            -- only the notifications are sent
            refine responseIds_of_notifications fun m hm => ?_
            exact (List.mem_filter.1 hm).2
        | some id =>
            rw [hlookup] at hid
            change response.id :: responseIds rest = [id]
            rw [responseIds_of_notifications hrest, hid]
            rfl
      · rw [if_neg hvalid]
        exact (rejected_of_notRequest hline hvalid).responseIds h
  · next hnot =>
      cases hline : serde.fromStr line with
      | error text => exact (rejected_of_notJson hline).responseIds h
      | ok v =>
          refine (rejected_of_notObject hline ?_).responseIds h
          cases v with
          | object o => exact absurd hline (hnot o)
          | _ => rfl

end

/-! ### What the capabilities list -/

/-- A list of texts that the capabilities have for the protocol, under a name. -/
def advertised (name : String) : List String :=
  match (do
    let o ← capabilities.asObject
    let protocol ← o.lookup "protocol"
    (← protocol.asObject).lookup name) with
  | some (.array l) => l.filterMap Value.asStr
  | _ => []

/-- The message is a response, or a notification that the capabilities list. -/
def ServerMessage.Advertised : ServerMessage → Prop
  | .response _ => True
  | .notification n => n.method ∈ advertised "notifications"

/-- The message says that the worker stops. -/
def ServerMessage.isGoodbye : ServerMessage → Bool
  | .response _ => false
  | .notification n => n.method = "gitseer/goodbye"

/-- What can be said of a message that is sent while the worker goes on. -/
def ServerMessage.Ordinary (m : ServerMessage) : Prop := m.Advertised ∧ m.isGoodbye = false

section

variable {serde : SerdeJson} {read : SnapshotRead} {s s' : ProcessState} {line : String}
  {messages : List ServerMessage} {request : JsonRpcRequest} {id : Value}

theorem ordinary_response (response : JsonRpcResponse) :
    (ServerMessage.response response).Ordinary := ⟨trivial, rfl⟩

theorem ordinary_snapshot (params : Value) : (notify "gitseer/snapshot" params).Ordinary := by
  constructor
  · change "gitseer/snapshot" ∈ advertised "notifications"
    decide
  · rfl

theorem ordinary_delta (params : Value) : (notify "gitseer/delta" params).Ordinary := by
  constructor
  · change "gitseer/delta" ∈ advertised "notifications"
    decide
  · rfl

theorem snapshotNotification_ordinary {params : SnapshotNotificationParams} {m : ServerMessage}
    (h : snapshotNotification params = some m) : m.Ordinary := by
  obtain ⟨v, -, hm⟩ := Option.bind_eq_some_iff.1 h
  exact Option.some.inj hm ▸ ordinary_snapshot v

/-- The answer to a request of a method that is there. -/
def Carried (messages : List ServerMessage) : Prop :=
  (∀ m ∈ messages, m.Ordinary) ∧ ∀ e ∈ errors messages, e.code ≠ methodNotFound

theorem carried_success (id result : Value) : Carried [successResponse id result] := by
  refine ⟨fun m hm => ?_, fun e he => ?_⟩
  · obtain rfl := List.mem_singleton.1 hm
    exact ordinary_response _
  · cases he

theorem carried_error (id : Value) {code : ℤ} (message : String) (data : Option String)
    (hcode : code ≠ methodNotFound) : Carried [errorResponse id code message data] := by
  refine ⟨fun m hm => ?_, fun e he => ?_⟩
  · obtain rfl := List.mem_singleton.1 hm
    exact ordinary_response _
  · obtain rfl := List.mem_singleton.1 he
    exact hcode

/-- What is filtered out of an answer does not matter. -/
theorem Carried.filter (h : Carried messages) (p : ServerMessage → Bool) :
    Carried (messages.filter p) := by
  refine ⟨fun m hm => h.1 m (List.mem_of_mem_filter hm), fun e he => h.2 e ?_⟩
  obtain ⟨m, hm, he⟩ := List.mem_filterMap.1 he
  exact List.mem_filterMap.2 ⟨m, List.mem_of_mem_filter hm, he⟩

theorem respondGetSnapshot_carried
    (h : respondGetSnapshot serde read s request id = some (s', messages)) : Carried messages := by
  unfold respondGetSnapshot at h
  split at h
  · next hoptions =>
      obtain ⟨rfl, rfl⟩ := Prod.mk.inj (Option.some.inj h)
      refine carried_error _ _ _ ?_
      rw [snapshotOptions_error hoptions]
      decide
  · split at h
    · obtain ⟨rfl, rfl⟩ := Prod.mk.inj (Option.some.inj h)
      exact carried_error _ _ _ (by decide)
    · obtain ⟨v, -, hm⟩ := Option.bind_eq_some_iff.1 h
      obtain ⟨rfl, rfl⟩ := Prod.mk.inj (Option.some.inj hm)
      exact carried_success _ _

theorem respondRefresh_carried
    (h : respondRefresh serde read s request id = some (s', messages)) : Carried messages := by
  unfold respondRefresh at h
  split at h
  · next hoptions =>
      obtain ⟨rfl, rfl⟩ := Prod.mk.inj (Option.some.inj h)
      refine carried_error _ _ _ ?_
      rw [snapshotOptions_error hoptions]
      decide
  · split at h
    · obtain ⟨rfl, rfl⟩ := Prod.mk.inj (Option.some.inj h)
      exact carried_error _ _ _ (by decide)
    · obtain ⟨v, -, hm⟩ := Option.bind_eq_some_iff.1 h
      obtain ⟨rfl, rfl⟩ := Prod.mk.inj (Option.some.inj hm)
      exact carried_success _ _

theorem respondSubscribe_carried (h : respondSubscribe read s id = some (s', messages)) :
    Carried messages := by
  unfold respondSubscribe at h
  dsimp only at h
  split at h
  · obtain ⟨rfl, rfl⟩ := Prod.mk.inj (Option.some.inj h)
    exact carried_success _ _
  · obtain ⟨m, hm, hrest⟩ := Option.bind_eq_some_iff.1 h
    obtain ⟨rfl, rfl⟩ := Prod.mk.inj (Option.some.inj hrest)
    obtain ⟨v, -, hv⟩ := Option.bind_eq_some_iff.1 hm
    obtain rfl := Option.some.inj hv
    refine ⟨fun m hm => ?_, fun e he => by cases he⟩
    rcases List.mem_cons.1 hm with rfl | hm
    · exact ordinary_response _
    · obtain rfl := List.mem_singleton.1 hm
      exact ordinary_snapshot v

theorem advertised_methods : advertised "methods" =
    ["initialize", "gitseer/getSnapshot", "gitseer/refresh", "gitseer/subscribe",
      "gitseer/unsubscribe"] := rfl

/-- The answer agrees with the list of the methods. -/
def AnswersListed (method : String) (messages : List ServerMessage) : Prop :=
  (∀ m ∈ messages, m.Ordinary) ∧
    ((∃ e ∈ errors messages, e.code = methodNotFound) ↔ method ∉ advertised "methods")

theorem Carried.answersListed {method : String} (h : Carried messages)
    (hmethod : method ∈ advertised "methods") : AnswersListed method messages := by
  refine ⟨h.1, iff_of_false ?_ fun hnot => hnot hmethod⟩
  rintro ⟨e, he, hcode⟩
  exact h.2 e he hcode

theorem answersListed_notFound {method : String} (id : Value) (message : String)
    (hmethod : method ∉ advertised "methods") :
    AnswersListed method [errorResponse id methodNotFound message none] := by
  refine ⟨fun m hm => ?_, iff_of_true ⟨_, List.mem_singleton.2 rfl, rfl⟩ hmethod⟩
  obtain rfl := List.mem_singleton.1 hm
  exact ordinary_response _

/-- The methods that are listed are carried out, and any other is not found. -/
theorem respond_answersListed (h : respond serde read s request = some (s', messages)) :
    AnswersListed request.method messages := by
  unfold respond at h
  dsimp only at h
  split_ifs at h with hinit hget hrefresh hsub hunsub hmulti
  · obtain ⟨rfl, rfl⟩ := Prod.mk.inj (Option.some.inj h)
    exact (carried_success _ _).answersListed (by simp [advertised_methods, hinit])
  · exact (respondGetSnapshot_carried h).answersListed (by simp [advertised_methods, hget])
  · exact (respondRefresh_carried h).answersListed (by simp [advertised_methods, hrefresh])
  · exact (respondSubscribe_carried h).answersListed (by simp [advertised_methods, hsub])
  · obtain ⟨rfl, rfl⟩ := Prod.mk.inj (Option.some.inj h)
    exact (carried_success _ _).answersListed (by simp [advertised_methods, hunsub])
  · obtain ⟨rfl, rfl⟩ := Prod.mk.inj (Option.some.inj h)
    refine answersListed_notFound _ _ ?_
    simp [advertised_methods, hinit, hget, hrefresh, hsub, hunsub]
  · obtain ⟨rfl, rfl⟩ := Prod.mk.inj (Option.some.inj h)
    refine answersListed_notFound _ _ ?_
    simp [advertised_methods, hinit, hget, hrefresh, hsub, hunsub]

/-- Nothing but responses and listed notifications is sent for a line. -/
theorem handleRequest_ordinary (h : handleRequest serde read s line = some (s', messages)) :
    ∀ m ∈ messages, m.Ordinary := by
  unfold handleRequest at h
  cases hparse : parseRequest serde line with
  | error rejected =>
      rw [hparse] at h
      obtain ⟨rfl, rfl⟩ := Prod.mk.inj (Option.some.inj h)
      obtain ⟨id, code, message, data, rfl⟩ := exists_error_of_parseRequest hparse
      intro m hm
      obtain rfl := List.mem_singleton.1 hm
      exact ordinary_response _
  | ok parsed =>
      obtain ⟨request, isNotification⟩ := parsed
      rw [hparse] at h
      obtain ⟨⟨t, sent⟩, hrespond, hm⟩ := Option.bind_eq_some_iff.1 h
      obtain ⟨rfl, rfl⟩ := Prod.mk.inj (Option.some.inj hm)
      have hall := (respond_answersListed hrespond).1
      intro m hm
      unfold responseMessages at hm
      split at hm
      · exact hall m (List.mem_of_mem_filter hm)
      · exact hall m hm

/-- A request with an id is answered as the list of the methods says. -/
theorem handleRequest_answersListed (hparse : parseRequest serde line = .ok (request, false))
    (h : handleRequest serde read s line = some (s', messages)) :
    AnswersListed request.method messages := by
  unfold handleRequest at h
  rw [hparse] at h
  obtain ⟨⟨t, sent⟩, hrespond, hm⟩ := Option.bind_eq_some_iff.1 h
  obtain ⟨rfl, rfl⟩ := Prod.mk.inj (Option.some.inj hm)
  exact respond_answersListed hrespond

/-- An automatic update sends listed notifications. -/
theorem snapshotUpdateMessages_notifies {snapshot : RepositorySnapshot}
    (h : snapshotUpdateMessages s snapshot = some (s', messages)) :
    ∀ m ∈ messages, m.isNotification = true ∧ m.Ordinary := by
  unfold snapshotUpdateMessages at h
  split at h
  · obtain ⟨m, hm, hrest⟩ := Option.bind_eq_some_iff.1 h
    obtain ⟨rfl, rfl⟩ := Prod.mk.inj (Option.some.inj hrest)
    intro m' hm'
    obtain rfl := List.mem_singleton.1 hm'
    exact ⟨snapshotNotification_isNotification hm, snapshotNotification_ordinary hm⟩
  · split at h
    · obtain ⟨rfl, rfl⟩ := Prod.mk.inj (Option.some.inj h)
      intro m hm
      cases hm
    · obtain ⟨v, -, hrest⟩ := Option.bind_eq_some_iff.1 h
      obtain ⟨rfl, rfl⟩ := Prod.mk.inj (Option.some.inj hrest)
      intro m hm
      obtain rfl := List.mem_singleton.1 hm
      exact ⟨rfl, ordinary_delta v⟩

end

/-! ### Sessions -/

/-- The line of a turn. -/
def ServeLabel.line? (l : ServeLabel) : Option String :=
  match l.input with
  | .line text _ => some text
  | _ => none

/-- A session: the worker takes turns, and in the last one it stops and sends what is left. -/
def Session (serde : SerdeJson) (repo : StdPath.PathBuf) (labels : List ServeLabel)
    (last : List ServerMessage) : Prop :=
  ∃ s, Lts.Run (TurnStep serde) (.new repo) labels s ∧
    ∃ input, serveTurn serde s input = some (.ends last)

/-- What is sent in a session. -/
def transcript (labels : List ServeLabel) (last : List ServerMessage) : List ServerMessage :=
  labels.flatMap ServeLabel.messages ++ last

section

variable {serde : SerdeJson} {s s' : ServeState} {l : ServeLabel}

/-- What a turn that comes back sends: for a line the response it is owed, and otherwise
notifications only. -/
theorem TurnStep.responseIds (h : TurnStep serde s l s') :
    Gitseer.responseIds l.messages = (l.line?.bind (owedId serde)).toList ∧
      ∀ m ∈ l.messages, m.Ordinary := by
  obtain ⟨input, spawned, messages⟩ := l
  cases serveTurn_sends h with
  | line hreq => exact ⟨handleRequest_responseIds hreq, handleRequest_ordinary hreq⟩
  | update hline hdiscover hsubscribed hupdate =>
      obtain ⟨refresh, -, hmessages⟩ := Result.bind_eq_ok.1 hupdate
      have hnotifies := snapshotUpdateMessages_notifies (Except.ok.inj hmessages)
      refine ⟨?_, fun m hm => (hnotifies m hm).2⟩
      rw [show Gitseer.responseIds messages = [] from
        responseIds_of_notifications fun m hm => (hnotifies m hm).1]
      cases input with
      | line text read => cases hline
      | _ => rfl
  | nothing hline =>
      refine ⟨?_, fun m hm => by cases hm⟩
      cases input with
      | line text read => cases hline
      | _ => rfl

/-- What is sent in the last turn is no response, and at most one message. -/
theorem Farewell.notifies {last : List ServerMessage} (h : Farewell last) :
    Gitseer.responseIds last = [] ∧ (∀ m ∈ last, m.Advertised) ∧ last.length ≤ 1 := by
  rcases h with rfl | ⟨reason, rfl⟩
  · exact ⟨rfl, (fun m hm => by cases hm), Nat.zero_le _⟩
  · refine ⟨rfl, fun m hm => ?_, le_rfl⟩
    obtain rfl := List.mem_singleton.1 hm
    change "gitseer/goodbye" ∈ advertised "notifications"
    decide

end

section

variable {serde : SerdeJson} {repo : StdPath.PathBuf} {labels : List ServeLabel}
  {last : List ServerMessage} {s₀ s : ServeState}

/-- The responses of a run are those its lines are owed, in order. -/
theorem run_responseIds (h : Lts.Run (TurnStep serde) s₀ labels s) :
    responseIds (labels.flatMap ServeLabel.messages) =
        (labels.filterMap ServeLabel.line?).filterMap (owedId serde) ∧
      ∀ m ∈ labels.flatMap ServeLabel.messages, m.Ordinary := by
  induction h with
  | nil => exact ⟨rfl, fun m hm => by cases hm⟩
  | @snoc labels s l s' _ hstep ih =>
      obtain ⟨hids, hordinary⟩ := ih
      obtain ⟨hown, hownOrdinary⟩ := hstep.responseIds
      rw [List.flatMap_append, List.flatMap_singleton]
      constructor
      · rw [responseIds, List.filterMap_append, List.filterMap_append, List.filterMap_append]
        refine congrArg₂ (· ++ ·) hids (hown.trans ?_)
        cases hline : l.line? with
        | none => simp [hline]
        | some text => cases howed : owedId serde text <;> simp [hline, howed]
      · intro m hm
        rcases List.mem_append.1 hm with hm | hm
        · exact hordinary m hm
        · exact hownOrdinary m hm

/-- The responses of a session are those that its lines are owed, in the order of the lines, and
nothing is sent after a goodbye. -/
theorem answers_in_order (h : Session serde repo labels last) :
    responseIds (transcript labels last) =
        (labels.filterMap ServeLabel.line?).filterMap (owedId serde) ∧
      ∀ before m after, transcript labels last = before ++ m :: after → m.isGoodbye = true →
        after = [] := by
  obtain ⟨s, hrun, input, hends⟩ := h
  obtain ⟨hids, hordinary⟩ := run_responseIds hrun
  obtain ⟨hnone, -, hlength⟩ := (serveTurn_ends hends).notifies
  constructor
  · rw [transcript, responseIds, List.filterMap_append]
    rw [responseIds] at hids hnone
    rw [hids, hnone, List.append_nil]
  · intro before m after hsplit hgoodbye
    rcases List.append_eq_append_iff.1 hsplit with ⟨between, rfl, hlast⟩ | ⟨between, hturns, hm⟩
    · -- the goodbye is in the last turn, which sends one message at most
      rw [hlast, List.length_append, List.length_cons] at hlength
      exact List.eq_nil_of_length_eq_zero (by omega)
    · cases between with
      | nil =>
          rw [← List.nil_append last, ← hm, List.length_cons] at hlength
          exact List.eq_nil_of_length_eq_zero (by omega)
      | cons m' between =>
          obtain ⟨rfl, -⟩ := List.cons.inj hm
          have hmem : m ∈ labels.flatMap ServeLabel.messages := by
            rw [hturns]
            simp
          rw [(hordinary m hmem).2] at hgoodbye
          cases hgoodbye

/-- The capabilities list the notifications that are sent in a session, and a request with an id is
answered by "method not found" exactly when they do not list its method. -/
theorem capabilities_truthful (h : Session serde repo labels last) :
    (∀ m ∈ transcript labels last, m.Advertised) ∧
      ∀ l ∈ labels, ∀ text request, l.line? = some text →
        parseRequest serde text = .ok (request, false) →
        ((∃ e ∈ errors l.messages, e.code = methodNotFound) ↔
          request.method ∉ advertised "methods") := by
  obtain ⟨s, hrun, input, hends⟩ := h
  constructor
  · intro m hm
    rcases List.mem_append.1 hm with hm | hm
    · exact ((run_responseIds hrun).2 m hm).1
    · exact (serveTurn_ends hends).notifies.2.1 m hm
  · intro l hl text request hline hparse
    obtain ⟨-, t, t', -, -, -, hstep, -⟩ := hrun.step_of_mem hl
    obtain ⟨input, spawned, messages⟩ := l
    cases serveTurn_sends hstep with
    | line hreq =>
        obtain rfl := Option.some.inj hline
        exact (handleRequest_answersListed hparse hreq).2
    | update hnot =>
        cases input with
        | line text read => cases hnot
        | _ => cases hline
    | nothing hnot =>
        cases input with
        | line text read => cases hnot
        | _ => cases hline

end

/-- A line with a method that the worker does not have. -/
def openLine : String :=
  "\x7b\"jsonrpc\":\"2.0\",\"id\":2,\"method\":\"OpenRepository\"\x7d"

def openJson : SerdeJson := knownLines [
  (openLine, .object [("jsonrpc", .string "2.0"), ("id", .number (.int 2)),
    ("method", .string "OpenRepository")])]

/-- The client sends such a line and an empty one, and closes its end. -/
theorem open_session : ∃ labels last, Session openJson repoRoot labels last ∧
    labels.filterMap ServeLabel.line? = [openLine, ""] ∧
    ∃ l ∈ labels, l.line? = some openLine := by
  obtain ⟨answered, hopen⟩ : ∃ messages, handleRequest openJson readPlain (.new repoRoot) openLine =
      some (.new repoRoot, messages) := exists_messages (by decide)
  obtain ⟨rejected, hempty⟩ : ∃ messages, handleRequest openJson readPlain (.new repoRoot) "" =
      some (.new repoRoot, messages) := exists_messages (by decide)
  have hfirst : TurnStep openJson (.new repoRoot) ⟨.line openLine readPlain, false, answered⟩
      (.new repoRoot) := by
    change some (Turn.line _ _ _ _ _) = _
    simp only [Turn.line, ServeState.new, hopen]
    rfl
  have hsecond : TurnStep openJson (.new repoRoot) ⟨.line "" readPlain, false, rejected⟩
      (.new repoRoot) := by
    change some (Turn.line _ _ _ _ _) = _
    simp only [Turn.line, ServeState.new, hempty]
    rfl
  exact ⟨_, _, ⟨_, (Lts.Run.single hfirst).snoc hsecond, .stdinClosed, rfl⟩, rfl,
    _, List.mem_cons_self, rfl⟩

/-- The two lines are answered under their ids. -/
theorem answers_in_order_open : ∃ labels last, Session openJson repoRoot labels last ∧
    responseIds (transcript labels last) = [.number (.int 2), .null] := by
  obtain ⟨labels, last, hsession, hlines, -⟩ := open_session
  refine ⟨labels, last, hsession, ?_⟩
  rw [(answers_in_order hsession).1, hlines]
  rfl

/-- The method is not found, as the capabilities say. -/
theorem capabilities_truthful_open : ∃ labels last, Session openJson repoRoot labels last ∧
    ∃ l ∈ labels, ∃ e ∈ errors l.messages, e.code = methodNotFound := by
  obtain ⟨labels, last, hsession, -, l, hl, hline⟩ := open_session
  refine ⟨labels, last, hsession, l, hl, ?_⟩
  refine ((capabilities_truthful hsession).2 l hl openLine
    ⟨"2.0", "OpenRepository", none, some (.number (.int 2))⟩ hline ?_).2 ?_
  · rfl
  · decide

end Gitseer
