/-
**The envelope of the answers.**

Every line gets an answer of a fixed shape.  A line that is no request is rejected by one response;
a request with an id is answered by one response to that id, with a result or an error, and then
notifications only; a request without id gets no response, and is carried out like the same request
with an id.  A response with an error leaves the state as it was.

One thing breaks this.  The answer to a request that has the repository read is built from the
snapshot, and a snapshot with a path that is not UTF-8 cannot be written: the program stops instead
of answering.

Main definitions:

* `ValidRequest` — the objects that are requests;
* `Answered` — a response to an id and notifications, for a step of the state;
* `EnvelopeLaw` — the shape of what a line is answered by;
* `ReadsUtf8` — the snapshot a line has read, if any, has UTF-8 paths only.

Main results:

* `parseRequestObject_eq_ok_iff`, `parseRequestObject_eq_error` — which objects are requests;
* `respond_answered`, `respond_eq_none_iff`, `respond_anonymous` — the answer to a request;
* `handleRequest_isSome_iff` — when a line is answered at all;
* `envelope_law_iff` — a line is answered by the law exactly when it reads UTF-8 paths only.
-/

import Gitseer.Protocol.Encodable
import Gitseer.Protocol.Runs

set_option relaxedAutoImplicit false
set_option autoImplicit false

open StdPath (PathBuf)
open Json (Value)

namespace Gitseer

/-! ### Requests -/

/-- The object is a JSON-RPC request: each of its four fields has the shape it must have. -/
structure ValidRequest (o : Json.Object) : Prop where
  jsonrpc : o.lookup "jsonrpc" = some (.string jsonrpcVersion)
  method : ∃ m, o.lookup "method" = some (.string m)
  id : ∀ id ∈ o.lookup "id", validRequestId id = true
  params : ∀ params ∈ o.lookup "params",
    (params.isNull || params.isObject || params.isArray) = true

/-- The id of a request when it is a string, a number or `null`, and `null` in any other case. -/
def requestId (o : Json.Object) : Value := ((o.lookup "id").filter validRequestId).getD .null

theorem responseId_eq (o : Json.Object) : responseId o = requestId o := by
  unfold responseId requestId
  cases o.lookup "id" with
  | none => rfl
  | some id => cases h : validRequestId id <;> simp [Option.filter, h]

theorem requestId_of_invalid {o : Json.Object} {id : Value} (h : o.lookup "id" = some id)
    (hid : validRequestId id = false) : requestId o = .null := by
  simp [requestId, h, Option.filter, hid]

theorem asStr_eq_some {v : Value} {s : String} : v.asStr = some s ↔ v = .string s := by
  cases v <;> simp [Value.asStr]

theorem isString_iff {v : Value} : v.isString = true ↔ ∃ s, v = .string s := by
  cases v <;> simp [Value.isString]

/-- A field has the checked shape. -/
theorem any_not_iff {o : Option Value} {p : Value → Bool} :
    ¬ o.any (fun v => !p v) = true ↔ ∀ v ∈ o, p v = true := by
  cases o <;> simp

section

variable {serde : SerdeJson} {o : Json.Object}

/-- The four checks of a request object. -/
theorem parseRequestObject_eq_ok {request : JsonRpcRequest} :
    parseRequestObject serde o = .ok request ↔
      (o.lookup "jsonrpc").bind Value.asStr = some jsonrpcVersion ∧
      (o.lookup "method").any Value.isString = true ∧
      (∀ id ∈ o.lookup "id", validRequestId id = true) ∧
      (∀ params ∈ o.lookup "params",
        (params.isNull || params.isObject || params.isArray) = true) ∧
      JsonRpcRequest.fromObject o = some request := by
  unfold parseRequestObject
  rw [Result.ite_error_eq_ok, Result.ite_error_eq_ok, Result.ite_error_eq_ok,
    Result.ite_error_eq_ok, not_not, Bool.not_eq_true', Bool.not_eq_false, any_not_iff]
  simp only [← Bool.not_or, any_not_iff]
  cases JsonRpcRequest.fromObject o <;> simp

/-- Nothing but the shape of its four fields decides whether an object is taken as a request. -/
theorem parseRequestObject_eq_ok_iff {request : JsonRpcRequest} :
    parseRequestObject serde o = .ok request ↔
      ValidRequest o ∧ JsonRpcRequest.fromObject o = some request := by
  rw [parseRequestObject_eq_ok]
  constructor
  · rintro ⟨hjsonrpc, hmethod, hid, hparams, hfrom⟩
    obtain ⟨v, hv, hversion⟩ := Option.bind_eq_some_iff.1 hjsonrpc
    obtain ⟨m, hm, hstring⟩ := (Option.any_eq_true _ _).1 hmethod
    obtain ⟨method, rfl⟩ := isString_iff.1 hstring
    rw [asStr_eq_some.1 hversion] at hv
    exact ⟨⟨hv, ⟨method, hm⟩, hid, hparams⟩, hfrom⟩
  · rintro ⟨hvalid, hfrom⟩
    obtain ⟨method, hmethod⟩ := hvalid.method
    exact ⟨by simp [hvalid.jsonrpc, Value.asStr], by simp [hmethod, Value.isString],
      hvalid.id, hvalid.params, hfrom⟩

/-- The fields of a request object are read. -/
theorem ValidRequest.fromObject (h : ValidRequest o) :
    ∃ method, JsonRpcRequest.fromObject o = some ⟨jsonrpcVersion, method,
      optionalValue (o.lookup "params"), optionalValue (o.lookup "id")⟩ := by
  obtain ⟨method, hmethod⟩ := h.method
  exact ⟨method, by simp [JsonRpcRequest.fromObject, h.jsonrpc, hmethod, Value.asStr]⟩

/-- Any other object is rejected, under the id it has. -/
theorem parseRequestObject_eq_error (h : ¬ ValidRequest o) :
    ∃ detail, parseRequestObject serde o =
      .error (invalidRequestResponse (requestId o) detail) := by
  cases hparse : parseRequestObject serde o with
  | ok request => exact absurd (parseRequestObject_eq_ok_iff.1 hparse).1 h
  | error messages =>
      unfold parseRequestObject at hparse
      rw [responseId_eq] at hparse
      split_ifs at hparse with hjsonrpc hmethod hid hparams
      · exact ⟨_, hparse.symm⟩
      · exact ⟨_, hparse.symm⟩
      · -- an invalid id is answered under `null`
        obtain ⟨id, hmem, hinvalid⟩ := (Option.any_eq_true _ _).1 hid
        rw [requestId_of_invalid hmem (by simpa using hinvalid)]
        exact ⟨_, hparse.symm⟩
      · exact ⟨_, hparse.symm⟩
      · split at hparse
        · cases hparse
        · exact ⟨_, hparse.symm⟩

/-- Without its id a request is one still, and asks for the same. -/
theorem ValidRequest.erase_id (h : ValidRequest o) : ValidRequest (o.erase "id") := by
  refine ⟨?_, ?_, by simp, ?_⟩
  · rw [Json.lookup_erase_of_ne (by decide)]
    exact h.jsonrpc
  · rw [Json.lookup_erase_of_ne (by decide)]
    exact h.method
  · rw [Json.lookup_erase_of_ne (by decide)]
    exact h.params

theorem fromObject_erase_id {request : JsonRpcRequest}
    (h : JsonRpcRequest.fromObject o = some request) :
    JsonRpcRequest.fromObject (o.erase "id") = some { request with id := none } := by
  unfold JsonRpcRequest.fromObject at h ⊢
  rw [Json.lookup_erase_of_ne (by decide), Json.lookup_erase_of_ne (by decide),
    Json.lookup_erase_of_ne (by decide), Json.lookup_erase_self]
  simp only [Option.bind_eq_bind, Option.bind_eq_some_iff, Option.some.injEq] at h ⊢
  obtain ⟨jsonrpc, hjsonrpc, method, hmethod, rfl⟩ := h
  exact ⟨jsonrpc, hjsonrpc, method, hmethod, rfl⟩

/-- A request object is a request, under the flag that tells whether it has an id. -/
theorem parseRequest_of_valid {line : String} (hline : serde.fromStr line = .ok (.object o))
    (h : ValidRequest o) : ∃ request, JsonRpcRequest.fromObject o = some request ∧
      parseRequest serde line = .ok (request, (o.lookup "id").isNone) := by
  obtain ⟨method, hfrom⟩ := h.fromObject
  have hobject := (@parseRequestObject_eq_ok_iff serde _ _).2 ⟨h, hfrom⟩
  refine ⟨_, hfrom, ?_⟩
  rw [parseRequest, parseLine, hline]
  simp [Value.asObject, hobject]

/-- A line that is no request is answered by an error. -/
theorem parseRequest_of_invalid {line : String} (hline : serde.fromStr line = .ok (.object o))
    (h : ¬ ValidRequest o) : ∃ detail, parseRequest serde line =
      .error (invalidRequestResponse (requestId o) detail) := by
  obtain ⟨detail, hobject⟩ := @parseRequestObject_eq_error serde _ h
  refine ⟨detail, ?_⟩
  rw [parseRequest, parseLine, hline]
  simp [Value.asObject, hobject]

end

/-! ### The answer to a request -/

/-- The messages are one response to the id, with a result or an error, and then notifications
only; a response with an error leaves the state as it was. -/
def Answered (id : Value) (s s' : ProcessState) (messages : List ServerMessage) : Prop :=
  ∃ response rest, messages = .response response :: rest ∧ response.id = id ∧
    response.result.isSome ≠ response.error.isSome ∧
    (response.error.isSome = true → s' = s) ∧ ∀ m ∈ rest, m.isNotification = true

theorem answered_success (id : Value) (s s' : ProcessState) (result : Value)
    {rest : List ServerMessage} (hrest : ∀ m ∈ rest, m.isNotification = true) :
    Answered id s s' (successResponse id result :: rest) :=
  ⟨_, rest, rfl, rfl, by simp, by simp, hrest⟩

theorem answered_error (id : Value) (s : ProcessState) (code : ℤ) (message : String)
    (data : Option String) : Answered id s s [errorResponse id code message data] :=
  ⟨_, [], rfl, rfl, by simp, by simp, by simp⟩

/-- The options with which a request has the repository read. -/
def readOptions (serde : SerdeJson) (request : JsonRpcRequest) : Option SnapshotOptions :=
  if request.method = "gitseer/getSnapshot" then (snapshotOptions serde request.params).toOption
  else baselineOptions serde request

/-- What is left of the answer for a client that did not ask for one. -/
def anonymous (r : ProcessState × List ServerMessage) : ProcessState × List ServerMessage :=
  (r.1, r.2.filter ServerMessage.isNotification)

section

variable {serde : SerdeJson} {read : SnapshotRead} {s s' : ProcessState}
  {messages : List ServerMessage} {request : JsonRpcRequest} {id : Value}

theorem snapshotNotification_isNotification {params : SnapshotNotificationParams}
    {message : ServerMessage} (h : snapshotNotification params = some message) :
    message.isNotification = true := (publication_snapshotNotification h).2

theorem snapshotNotification_eq_none_iff {params : SnapshotNotificationParams} :
    snapshotNotification params = none ↔ ¬ params.snapshot.Utf8Paths := by
  rw [← Wire.encodes_snapshotNotificationParams]
  exact Json.Codec.bind_enc_eq_none_iff

theorem respondGetSnapshot_answered
    (h : respondGetSnapshot serde read s request id = some (s', messages)) :
    Answered id s s' messages := by
  unfold respondGetSnapshot at h
  split at h
  · obtain ⟨rfl, rfl⟩ := Prod.mk.inj (Option.some.inj h)
    exact answered_error ..
  · split at h
    · obtain ⟨rfl, rfl⟩ := Prod.mk.inj (Option.some.inj h)
      exact answered_error ..
    · obtain ⟨v, -, hm⟩ := Option.bind_eq_some_iff.1 h
      obtain ⟨rfl, rfl⟩ := Prod.mk.inj (Option.some.inj hm)
      exact answered_success _ _ _ _ (by simp)

theorem respondRefresh_answered
    (h : respondRefresh serde read s request id = some (s', messages)) :
    Answered id s s' messages := by
  unfold respondRefresh at h
  split at h
  · obtain ⟨rfl, rfl⟩ := Prod.mk.inj (Option.some.inj h)
    exact answered_error ..
  · split at h
    · obtain ⟨rfl, rfl⟩ := Prod.mk.inj (Option.some.inj h)
      exact answered_error ..
    · obtain ⟨v, -, hm⟩ := Option.bind_eq_some_iff.1 h
      obtain ⟨rfl, rfl⟩ := Prod.mk.inj (Option.some.inj hm)
      exact answered_success _ _ _ _ (by simp)

theorem respondSubscribe_answered (h : respondSubscribe read s id = some (s', messages)) :
    Answered id s s' messages := by
  unfold respondSubscribe at h
  dsimp only at h
  split at h
  · obtain ⟨rfl, rfl⟩ := Prod.mk.inj (Option.some.inj h)
    exact answered_success _ _ _ _ (by simp)
  · obtain ⟨m, hm, hrest⟩ := Option.bind_eq_some_iff.1 h
    obtain ⟨rfl, rfl⟩ := Prod.mk.inj (Option.some.inj hrest)
    refine answered_success _ _ _ _ ?_
    simpa using snapshotNotification_isNotification hm

/-- Every request is answered under its id. -/
theorem respond_answered (h : respond serde read s request = some (s', messages)) :
    Answered (request.id.getD .null) s s' messages := by
  unfold respond at h
  dsimp only at h
  split_ifs at h with hinit hget hrefresh hsub hunsub hmulti
  · obtain ⟨rfl, rfl⟩ := Prod.mk.inj (Option.some.inj h)
    exact answered_success _ _ _ _ (by simp)
  · exact respondGetSnapshot_answered h
  · exact respondRefresh_answered h
  · exact respondSubscribe_answered h
  · obtain ⟨rfl, rfl⟩ := Prod.mk.inj (Option.some.inj h)
    exact answered_success _ _ _ _ (by simp)
  · obtain ⟨rfl, rfl⟩ := Prod.mk.inj (Option.some.inj h)
    exact answered_error ..
  · obtain ⟨rfl, rfl⟩ := Prod.mk.inj (Option.some.inj h)
    exact answered_error ..

/-- The snapshot that was read with the options cannot be written. -/
def Unwritable (read : SnapshotRead) (repo : PathBuf) (options : Option SnapshotOptions) : Prop :=
  ∃ opts ∈ options, ∃ snapshot, read repo opts = .ok snapshot ∧ ¬ snapshot.Utf8Paths

theorem bind_some_eq_none_iff {α β : Type} {o : Option α} {f : α → β} :
    (o >>= fun a => some (f a)) = none ↔ o = none := by
  cases o <;> simp

theorem unwritable_some_iff {repo : PathBuf} {options : SnapshotOptions}
    {snapshot : RepositorySnapshot} (h : read repo options = .ok snapshot) :
    Unwritable read repo (some options) ↔ ¬ snapshot.Utf8Paths := by
  simp [Unwritable, h]

theorem not_unwritable_of_error {repo : PathBuf} {options : SnapshotOptions}
    {e : SnapshotError} (h : read repo options = .error e) :
    ¬ Unwritable read repo (some options) := by
  simp [Unwritable, h]

theorem not_unwritable_none {repo : PathBuf} : ¬ Unwritable read repo none := by
  simp [Unwritable]

theorem respondGetSnapshot_eq_none_iff :
    respondGetSnapshot serde read s request id = none ↔
      Unwritable read s.repo (snapshotOptions serde request.params).toOption := by
  unfold respondGetSnapshot
  cases snapshotOptions serde request.params with
  | error e => exact iff_of_false (by simp) not_unwritable_none
  | ok options =>
      cases hread : read s.repo options with
      | error e =>
          simp only [hread]
          exact iff_of_false (by simp) (not_unwritable_of_error hread)
      | ok snapshot =>
          simp only [hread]
          refine Json.Codec.bind_enc_eq_none_iff.trans ?_
          rw [Wire.encodes_repositorySnapshot]
          exact (unwritable_some_iff hread).symm

theorem respondRefresh_eq_none_iff :
    respondRefresh serde read s request id = none ↔
      Unwritable read s.repo (snapshotOptions serde request.params).toOption := by
  unfold respondRefresh
  cases snapshotOptions serde request.params with
  | error e => exact iff_of_false (by simp) not_unwritable_none
  | ok options =>
      cases hread : read s.repo options with
      | error e =>
          simp only [hread]
          exact iff_of_false (by simp) (not_unwritable_of_error hread)
      | ok snapshot =>
          simp only [hread]
          refine Json.Codec.bind_enc_eq_none_iff.trans ?_
          rw [Wire.encodes_snapshotNotificationParams]
          exact (unwritable_some_iff hread).symm

theorem respondSubscribe_eq_none_iff :
    respondSubscribe read s id = none ↔ Unwritable read s.repo (some {}) := by
  unfold respondSubscribe
  dsimp only
  cases hread : read s.repo {} with
  | error e => exact iff_of_false (by simp) (not_unwritable_of_error hread)
  | ok snapshot =>
      simp only [bind_some_eq_none_iff, snapshotNotification_eq_none_iff]
      exact (unwritable_some_iff hread).symm

/-- The program stops at a request exactly when the snapshot it reads cannot be written. -/
theorem respond_eq_none_iff :
    respond serde read s request = none ↔ Unwritable read s.repo (readOptions serde request) := by
  by_cases hget : request.method = "gitseer/getSnapshot"
  · simp only [respond, readOptions, hget, if_true]
    exact respondGetSnapshot_eq_none_iff
  by_cases hrefresh : request.method = "gitseer/refresh"
  · simp only [respond, readOptions, baselineOptions, hrefresh, if_true]
    exact respondRefresh_eq_none_iff
  by_cases hsub : request.method = "gitseer/subscribe"
  · simp only [respond, readOptions, baselineOptions, hsub, if_true]
    exact respondSubscribe_eq_none_iff
  -- no other method reads the repository
  simp only [respond, readOptions, baselineOptions, hget, hrefresh, hsub, if_false]
  refine iff_of_false ?_ not_unwritable_none
  split_ifs <;> simp

theorem respondGetSnapshot_anonymous (id id' : Value) :
    (respondGetSnapshot serde read s request id).map anonymous =
      (respondGetSnapshot serde read s request id').map anonymous := by
  unfold respondGetSnapshot
  split
  · rfl
  · split
    · rfl
    · next snapshot _ => cases Wire.repositorySnapshotCodec.enc snapshot <;> rfl

theorem respondRefresh_anonymous (id id' : Value) :
    (respondRefresh serde read s request id).map anonymous =
      (respondRefresh serde read s request id').map anonymous := by
  unfold respondRefresh
  split
  · rfl
  · split
    · rfl
    · next snapshot _ =>
        dsimp only
        cases Wire.snapshotNotificationParamsCodec.enc (s.recordRefresh snapshot).2 <;> rfl

theorem respondSubscribe_anonymous (id id' : Value) :
    (respondSubscribe read s id).map anonymous = (respondSubscribe read s id').map anonymous := by
  unfold respondSubscribe
  dsimp only
  split
  · rfl
  · next snapshot _ =>
      cases snapshotNotification
        ({ s with subscribed := true }.recordBaseline snapshot).2 <;> rfl

/-- The id of a request shows in the response only. -/
theorem respond_anonymous (serde : SerdeJson) (read : SnapshotRead) (s : ProcessState)
    (request : JsonRpcRequest) (id : Option Value) :
    (respond serde read s { request with id := id }).map anonymous =
      (respond serde read s request).map anonymous := by
  unfold respond
  dsimp only
  split_ifs
  · rfl
  · exact respondGetSnapshot_anonymous _ _
  · exact respondRefresh_anonymous _ _
  · exact respondSubscribe_anonymous _ _
  · rfl
  · rfl
  · rfl

end

/-! ### The law -/

/-- The line is answered by one error under the id, and changes nothing. -/
def Rejected (serde : SerdeJson) (read : SnapshotRead) (s : ProcessState) (line : String)
    (code : ℤ) (id : Value) : Prop :=
  ∃ message data,
    handleRequest serde read s line = some (s, [errorResponse id code message data])

/-- The shape of what a line is answered by. -/
structure EnvelopeLaw (serde : SerdeJson) (read : SnapshotRead) (s : ProcessState)
    (line : String) : Prop where
  /-- A text that is not JSON. -/
  notJson : ∀ text, serde.fromStr line = .error text →
    Rejected serde read s line parseError .null
  /-- A value that is not an object. -/
  notObject : ∀ v, serde.fromStr line = .ok v → v.isObject = false →
    Rejected serde read s line invalidRequest .null
  /-- An object with a field of the wrong shape. -/
  notRequest : ∀ o, serde.fromStr line = .ok (.object o) → ¬ ValidRequest o →
    Rejected serde read s line invalidRequest (requestId o)
  /-- A request with an id. -/
  answered : ∀ o id, serde.fromStr line = .ok (.object o) → ValidRequest o →
    o.lookup "id" = some id → ∃ s' messages,
      handleRequest serde read s line = some (s', messages) ∧ Answered id s s' messages
  /-- A request without id. -/
  silent : ∀ o, serde.fromStr line = .ok (.object o) → ValidRequest o →
    o.lookup "id" = none → ∃ s' messages,
      handleRequest serde read s line = some (s', messages) ∧
        ∀ m ∈ messages, m.isNotification = true
  /-- An error leaves the state as it was. -/
  failed : ∀ s' messages response, handleRequest serde read s line = some (s', messages) →
    .response response ∈ messages → response.error.isSome = true → s' = s
  /-- The id of a request shows in the response only. -/
  unidentified : ∀ (o : Json.Object) line', serde.fromStr line = .ok (.object o) → ValidRequest o →
    serde.fromStr line' = .ok (.object (o.erase "id")) →
      (handleRequest serde read s line').map anonymous =
        (handleRequest serde read s line).map anonymous

/-- The snapshot the line has read, if any, has UTF-8 paths only. -/
def ReadsUtf8 (serde : SerdeJson) (read : SnapshotRead) (repo : PathBuf) (line : String) : Prop :=
  ∀ request isNotification, parseRequest serde line = .ok (request, isNotification) →
    ∀ options ∈ readOptions serde request, ∀ snapshot,
      read repo options = .ok snapshot → snapshot.Utf8Paths

section

variable {serde : SerdeJson} {read : SnapshotRead} {s s' : ProcessState} {line : String}
  {messages : List ServerMessage} {o : Json.Object} {request : JsonRpcRequest}

/-- A line that holds a request is carried out. -/
theorem handleRequest_of_valid (hline : serde.fromStr line = .ok (.object o))
    (h : ValidRequest o) (hfrom : JsonRpcRequest.fromObject o = some request) :
    handleRequest serde read s line = (respond serde read s request).map fun r =>
      (r.1, responseMessages r.2 (o.lookup "id").isNone) := by
  obtain ⟨request', hfrom', hparse⟩ := parseRequest_of_valid hline h
  obtain rfl := Option.some.inj (hfrom.symm.trans hfrom')
  simp only [handleRequest, hparse]
  cases respond serde read s request <;> rfl

/-- What is parsed as a request is one. -/
theorem exists_valid_of_parseRequest {isNotification : Bool}
    (h : parseRequest serde line = .ok (request, isNotification)) :
    ∃ o, serde.fromStr line = .ok (.object o) ∧ ValidRequest o ∧
      JsonRpcRequest.fromObject o = some request ∧ isNotification = (o.lookup "id").isNone := by
  obtain ⟨o, ho, hrest⟩ := Result.bind_eq_ok.1 h
  obtain ⟨request', hrequest, hpair⟩ := Result.bind_eq_ok.1 hrest
  obtain ⟨rfl, rfl⟩ := Prod.mk.inj (Except.ok.inj hpair)
  obtain ⟨hvalid, hfrom⟩ := parseRequestObject_eq_ok_iff.1 hrequest
  refine ⟨o, ?_, hvalid, hfrom, rfl⟩
  unfold parseLine at ho
  split at ho
  · cases ho
  · next v hv =>
      split at ho
      · cases ho
      · next o' hobject =>
          obtain rfl := Except.ok.inj ho
          rw [hv]
          cases v <;> simp_all [Value.asObject]

/-- The id of the request object is the one the request is answered under. -/
theorem request_id_getD (hfrom : JsonRpcRequest.fromObject o = some request) :
    request.id.getD .null = (o.lookup "id").getD .null := by
  simp only [JsonRpcRequest.fromObject, Option.bind_eq_bind, Option.bind_eq_some_iff,
    Option.some.injEq] at hfrom
  obtain ⟨_, -, _, -, rfl⟩ := hfrom
  cases hid : o.lookup "id" with
  | none => rfl
  | some id =>
      by_cases hnull : id.isNull = true
      · simp [optionalValue, Option.filter, Value.isNull_iff.1 hnull, Value.isNull]
      · simp [optionalValue, Option.filter, hnull]

/-- The one response among the messages has the id, and leaves the state as it was when it is an
error. -/
theorem Answered.failed {id : Value} (h : Answered id s s' messages)
    {response : JsonRpcResponse} (hmem : .response response ∈ messages)
    (herror : response.error.isSome = true) : s' = s := by
  obtain ⟨response', rest, rfl, -, -, hkeeps, hrest⟩ := h
  rcases List.mem_cons.1 hmem with heq | hmem
  · obtain rfl := ServerMessage.response.inj heq
    exact hkeeps herror
  · cases hrest _ hmem

theorem Rejected.state {code : ℤ} {id : Value} (h : Rejected serde read s line code id)
    (hreq : handleRequest serde read s line = some (s', messages)) : s' = s := by
  obtain ⟨message, data, hrejected⟩ := h
  rw [hrejected] at hreq
  exact (Prod.mk.inj (Option.some.inj hreq)).1.symm

theorem rejected_of_notJson {text : String} (h : serde.fromStr line = .error text) :
    Rejected serde read s line parseError .null :=
  ⟨_, _, by rw [handleRequest, parseRequest, parseLine, h]; rfl⟩

theorem rejected_of_notObject {v : Value} (h : serde.fromStr line = .ok v)
    (hv : v.isObject = false) : Rejected serde read s line invalidRequest .null := by
  have hobject : v.asObject = none := by cases v <;> simp_all [Value.asObject, Value.isObject]
  exact ⟨_, _, by rw [handleRequest, parseRequest, parseLine, h]; simp [hobject]; rfl⟩

theorem rejected_of_notRequest (hline : serde.fromStr line = .ok (.object o))
    (h : ¬ ValidRequest o) : Rejected serde read s line invalidRequest (requestId o) := by
  obtain ⟨detail, hparse⟩ := parseRequest_of_invalid hline h
  exact ⟨_, _, by rw [handleRequest, hparse]; rfl⟩

theorem responseMessages_filter (messages : List ServerMessage) (isNotification : Bool) :
    (responseMessages messages isNotification).filter ServerMessage.isNotification =
      messages.filter ServerMessage.isNotification := by
  cases isNotification with
  | false => rfl
  | true => simp [responseMessages]

theorem handleRequest_anonymous (hline : serde.fromStr line = .ok (.object o))
    (h : ValidRequest o) (hfrom : JsonRpcRequest.fromObject o = some request) :
    (handleRequest serde read s line).map anonymous =
      (respond serde read s request).map anonymous := by
  rw [handleRequest_of_valid hline h hfrom, Option.map_map]
  congr 1
  funext r
  simp [anonymous, responseMessages_filter]

/-- Where the line reads UTF-8 paths only, a request in it is carried out to its end. -/
theorem exists_respond (hreads : ReadsUtf8 serde read s.repo line)
    (hline : serde.fromStr line = .ok (.object o)) (h : ValidRequest o) :
    ∃ request r, JsonRpcRequest.fromObject o = some request ∧
      respond serde read s request = some r := by
  obtain ⟨request, hfrom, hparse⟩ := parseRequest_of_valid hline h
  cases hrespond : respond serde read s request with
  | some r => exact ⟨request, r, hfrom, hrespond⟩
  | none =>
      obtain ⟨options, hoptions, snapshot, hread, hpaths⟩ := respond_eq_none_iff.1 hrespond
      exact absurd (hreads _ _ hparse options hoptions snapshot hread) hpaths

/-- A message of a request that was carried out belongs to its answer. -/
theorem exists_answered (hline : serde.fromStr line = .ok (.object o)) (h : ValidRequest o)
    (hreq : handleRequest serde read s line = some (s', messages)) :
    ∃ sent, Answered ((o.lookup "id").getD .null) s s' sent ∧
      messages = responseMessages sent (o.lookup "id").isNone := by
  obtain ⟨request, hfrom, -⟩ := parseRequest_of_valid hline h
  rw [handleRequest_of_valid hline h hfrom] at hreq
  obtain ⟨⟨t, sent⟩, hrespond, hr⟩ := Option.map_eq_some_iff.1 hreq
  obtain ⟨rfl, rfl⟩ := Prod.mk.inj hr
  have hanswered := respond_answered hrespond
  rw [request_id_getD hfrom] at hanswered
  exact ⟨sent, hanswered, rfl⟩

/-- A line that reads UTF-8 paths only is answered by the law. -/
theorem envelopeLaw_of_readsUtf8 (hreads : ReadsUtf8 serde read s.repo line) :
    EnvelopeLaw serde read s line where
  notJson text h := rejected_of_notJson h
  notObject v h hv := rejected_of_notObject h hv
  notRequest o hline h := rejected_of_notRequest hline h
  answered o id hline h hid := by
    obtain ⟨request, ⟨s', sent⟩, hfrom, hrespond⟩ := exists_respond hreads hline h
    have hreq : handleRequest serde read s line = some (s', sent) := by
      rw [handleRequest_of_valid hline h hfrom, hrespond, hid]
      rfl
    obtain ⟨sent', hanswered, hsent⟩ := exists_answered hline h hreq
    rw [hid] at hanswered hsent
    obtain rfl : sent = sent' := hsent
    exact ⟨s', sent, hreq, hanswered⟩
  silent o hline h hid := by
    obtain ⟨request, ⟨s', sent⟩, hfrom, hrespond⟩ := exists_respond hreads hline h
    refine ⟨s', sent.filter ServerMessage.isNotification, ?_, fun m hm => List.of_mem_filter hm⟩
    rw [handleRequest_of_valid hline h hfrom, hrespond, hid]
    rfl
  failed s' messages response hreq hmem herror := by
    cases hvalue : serde.fromStr line with
    | error text => exact (rejected_of_notJson hvalue).state hreq
    | ok v =>
        cases hobject : v.isObject with
        | false => exact (rejected_of_notObject hvalue hobject).state hreq
        | true =>
            obtain ⟨o, rfl⟩ : ∃ o, v = .object o := by
              cases v <;> simp_all [Value.isObject]
            by_cases h : ValidRequest o
            · obtain ⟨sent, hanswered, rfl⟩ := exists_answered hvalue h hreq
              refine hanswered.failed ?_ herror
              unfold responseMessages at hmem
              split at hmem
              · exact List.mem_of_mem_filter hmem
              · exact hmem
            · exact (rejected_of_notRequest hvalue h).state hreq
  unidentified o line' hline h hline' := by
    obtain ⟨request, hfrom, -⟩ := parseRequest_of_valid hline h
    rw [handleRequest_anonymous hline h hfrom,
      handleRequest_anonymous hline' h.erase_id (fromObject_erase_id hfrom), respond_anonymous]

/-- A line is answered exactly when the snapshot it reads, if any, has UTF-8 paths only. -/
theorem handleRequest_isSome_iff {serde : SerdeJson} {read : SnapshotRead} {s : ProcessState}
    {line : String} :
    (handleRequest serde read s line).isSome = true ↔ ReadsUtf8 serde read s.repo line := by
  cases hparse : parseRequest serde line with
  | error messages =>
      refine iff_of_true (by simp [handleRequest, hparse]) ?_
      intro request isNotification hok
      cases hparse.symm.trans hok
  | ok parsed =>
      obtain ⟨request, isNotification⟩ := parsed
      have hanswer : (handleRequest serde read s line).isSome = true ↔
          respond serde read s request ≠ none := by
        simp only [handleRequest, hparse]
        cases respond serde read s request <;> simp
      rw [hanswer, Ne, respond_eq_none_iff]
      constructor
      · intro hwritable request' isNotification' hok options hoptions snapshot hread
        obtain ⟨rfl, -⟩ := Prod.mk.inj (Except.ok.inj (hparse.symm.trans hok))
        by_contra hpaths
        exact hwritable ⟨options, hoptions, snapshot, hread, hpaths⟩
      · rintro hreads ⟨options, hoptions, snapshot, hread, hpaths⟩
        exact hpaths (hreads request isNotification hparse options hoptions snapshot hread)

/-- By the law every line is answered. -/
theorem EnvelopeLaw.isSome (hlaw : EnvelopeLaw serde read s line) :
    (handleRequest serde read s line).isSome = true := by
  cases hparse : parseRequest serde line with
  | error messages => simp [handleRequest, hparse]
  | ok parsed =>
      obtain ⟨o, hline, hvalid, -, -⟩ := exists_valid_of_parseRequest hparse
      cases hid : o.lookup "id" with
      | none =>
          obtain ⟨s', messages, hreq, -⟩ := hlaw.silent o hline hvalid hid
          exact Option.isSome_iff_exists.2 ⟨_, hreq⟩
      | some id =>
          obtain ⟨s', messages, hreq, -⟩ := hlaw.answered o id hline hvalid hid
          exact Option.isSome_iff_exists.2 ⟨_, hreq⟩

/-- A line is answered by the law exactly when the snapshot it has read, if any, has UTF-8 paths
only. -/
theorem envelope_law_iff (serde : SerdeJson) (read : SnapshotRead) (s : ProcessState)
    (line : String) :
    EnvelopeLaw serde read s line ↔ ReadsUtf8 serde read s.repo line :=
  ⟨fun hlaw => handleRequest_isSome_iff.1 hlaw.isSome, envelopeLaw_of_readsUtf8⟩

end

/-! ### A directory whose name is not UTF-8 -/

/-- A worktree root whose name is written in Latin-1. -/
def latinRoot : PathBuf := PathBuf.absolute [⟨[99, 97, 102, 233], by decide⟩]

/-- A repository there. -/
def latinRepository : Repository :=
  { plainRepository with
    workdir := some latinRoot
    path := latinRoot.child gitName
    commondir := latinRoot.child gitName }

def getSnapshotLine : String :=
  "\x7b\"jsonrpc\":\"2.0\",\"id\":1,\"method\":\"gitseer/getSnapshot\"\x7d"

def getSnapshotJson : SerdeJson := knownLines [
  (getSnapshotLine, .object [("jsonrpc", .string "2.0"), ("id", .number (.int 1)),
    ("method", .string "gitseer/getSnapshot")])]

/-- The program stops at the line instead of answering it. -/
theorem getSnapshot_stops :
    handleRequest getSnapshotJson (snapshotRepositoryWithOptions fun _ => .ok latinRepository)
      (ProcessState.new latinRoot) getSnapshotLine = none := by
  decide

/-- A request with an id that gets no response. -/
theorem envelope_law_broken :
    ¬ EnvelopeLaw getSnapshotJson (snapshotRepositoryWithOptions fun _ => .ok latinRepository)
      (ProcessState.new latinRoot) getSnapshotLine := by
  intro hlaw
  have hvalid : ValidRequest [("jsonrpc", .string "2.0"), ("id", .number (.int 1)),
      ("method", .string "gitseer/getSnapshot")] :=
    ⟨rfl, ⟨_, rfl⟩, by rintro id ⟨⟩; rfl, by rintro params ⟨⟩⟩
  obtain ⟨s', messages, hreq, -⟩ := hlaw.answered _ _ rfl hvalid rfl
  cases getSnapshot_stops.symm.trans hreq

end Gitseer
