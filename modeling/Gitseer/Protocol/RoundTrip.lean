/-
**What is sent is read back.**

The parameters of the two notifications have codecs, so they are read back where they can be
written at all: when their paths are UTF-8.  A message is a response or a notification, and the
JSON of either has no tag that tells which: a reader tries the response first, and takes the
notification when that fails.  It fails on a notification, because a response must have an id.

An absent result and one that is `null` are written differently, but read as the same.  No message
that is sent has a `null` there.

Between the two stands the JSON text, whose writer and reader are parameters.  They are asked to
give back values whose numbers are integers of 64 bits, and all that the program makes itself is of
that kind.  The id of a response is not: it is taken from the request as it is, and may be any
number.  By default a decimal number is read by dividing its rounded digits by a rounded power of
ten, which may give the neighbour of the double that was written, so a client that uses such a
number as an id may not find it in the response.

Main definitions:

* `ServerMessage.toJson`, `ServerMessage.fromJson` — writing and reading a message;
* `ServerMessage.reread` — the same through the JSON text;
* `LineMessage`, `UpdateMessage` — what the messages for a line and for an update are;
* `ServerMessage.ExactId` — the id, if it is a number, is an integer of 64 bits.

Main results:

* `handleRequest_messages`, `snapshotUpdateMessages_messages` — every message is one of these;
* `ServerMessage.fromJson_toJson` — a sendable message is read back from its JSON form;
* `snapshotPatch_sections` — absent, `null` and present sections of a patch differ;
* `wire_round_trip` — the parameters are read back from their text, and so are the messages that
  are sent, those with an inexact number as their id excepted.
-/

import Gitseer.Protocol.Envelope
import Gitseer.Protocol.Ranges
import Mathlib.Data.Rat.Floor

set_option relaxedAutoImplicit false
set_option autoImplicit false

open StdPath (PathBuf)
open Json (Value)

namespace Gitseer

/-! ### Messages -/

/-- A field that is left out when there is no value. -/
def optionalField (name : String) : Option Value → Json.Object
  | some v => [(name, v)]
  | none => []

/-- An optional value of a type that is never written as `null`, missing or not. -/
def readOptional {α : Type} (read : Value → Option α) : Option Value → Option (Option α)
  | none => some none
  | some v => if v.isNull then some none else (read v).map some

def ErrorObject.toJson (e : ErrorObject) : Value :=
  .object (("code", .number (.int e.code)) :: ("message", .string e.message) ::
    optionalField "data" (e.data.map Value.string))

def ErrorObject.fromJson (v : Value) : Option ErrorObject := do
  let o ← v.asObject
  let code ← (o.lookup "code").bind Json.Codec.i64.fromValue
  let message ← (o.lookup "message").bind Value.asStr
  let data ← readOptional Value.asStr (o.lookup "data")
  some ⟨code, message, data⟩

def JsonRpcResponse.toJson (r : JsonRpcResponse) : Value :=
  .object (("jsonrpc", .string r.jsonrpc) :: (optionalField "result" r.result ++
    (optionalField "error" (r.error.map ErrorObject.toJson) ++ [("id", r.id)])))

def JsonRpcResponse.fromJson (v : Value) : Option JsonRpcResponse := do
  let o ← v.asObject
  let jsonrpc ← (o.lookup "jsonrpc").bind Value.asStr
  let error ← readOptional ErrorObject.fromJson (o.lookup "error")
  let id ← o.lookup "id"
  some ⟨jsonrpc, optionalValue (o.lookup "result"), error, id⟩

def JsonRpcNotification.toJson (n : JsonRpcNotification) : Value :=
  .object (("jsonrpc", .string n.jsonrpc) :: ("method", .string n.method) ::
    optionalField "params" n.params)

def JsonRpcNotification.fromJson (v : Value) : Option JsonRpcNotification := do
  let o ← v.asObject
  let jsonrpc ← (o.lookup "jsonrpc").bind Value.asStr
  let method ← (o.lookup "method").bind Value.asStr
  some ⟨jsonrpc, method, optionalValue (o.lookup "params")⟩

/-- The JSON form of a message, without a tag. -/
def ServerMessage.toJson : ServerMessage → Value
  | .response r => r.toJson
  | .notification n => n.toJson

/-- Reading a message: the variants are tried in order. -/
def ServerMessage.fromJson (v : Value) : Option ServerMessage :=
  ((JsonRpcResponse.fromJson v).map ServerMessage.response).or
    ((JsonRpcNotification.fromJson v).map ServerMessage.notification)

/-- The message has no result and no parameters that are `null`, and the code of an error is in
range. -/
def ServerMessage.Sendable : ServerMessage → Prop
  | .response r => (∀ v ∈ r.result, v.isNull = false) ∧ ∀ e ∈ r.error, IsI64 e.code
  | .notification n => ∀ v ∈ n.params, v.isNull = false

theorem optionalValue_of_not_null {v : Option Value} (h : ∀ w ∈ v, w.isNull = false) :
    optionalValue v = v := by
  cases v with
  | none => rfl
  | some v => simp [optionalValue, Option.filter, h v rfl]

@[simp] theorem lookup_optionalField_self (name : String) (v : Option Value) :
    (optionalField name v).lookup name = v := by
  cases v <;> simp [optionalField]

theorem lookup_optionalField_of_ne {name n : String} (h : n ≠ name) (v : Option Value) :
    (optionalField name v).lookup n = none := by
  cases v with
  | none => rfl
  | some v => simp [optionalField, List.lookup_cons, beq_false_of_ne h]

/-- An optional value is read back when the value is. -/
theorem readOptional_map {α : Type} (write : α → Value) (read : Value → Option α) {o : Option α}
    (hread : ∀ a ∈ o, read (write a) = some a) (hnull : ∀ a, (write a).isNull = false) :
    readOptional read (o.map write) = some o := by
  cases o with
  | none => rfl
  | some a => simp [readOptional, hread, hnull]

/-- An error is read back when its code is in range. -/
theorem ErrorObject.fromJson_toJson {e : ErrorObject} (hcode : IsI64 e.code) :
    fromJson e.toJson = some e := by
  have hdata : readOptional Value.asStr (e.data.map Value.string) = some e.data :=
    readOptional_map Value.string _ (fun _ _ => rfl) (fun _ => rfl)
  have hread : Json.Codec.i64.fromValue (.number (.int e.code)) = some e.code :=
    Json.Codec.fromValue_enc rfl (Json.Codec.fits_i64.2 hcode)
  simp [toJson, fromJson, Value.asObject, List.lookup_cons, Value.asStr, hread, hdata]

theorem JsonRpcResponse.fromJson_toJson {r : JsonRpcResponse}
    (hresult : ∀ v ∈ r.result, v.isNull = false) (hcode : ∀ e ∈ r.error, IsI64 e.code) :
    fromJson r.toJson = some r := by
  have herror : readOptional ErrorObject.fromJson (r.error.map ErrorObject.toJson) =
      some r.error :=
    readOptional_map _ _ (fun e he => ErrorObject.fromJson_toJson (hcode e he)) fun _ => rfl
  simp [toJson, fromJson, Value.asObject, Value.asStr, List.lookup_cons, List.lookup_append,
    lookup_optionalField_of_ne, herror, optionalValue_of_not_null hresult]

/-- A notification has no id, so it is not read as a response. -/
theorem JsonRpcResponse.fromJson_notification (n : JsonRpcNotification) :
    JsonRpcResponse.fromJson n.toJson = none := by
  simp [JsonRpcNotification.toJson, fromJson, Value.asObject, List.lookup_cons,
    lookup_optionalField_of_ne]

theorem JsonRpcNotification.fromJson_toJson {n : JsonRpcNotification}
    (hparams : ∀ v ∈ n.params, v.isNull = false) : fromJson n.toJson = some n := by
  simp [toJson, fromJson, Value.asObject, Value.asStr, List.lookup_cons,
    optionalValue_of_not_null hparams]

/-- A sendable message is read back, as the same variant. -/
theorem ServerMessage.fromJson_toJson {m : ServerMessage} (h : m.Sendable) :
    fromJson m.toJson = some m := by
  cases m with
  | response r => simp [toJson, fromJson, JsonRpcResponse.fromJson_toJson h.1 h.2]
  | notification n =>
      simp [toJson, fromJson, JsonRpcResponse.fromJson_notification,
        JsonRpcNotification.fromJson_toJson h]

/-! ### What is sent -/

/-- The codes of the errors. -/
def errorCodes : List ℤ :=
  [parseError, invalidRequest, invalidParams, methodNotFound, internalError]

/-- The results that are the same for every repository. -/
def fixedResults : List Value :=
  [capabilities, .object [("subscribed", .bool true)], .object [("subscribed", .bool false)]]

/-- The messages for a line: errors, fixed results, and what is read.  A response is to an id that
a request may have. -/
inductive LineMessage (read : SnapshotRead) : ServerMessage → Prop
  | error {id : Value} {code : ℤ} {message : String} {data : Option String}
      (hid : validRequestId id = true) (hcode : code ∈ errorCodes) :
      LineMessage read (errorResponse id code message data)
  | fixed {id v : Value} (hid : validRequestId id = true) (hv : v ∈ fixedResults) :
      LineMessage read (successResponse id v)
  | snapshot {id v : Value} {repo : PathBuf} {options : SnapshotOptions}
      {snapshot : RepositorySnapshot} (hid : validRequestId id = true)
      (hread : read repo options = .ok snapshot)
      (henc : Wire.repositorySnapshotCodec.enc snapshot = some v) :
      LineMessage read (successResponse id v)
  | baseline {id v : Value} {repo : PathBuf} {options : SnapshotOptions}
      {params : SnapshotNotificationParams} (hid : validRequestId id = true)
      (hread : read repo options = .ok params.snapshot)
      (henc : Wire.snapshotNotificationParamsCodec.enc params = some v) :
      LineMessage read (successResponse id v)
  | announced {v : Value} {repo : PathBuf} {options : SnapshotOptions}
      {params : SnapshotNotificationParams} (hread : read repo options = .ok params.snapshot)
      (henc : Wire.snapshotNotificationParamsCodec.enc params = some v) :
      LineMessage read (notify "gitseer/snapshot" v)

/-- The messages for an automatic update: the whole snapshot, or a patch made from it. -/
inductive UpdateMessage (snapshot : RepositorySnapshot) : ServerMessage → Prop
  | baseline {v : Value} {params : SnapshotNotificationParams}
      (hparams : params.snapshot = snapshot)
      (henc : Wire.snapshotNotificationParamsCodec.enc params = some v) :
      UpdateMessage snapshot (notify "gitseer/snapshot" v)
  | delta {v : Value} {params : DeltaNotificationParams} {delta : SnapshotDelta}
      (hparams : params.patch = SnapshotPatch.fromDelta snapshot delta)
      (henc : Wire.deltaNotificationParamsCodec.enc params = some v) :
      UpdateMessage snapshot (notify "gitseer/delta" v)

section

variable {serde : SerdeJson} {read : SnapshotRead} {s s' : ProcessState} {id : Value}
  {messages : List ServerMessage} {request : JsonRpcRequest}

theorem readFailed_message (hid : validRequestId id = true) (e : SnapshotError) :
    LineMessage read (readFailed id e) :=
  .error hid (by simp [errorCodes])

theorem respondGetSnapshot_messages (hid : validRequestId id = true)
    (h : respondGetSnapshot serde read s request id = some (s', messages)) :
    ∀ m ∈ messages, LineMessage read m := by
  unfold respondGetSnapshot at h
  split at h
  · next e hoptions =>
      obtain ⟨rfl, rfl⟩ := Prod.mk.inj (Option.some.inj h)
      have hcode : e.code ∈ errorCodes := by simp [snapshotOptions_error hoptions, errorCodes]
      simpa using LineMessage.error hid hcode
  · split at h
    · obtain ⟨rfl, rfl⟩ := Prod.mk.inj (Option.some.inj h)
      simpa using readFailed_message hid _
    · next hread =>
        obtain ⟨v, hv, hm⟩ := Option.bind_eq_some_iff.1 h
        obtain ⟨rfl, rfl⟩ := Prod.mk.inj (Option.some.inj hm)
        simpa using LineMessage.snapshot hid hread hv

theorem respondRefresh_messages (hid : validRequestId id = true)
    (h : respondRefresh serde read s request id = some (s', messages)) :
    ∀ m ∈ messages, LineMessage read m := by
  unfold respondRefresh at h
  split at h
  · next e hoptions =>
      obtain ⟨rfl, rfl⟩ := Prod.mk.inj (Option.some.inj h)
      have hcode : e.code ∈ errorCodes := by simp [snapshotOptions_error hoptions, errorCodes]
      simpa using LineMessage.error hid hcode
  · split at h
    · obtain ⟨rfl, rfl⟩ := Prod.mk.inj (Option.some.inj h)
      simpa using readFailed_message hid _
    · next hread =>
        obtain ⟨v, hv, hm⟩ := Option.bind_eq_some_iff.1 h
        obtain ⟨rfl, rfl⟩ := Prod.mk.inj (Option.some.inj hm)
        simpa using LineMessage.baseline hid hread hv

theorem respondSubscribe_messages (hid : validRequestId id = true)
    (h : respondSubscribe read s id = some (s', messages)) :
    ∀ m ∈ messages, LineMessage read m := by
  have hanswer : LineMessage read (successResponse id (.object [("subscribed", .bool true)])) :=
    .fixed hid (by simp [fixedResults])
  unfold respondSubscribe at h
  dsimp only at h
  split at h
  · obtain ⟨rfl, rfl⟩ := Prod.mk.inj (Option.some.inj h)
    simpa using hanswer
  · next hread =>
      obtain ⟨m, hm, hrest⟩ := Option.bind_eq_some_iff.1 h
      obtain ⟨rfl, rfl⟩ := Prod.mk.inj (Option.some.inj hrest)
      obtain ⟨v, hv, hm⟩ := Option.bind_eq_some_iff.1 hm
      obtain rfl := Option.some.inj hm
      simpa using ⟨hanswer, LineMessage.announced hread hv⟩

theorem respond_messages (hid : validRequestId (request.id.getD .null) = true)
    (h : respond serde read s request = some (s', messages)) :
    ∀ m ∈ messages, LineMessage read m := by
  unfold respond at h
  dsimp only at h
  split_ifs at h with hinit hget hrefresh hsub hunsub hmulti
  · obtain ⟨rfl, rfl⟩ := Prod.mk.inj (Option.some.inj h)
    simpa using LineMessage.fixed hid (by simp [fixedResults])
  · exact respondGetSnapshot_messages hid h
  · exact respondRefresh_messages hid h
  · exact respondSubscribe_messages hid h
  · obtain ⟨rfl, rfl⟩ := Prod.mk.inj (Option.some.inj h)
    simpa using LineMessage.fixed hid (by simp [fixedResults])
  · obtain ⟨rfl, rfl⟩ := Prod.mk.inj (Option.some.inj h)
    simpa using LineMessage.error hid (by simp [errorCodes])
  · obtain ⟨rfl, rfl⟩ := Prod.mk.inj (Option.some.inj h)
    simpa using LineMessage.error hid (by simp [errorCodes])

/-- A request that is taken has an id that may be one. -/
theorem validRequestId_of_parseRequest {line : String} {isNotification : Bool}
    (h : parseRequest serde line = .ok (request, isNotification)) :
    validRequestId (request.id.getD .null) = true := by
  obtain ⟨o, -, hrest⟩ := Result.bind_eq_ok.1 h
  obtain ⟨parsed, hparsed, hpair⟩ := Result.bind_eq_ok.1 hrest
  obtain ⟨rfl, -⟩ := Prod.mk.inj (Except.ok.inj hpair)
  obtain ⟨-, -, hid, -, hfrom⟩ := parseRequestObject_eq_ok.1 hparsed
  simp only [JsonRpcRequest.fromObject, Option.bind_eq_bind, Option.bind_eq_some_iff] at hfrom
  obtain ⟨_, -, _, -, hrequest⟩ := hfrom
  obtain rfl := Option.some.inj hrequest
  cases hlookup : o.lookup "id" with
  | none => rfl
  | some id =>
      cases hnull : id.isNull with
      | true =>
          have hnone : optionalValue (some id) = none := by simp [optionalValue, hnull]
          rw [hnone]
          rfl
      | false => simpa [optionalValue, Option.filter, hnull] using hid id hlookup

theorem validRequestId_responseId (o : Json.Object) : validRequestId (responseId o) = true := by
  unfold responseId
  split
  · split
    · assumption
    · rfl
  · rfl

/-- A line that holds no request is answered by an error. -/
theorem parseRequest_messages {line : String} (h : parseRequest serde line = .error messages) :
    ∀ m ∈ messages, LineMessage read m := by
  have hrejected : ∀ {id detail}, validRequestId id = true →
      ∀ m ∈ invalidRequestResponse id detail, LineMessage read m := by
    intro id detail hid
    simpa [invalidRequestResponse] using LineMessage.error hid (by simp [errorCodes])
  unfold parseRequest at h
  cases hline : parseLine serde line with
  | error rejected =>
      rw [hline] at h
      obtain rfl := Except.error.inj h
      unfold parseLine at hline
      split at hline
      · rw [← Except.error.inj hline]
        simpa using LineMessage.error rfl (by simp [errorCodes])
      · split at hline
        · rw [← Except.error.inj hline]
          exact hrejected rfl
        · cases hline
  | ok o =>
      cases hobject : parseRequestObject serde o with
      | error rejected =>
          rw [hline, Result.ok_bind, hobject] at h
          obtain rfl := Except.error.inj h
          unfold parseRequestObject at hobject
          repeat' split at hobject
          all_goals first
            | exact Except.error.inj hobject ▸ hrejected (validRequestId_responseId o)
            | exact Except.error.inj hobject ▸ hrejected rfl
            | cases hobject
      | ok request =>
          rw [hline, Result.ok_bind, hobject] at h
          cases h

/-- What the messages for a line are. -/
theorem handleRequest_messages {line : String}
    (h : handleRequest serde read s line = some (s', messages)) :
    ∀ m ∈ messages, LineMessage read m := by
  unfold handleRequest at h
  cases hparse : parseRequest serde line with
  | error rejected =>
      rw [hparse] at h
      obtain ⟨rfl, rfl⟩ := Prod.mk.inj (Option.some.inj h)
      exact parseRequest_messages hparse
  | ok parsed =>
      obtain ⟨request, isNotification⟩ := parsed
      have hid := validRequestId_of_parseRequest hparse
      rw [hparse] at h
      obtain ⟨⟨t, sent⟩, hrespond, hm⟩ := Option.bind_eq_some_iff.1 h
      obtain ⟨rfl, rfl⟩ := Prod.mk.inj (Option.some.inj hm)
      intro m hm
      unfold responseMessages at hm
      split at hm
      · exact respond_messages hid hrespond m (List.mem_of_mem_filter hm)
      · exact respond_messages hid hrespond m hm

/-- What the messages for an automatic update are. -/
theorem snapshotUpdateMessages_messages {snapshot : RepositorySnapshot}
    (h : snapshotUpdateMessages s snapshot = some (s', messages)) :
    ∀ m ∈ messages, UpdateMessage snapshot m := by
  unfold snapshotUpdateMessages at h
  split at h
  · obtain ⟨m, hm, hrest⟩ := Option.bind_eq_some_iff.1 h
    obtain ⟨rfl, rfl⟩ := Prod.mk.inj (Option.some.inj hrest)
    obtain ⟨v, hv, hm⟩ := Option.bind_eq_some_iff.1 hm
    obtain rfl := Option.some.inj hm
    simpa using UpdateMessage.baseline rfl hv
  · next previous hlatest =>
      simp only [ProcessState.recordUpdate, hlatest] at h
      cases hchanges : (snapshotDelta previous snapshot).hasChanges with
      | false =>
          simp only [hchanges, Bool.not_false, if_true] at h
          obtain ⟨rfl, rfl⟩ := Prod.mk.inj (Option.some.inj h)
          simp
      | true =>
          simp only [hchanges, Bool.not_true, Bool.false_eq_true, if_false] at h
          obtain ⟨v, hv, hm⟩ := Option.bind_eq_some_iff.1 h
          obtain ⟨rfl, rfl⟩ := Prod.mk.inj (Option.some.inj hm)
          simpa using UpdateMessage.delta rfl hv

/-! ### The JSON forms of the messages -/

/-- The JSON form of a structure is not `null`. -/
theorem isNull_of_struct_enc {α β : Type} {f : Json.Fields α} {toFields : β → α}
    {ofFields : α → β} {h : ∀ b, ofFields (toFields b) = b} {b : β} {v : Value}
    (hv : (Json.Codec.struct f toFields ofFields h).enc b = some v) : v.isNull = false := by
  obtain ⟨o, rfl, -⟩ := Json.Codec.struct_enc hv
  rfl

theorem isI64_of_mem_errorCodes {code : ℤ} (h : code ∈ errorCodes) : IsI64 code := by
  have hall : ∀ c ∈ errorCodes, -2 ^ 63 ≤ c ∧ c < 2 ^ 63 := by decide
  exact hall code h

theorem isNull_of_mem_fixedResults {v : Value} (h : v ∈ fixedResults) : v.isNull = false := by
  have hall : ∀ w ∈ fixedResults, w.isNull = false := by
    simp [fixedResults, capabilities, Value.isNull]
  exact hall v h

theorem sendable_success {v : Value} (id : Value) (h : v.isNull = false) :
    (successResponse id v).Sendable := by
  simpa [successResponse, ServerMessage.Sendable] using h

theorem sendable_notify {v : Value} (method : String) (h : v.isNull = false) :
    (notify method v).Sendable := by
  simpa [notify, ServerMessage.Sendable] using h

theorem LineMessage.sendable {m : ServerMessage} (h : LineMessage read m) : m.Sendable := by
  cases h with
  | error hid hcode =>
      simpa [errorResponse, ServerMessage.Sendable] using isI64_of_mem_errorCodes hcode
  | fixed hid hv => exact sendable_success _ (isNull_of_mem_fixedResults hv)
  | snapshot hid hread henc => exact sendable_success _ (isNull_of_struct_enc henc)
  | baseline hid hread henc => exact sendable_success _ (isNull_of_struct_enc henc)
  | announced hread henc => exact sendable_notify _ (isNull_of_struct_enc henc)

theorem UpdateMessage.sendable {snapshot : RepositorySnapshot} {m : ServerMessage}
    (h : UpdateMessage snapshot m) : m.Sendable := by
  cases h with
  | baseline hparams henc => exact sendable_notify _ (isNull_of_struct_enc henc)
  | delta hparams henc => exact sendable_notify _ (isNull_of_struct_enc henc)

end

/-! ### The sections of a patch -/

/-- The head commit and the upstream of a patch are left out, `null` or written. -/
theorem snapshotPatch_sections {patch : SnapshotPatch} {o : Json.Object}
    (h : Wire.snapshotPatchCodec.enc patch = some (.object o)) :
    o.lookup "headCommit" = patch.headCommit.bind (Wire.optional Wire.commitSummaryCodec).enc ∧
      o.lookup "upstream" = patch.upstream.bind (Wire.optional Wire.upstreamStateCodec).enc := by
  obtain ⟨o', ho, hobject⟩ := Option.map_eq_some_iff.1 h
  obtain rfl := Value.object.inj hobject
  obtain ⟨_, o₁, -, h₁, -, hl₁⟩ := Json.Fields.and_enc ho
  obtain ⟨_, o₂, -, h₂, -, hl₂⟩ := Json.Fields.and_enc h₁
  obtain ⟨c, o₃, hc, h₃, hlc, hl₃⟩ := Json.Fields.and_enc h₂
  obtain ⟨u, o₄, hu, h₄, hlu, -⟩ := Json.Fields.and_enc h₃
  constructor
  · rw [hl₁ _ (by decide), hl₂ _ (by decide), hlc _ (by decide)]
    exact Json.Fields.presence_lookup hc
  · rw [hl₁ _ (by decide), hl₂ _ (by decide), hl₃ _ (by decide), hlu _ (by decide)]
    exact Json.Fields.presence_lookup hu

/-! ### The JSON text -/

section

variable {Text : Type} {toText : Value → Text} {fromText : Text → Option Value}

/-- What a client gets that reads the JSON text of a message. -/
def ServerMessage.reread (toText : Value → Text) (fromText : Text → Option Value)
    (m : ServerMessage) : Option ServerMessage :=
  (fromText (toText m.toJson)).bind fromJson

/-- The id of a response, if it is a number, is an integer of 64 bits. -/
def ServerMessage.ExactId : ServerMessage → Prop
  | .response r => ∀ n, r.id = .number n → n.exact = true
  | .notification _ => True

theorem plain_of_validRequestId {id : Value} (hid : validRequestId id = true)
    (hexact : ∀ n, id = .number n → n.exact = true) (depth : ℕ) : id.plain depth = true := by
  cases id with
  | null => simp [Value.plain]
  | bool b => simp [validRequestId, Value.isNull, Value.isString, Value.isNumber] at hid
  | number n => simpa [Value.plain] using hexact n rfl
  | string s => simp [Value.plain]
  | array items => simp [validRequestId, Value.isNull, Value.isString, Value.isNumber] at hid
  | object fields => simp [validRequestId, Value.isNull, Value.isString, Value.isNumber] at hid

theorem plain_success {id v : Value} {depth : ℕ} (hid : id.plain depth = true)
    (hv : v.plain depth = true) : (successResponse id v).toJson.plain (depth + 1) = true := by
  refine Value.plain_object.2 ?_
  simp [optionalField, hid, hv, Value.plain]

theorem plain_error {id : Value} {code : ℤ} {message : String} {data : Option String} {depth : ℕ}
    (hid : id.plain (depth + 1) = true) (hcode : IsI64 code) :
    (errorResponse id code message data).toJson.plain (depth + 2) = true := by
  have hnumber : (Json.Number.int code).exact = true :=
    decide_eq_true ⟨hcode.1, hcode.2.trans (by decide)⟩
  have herror : (ErrorObject.toJson ⟨code, message, data⟩).plain (depth + 1) = true := by
    refine Value.plain_object.2 ?_
    cases data <;> simp [optionalField, hnumber, Value.plain]
  refine Value.plain_object.2 ?_
  simp [optionalField, hid, herror, Value.plain]

theorem plain_notify {method : String} {v : Value} {depth : ℕ} (hv : v.plain depth = true) :
    (notify method v).toJson.plain (depth + 1) = true := by
  refine Value.plain_object.2 ?_
  simp [optionalField, hv, Value.plain]

theorem plain_of_mem_fixedResults {v : Value} (h : v ∈ fixedResults) : v.plain 126 = true := by
  have hall : ∀ w ∈ fixedResults, w.plain 126 = true := by decide
  exact hall v h

/-- The JSON form of a message for a line is plain when the snapshots that are read are in range
and the id is exact. -/
theorem LineMessage.plain {read : SnapshotRead} {m : ServerMessage} (h : LineMessage read m)
    (hread : ∀ repo options snapshot, read repo options = .ok snapshot → snapshot.InRange)
    (hexact : m.ExactId) : m.toJson.plain Json.maxDepth = true := by
  cases h with
  | error hid hcode =>
      exact plain_error (plain_of_validRequestId hid hexact _) (isI64_of_mem_errorCodes hcode)
  | fixed hid hv =>
      exact plain_success (plain_of_validRequestId hid hexact _) (plain_of_mem_fixedResults hv)
  | snapshot hid hsnapshot henc =>
      exact plain_success (plain_of_validRequestId hid hexact _) (Wire.plain_repositorySnapshot henc
        (hread _ _ _ hsnapshot))
  | baseline hid hsnapshot henc =>
      exact plain_success (plain_of_validRequestId hid hexact _)
        (Wire.plain_snapshotNotificationParams henc (hread _ _ _ hsnapshot))
  | announced hsnapshot henc =>
      exact plain_notify (Wire.plain_snapshotNotificationParams henc (hread _ _ _ hsnapshot))

theorem UpdateMessage.plain {snapshot : RepositorySnapshot} {m : ServerMessage}
    (h : UpdateMessage snapshot m) (hrange : snapshot.InRange) :
    m.toJson.plain Json.maxDepth = true := by
  cases h with
  | baseline hparams henc =>
      exact plain_notify (Wire.plain_snapshotNotificationParams henc (hparams ▸ hrange))
  | delta hparams henc =>
      exact plain_notify (Wire.plain_deltaNotificationParams henc
        (hparams ▸ SnapshotPatch.inRange_fromDelta hrange _))

/-- A sendable message with a plain JSON form is read back from its text. -/
theorem ServerMessage.reread_eq (htext : Json.ReadsPlain toText fromText) {m : ServerMessage}
    (hplain : m.toJson.plain Json.maxDepth = true) (h : m.Sendable) :
    m.reread toText fromText = some m := by
  rw [reread, htext _ hplain]
  exact fromJson_toJson h

/-- What can be written and is in range is read back from its text. -/
theorem exists_enc_text {α : Type} {c : Json.Codec α} {a : α}
    (htext : Json.ReadsPlain toText fromText) (hdepth : c.depth ≤ Json.maxDepth) (h : c.Encodes a)
    (hfits : c.fits a = true) :
    ∃ v, c.enc a = some v ∧ (fromText (toText v)).bind c.fromValue = some a := by
  obtain ⟨v, hv⟩ := Json.Codec.encodes_iff.1 h
  exact ⟨v, hv, Json.Codec.text_round_trip htext hdepth hv hfits⟩

end

/-- What is read back from its text: the parameters of the notifications with UTF-8 paths, and
every message that is sent, as the same variant, unless its id is a number of another kind.  The
numbers of a snapshot are those its types can hold. -/
structure WireRoundTrip {Text : Type} (toText : Value → Text) (fromText : Text → Option Value) :
    Prop where
  snapshotParams : ∀ params : SnapshotNotificationParams, params.snapshot.Utf8Paths →
    params.snapshot.InRange → ∃ v, Wire.snapshotNotificationParamsCodec.enc params = some v ∧
      (fromText (toText v)).bind Wire.snapshotNotificationParamsCodec.fromValue = some params
  deltaParams : ∀ params : DeltaNotificationParams, params.patch.Utf8Paths →
    params.patch.InRange → ∃ v, Wire.deltaNotificationParamsCodec.enc params = some v ∧
      (fromText (toText v)).bind Wire.deltaNotificationParamsCodec.fromValue = some params
  /-- An absent section is left out, and any other is written, as `null` when it has no value. -/
  patchSections : ∀ (patch : SnapshotPatch) (o : Json.Object),
    Wire.snapshotPatchCodec.enc patch = some (.object o) →
    (o.lookup "headCommit" = none ↔ patch.headCommit = none) ∧
    (o.lookup "headCommit" = some .null ↔ patch.headCommit = some none) ∧
    (o.lookup "upstream" = none ↔ patch.upstream = none) ∧
    (o.lookup "upstream" = some .null ↔ patch.upstream = some none)
  requests : ∀ (serde : SerdeJson) (read : SnapshotRead) (s s' : ProcessState) (line : String)
    (messages : List ServerMessage),
    (∀ repo options snapshot, read repo options = .ok snapshot → snapshot.InRange) →
    handleRequest serde read s line = some (s', messages) →
    ∀ m ∈ messages, m.ExactId → m.reread toText fromText = some m
  updates : ∀ (s s' : ProcessState) (snapshot : RepositorySnapshot)
    (messages : List ServerMessage), snapshot.InRange →
    snapshotUpdateMessages s snapshot = some (s', messages) →
    ∀ m ∈ messages, m.reread toText fromText = some m
  goodbye : ∀ reason,
    (goodbyeMessage reason).reread toText fromText = some (goodbyeMessage reason)

/-- A section that can be written is left out exactly when it is absent, and `null` exactly when
it has no value. -/
theorem section_lookup {α : Type} {c : Json.Codec α} {h : ∀ a, c.enc a ≠ some .null}
    (hc : ∀ a, c.Encodes a) (a : Option (Option α)) :
    (a.bind (c.option h).enc = none ↔ a = none) ∧
      (a.bind (c.option h).enc = some .null ↔ a = some none) := by
  cases a with
  | none => simp
  | some a =>
      cases a with
      | none => simp [Json.Codec.option]
      | some a =>
          obtain ⟨v, hv⟩ := Json.Codec.encodes_iff.1 (hc a)
          have hne : v ≠ .null := by
            rintro rfl
            exact h a hv
          simp [Json.Codec.option, hv, hne]

theorem wire_round_trip {Text : Type} {toText : Value → Text} {fromText : Text → Option Value}
    (htext : Json.ReadsPlain toText fromText) : WireRoundTrip toText fromText where
  snapshotParams params hutf8 hrange :=
    exists_enc_text htext (by decide) ((Wire.encodes_snapshotNotificationParams params).2 hutf8)
      ((Wire.fits_snapshotNotificationParams params).2 hrange)
  deltaParams params hutf8 hrange :=
    exists_enc_text htext (by decide) ((Wire.encodes_deltaNotificationParams params).2 hutf8)
      ((Wire.fits_deltaNotificationParams params).2 hrange)
  patchSections patch o h := by
    obtain ⟨hcommit, hupstream⟩ := snapshotPatch_sections h
    rw [hcommit, hupstream]
    obtain ⟨hcommitNone, hcommitNull⟩ := section_lookup Wire.encodes_commitSummary patch.headCommit
    obtain ⟨hupstreamNone, hupstreamNull⟩ :=
      section_lookup Wire.encodes_upstreamState patch.upstream
    exact ⟨hcommitNone, hcommitNull, hupstreamNone, hupstreamNull⟩
  requests serde read s s' line messages hread h m hm hexact :=
    have hmessage := handleRequest_messages h m hm
    ServerMessage.reread_eq htext (hmessage.plain hread hexact) hmessage.sendable
  updates s s' snapshot messages hrange h m hm :=
    have hmessage := snapshotUpdateMessages_messages h m hm
    ServerMessage.reread_eq htext (hmessage.plain hrange) hmessage.sendable
  goodbye reason :=
    ServerMessage.reread_eq htext (plain_notify (by simp [Value.plain, Value.plainFields]))
      (sendable_notify _ rfl)

theorem conflictSnapshot_inRange (oid : String) : (conflictSnapshot oid).InRange where
  headCommit := by simp [conflictSnapshot, plainSnapshot]
  upstream := by simp [conflictSnapshot, plainSnapshot]
  paths := by
    refine ⟨fun c hc => ?_, by simp [conflictSnapshot, plainSnapshot]⟩
    obtain rfl := List.mem_singleton.1 hc
    exact ⟨by simp, by simp [ConflictSide.InRange, IsU32], by simp⟩
  branches := by simp [conflictSnapshot, plainSnapshot]
  tags := by simp [conflictSnapshot, plainSnapshot]
  stashes := by simp [conflictSnapshot, plainSnapshot]

/-- A baseline with a conflict, and the response to the refresh that reads it. -/
theorem wire_round_trip_conflict : ∃ v w,
    Wire.snapshotNotificationParamsCodec.enc ⟨1, conflictSnapshot "1"⟩ = some v ∧
    Wire.snapshotNotificationParamsCodec.fromValue v = some ⟨1, conflictSnapshot "1"⟩ ∧
    handleRequest refreshJson (fun _ _ => .ok (conflictSnapshot "1")) (ProcessState.new repoRoot)
      refreshLine =
        some (basedState (conflictSnapshot "1"), [successResponse (.number (.int 1)) w]) ∧
    (successResponse (.number (.int 1)) w).reread (fun value => value) some =
      some (successResponse (.number (.int 1)) w) := by
  have htext : Json.ReadsPlain (fun value => value) some := fun _ _ => rfl
  have hread : ∀ (repo : PathBuf) (options : SnapshotOptions) (snapshot : RepositorySnapshot),
      (.ok (conflictSnapshot "1") : Except SnapshotError RepositorySnapshot) = .ok snapshot →
      snapshot.InRange := by
    rintro repo options snapshot h
    exact Except.ok.inj h ▸ conflictSnapshot_inRange "1"
  obtain ⟨v, henc, hdec⟩ := (wire_round_trip htext).snapshotParams ⟨1, conflictSnapshot "1"⟩
    ⟨⟨by decide, by decide, by decide⟩, by decide, by decide⟩ (conflictSnapshot_inRange "1")
  obtain ⟨w, hline⟩ : ∃ w, handleRequest refreshJson (fun _ _ => .ok (conflictSnapshot "1"))
      (ProcessState.new repoRoot) refreshLine =
        some (basedState (conflictSnapshot "1"), [successResponse (.number (.int 1)) w]) :=
    ⟨_, rfl⟩
  refine ⟨v, w, henc, hdec, hline, (wire_round_trip htext).requests _ _ _ _ _ _ hread hline _
    List.mem_cons_self ?_⟩
  rintro n hn
  obtain rfl := Value.number.inj hn
  rfl

/-! ### An id that is not read back -/

/-- The integer next to a number, the even one of two. -/
def roundHalfEven (x : ℚ) : ℤ :=
  let rest := x - x.floor
  if rest < 1 / 2 ∨ rest = 1 / 2 ∧ x.floor % 2 = 0 then x.floor else x.floor + 1

/-- The distance of the doubles around a number that is at least one. -/
def doubleUnit (x : ℚ) : ℚ :=
  let size := x.floor.toNat.log2
  if size ≤ 52 then 1 / (2 ^ (52 - size) : ℕ) else (2 ^ (size - 52) : ℕ)

/-- The double next to a number. -/
def nearestDouble (x : ℚ) : ℚ := roundHalfEven (x / doubleUnit x) * doubleUnit x

/-- How a decimal is read by default: the digits as a double, divided by a power of ten. -/
def parseDecimal (digits places : ℕ) : ℚ :=
  nearestDouble (nearestDouble digits / (10 ^ places : ℕ))

/-- The number read from `123456789.123456789`. -/
def sentId : ℚ := parseDecimal 123456789123456789 9

/-- The number read from `123456789.12345679`, the shortest text of the first one. -/
def echoedId : ℚ := parseDecimal 12345678912345679 8

theorem echoedId_ne_sentId : echoedId ≠ sentId := by decide +kernel

def floatIdLine : String :=
  "\x7b\"jsonrpc\":\"2.0\",\"id\":123456789.123456789,\"method\":\"status\"\x7d"

/-- The request in that line. -/
def floatIdJson : SerdeJson := knownLines [(floatIdLine, .object [
  ("jsonrpc", .string "2.0"), ("id", .number (.float sentId)), ("method", .string "status")])]

/-- The response to an unknown method. -/
def unknownMethod (id : ℚ) : ServerMessage :=
  errorResponse (.number (.float id)) methodNotFound "method not found" none

/-- The text of that response to a request with the number sent. -/
def floatIdText : String :=
  "\x7b\"jsonrpc\":\"2.0\",\"error\":\x7b\"code\":-32601,\"message\":\"method not found\"\x7d," ++
    "\"id\":123456789.12345679\x7d"

/-- The id of the response is a neighbour of the id in the request once it has been written and
read, though no double is nearer to the text that is written. -/
theorem float_id_not_reread :
    nearestDouble (12345678912345679 / 10 ^ 8) = sentId ∧
    handleRequest floatIdJson (fun _ _ => .error (.notRepository repoRoot))
      (ProcessState.new repoRoot) floatIdLine =
        some (ProcessState.new repoRoot, [unknownMethod sentId]) ∧
    (unknownMethod sentId).reread (fun _ => floatIdText) (fun text =>
      if text = floatIdText then some (unknownMethod echoedId).toJson else none) ≠
        some (unknownMethod sentId) := by
  refine ⟨by decide +kernel, rfl, fun h => ?_⟩
  have hmessage : LineMessage readPlain (unknownMethod echoedId) :=
    .error rfl (by simp [errorCodes])
  have hreread : ServerMessage.fromJson (unknownMethod echoedId).toJson =
      some (unknownMethod echoedId) := ServerMessage.fromJson_toJson hmessage.sendable
  rw [ServerMessage.reread, if_pos rfl, Option.bind_some, hreread] at h
  injection h with h
  injection h with h
  injection h with _ _ _ h
  injection h with h
  injection h with h
  exact echoedId_ne_sentId h

end Gitseer
