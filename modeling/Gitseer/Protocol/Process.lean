/-
**Requests, responses and the state of the worker.**

The worker answers one JSON-RPC request per line and sends notifications to a subscribed client.
Its state is the repository path, the subscription, and the baseline: the snapshot that the next
automatic update is compared with, and the version of the last message that carried one.

A line is first taken apart into a request or the responses that reject it; then the method is
carried out.  Reading the repository and reading JSON text are parameters.  Building a message fails
when a path in it has no JSON form; the program stops then, which is `none` here.

Main definitions:

* `SerdeJson`, `SnapshotRead` — reading JSON text, and reading the repository;
* `ProcessState`, with `recordBaseline` and `recordUpdate`;
* `parseRequest`, `respond`, `handleRequest` — the requests;
* `snapshotUpdateMessages` — the automatic updates.

What a request or an update does to the baseline and which versions it sends is in
`Gitseer.Protocol.Stream`.
-/

import Gitseer.Protocol.Wire
import Gitseer.Repository.Snapshot

set_option relaxedAutoImplicit false
set_option autoImplicit false

open StdPath (PathBuf)
open Json (Value)

namespace Gitseer

/-! ### What is outside -/

/-- Reading JSON text, and the texts of the errors of reading typed data. -/
structure SerdeJson where
  fromStr : String → Except String Value
  requestError : Value → String
  paramsError : Value → String

/-- Reading a snapshot of the repository at a path, at one moment. -/
abbrev SnapshotRead := PathBuf → SnapshotOptions → Except SnapshotError RepositorySnapshot

/-! ### Messages -/

def jsonrpcVersion : String := "2.0"

def parseError : ℤ := -32700

def invalidRequest : ℤ := -32600

def invalidParams : ℤ := -32602

def methodNotFound : ℤ := -32601

def internalError : ℤ := -32603

structure JsonRpcRequest where
  jsonrpc : String
  method : String
  params : Option Value
  id : Option Value

structure ErrorObject where
  code : ℤ
  message : String
  data : Option String
  deriving DecidableEq

structure JsonRpcResponse where
  jsonrpc : String
  result : Option Value
  error : Option ErrorObject
  id : Value

structure JsonRpcNotification where
  jsonrpc : String
  method : String
  params : Option Value

inductive ServerMessage
  | response (response : JsonRpcResponse)
  | notification (notification : JsonRpcNotification)

def ServerMessage.isNotification : ServerMessage → Bool
  | response _ => false
  | notification _ => true

def successResponse (id result : Value) : ServerMessage :=
  .response ⟨jsonrpcVersion, some result, none, id⟩

def errorResponse (id : Value) (code : ℤ) (message : String) (data : Option String) :
    ServerMessage :=
  .response ⟨jsonrpcVersion, none, some ⟨code, message, data⟩, id⟩

def notify (method : String) (params : Value) : ServerMessage :=
  .notification ⟨jsonrpcVersion, method, some params⟩

def goodbyeMessage (reason : String) : ServerMessage :=
  notify "gitseer/goodbye" (.object [("reason", .string reason)])

/-! ### Capabilities -/

def stringArray (l : List String) : Value := .array (l.map Value.string)

/-- The JSON form of `Capabilities::current()`. -/
def capabilities : Value := .object [
  ("name", .string "gitseer"),
  ("version", .string "0.1.0"),
  ("protocol", .object [
    ("jsonrpc", .string "2.0"),
    ("version", .number (.int 1)),
    ("transport", .string "stdio"),
    ("methods", stringArray ["initialize", "gitseer/getSnapshot", "gitseer/refresh",
      "gitseer/subscribe", "gitseer/unsubscribe"]),
    ("notifications", stringArray ["gitseer/snapshot", "gitseer/delta", "gitseer/goodbye"]),
    ("non_goals", stringArray ["multi-repository service mode",
      "OpenRepository/CloseRepository protocol", "git mutation API"])]),
  ("repository", .object [
    ("single_repository_process", .bool true),
    ("libgit2_backed", .bool true),
    ("filesystem_watch", .bool true)])]

/-! ### The state of the worker -/

structure ProcessState where
  repo : PathBuf
  subscribed : Bool := false
  latestSnapshot : Option RepositorySnapshot := none
  latestVersion : UInt64 := 0
  deriving DecidableEq

namespace ProcessState

/-- `ProcessState::new`. -/
def new (repo : PathBuf) : ProcessState := { repo := repo }

/-- The state with a new baseline under the next version. -/
def withBaseline (state : ProcessState) (snapshot : RepositorySnapshot) : ProcessState :=
  { state with latestSnapshot := some snapshot, latestVersion := state.latestVersion + 1 }

def recordBaseline (state : ProcessState) (snapshot : RepositorySnapshot) :
    ProcessState × SnapshotNotificationParams :=
  (state.withBaseline snapshot, ⟨state.latestVersion + 1, snapshot⟩)

def recordRefresh (state : ProcessState) (snapshot : RepositorySnapshot) :
    ProcessState × SnapshotNotificationParams :=
  state.recordBaseline snapshot

/-- The baseline becomes the new snapshot in any case; only a difference takes a version. -/
def recordUpdate (state : ProcessState) (snapshot : RepositorySnapshot) :
    ProcessState × Option DeltaNotificationParams :=
  match state.latestSnapshot with
  | none => ((state.recordBaseline snapshot).1, none)
  | some previous =>
      let delta := snapshotDelta previous snapshot
      if !delta.hasChanges then ({ state with latestSnapshot := some snapshot }, none)
      else
        (state.withBaseline snapshot,
          some ⟨state.latestVersion, state.latestVersion + 1, delta,
            SnapshotPatch.fromDelta snapshot delta⟩)

end ProcessState

/-! ### Taking a line apart -/

def validRequestId (id : Value) : Bool := id.isNull || id.isString || id.isNumber

def invalidRequestResponse (id : Value) (detail : String) : List ServerMessage :=
  [errorResponse id invalidRequest "invalid request" (some detail)]

/-- An optional value: `null` and a missing field are the same. -/
def optionalValue (v : Option Value) : Option Value := v.filter fun v => !v.isNull

/-- `from_value::<JsonRpcRequest>` on an object. -/
def JsonRpcRequest.fromObject (o : Json.Object) : Option JsonRpcRequest := do
  let jsonrpc ← (o.lookup "jsonrpc").bind Value.asStr
  let method ← (o.lookup "method").bind Value.asStr
  some ⟨jsonrpc, method, optionalValue (o.lookup "params"), optionalValue (o.lookup "id")⟩

/-- The id a response to the request object has: `null` when there is none, or no valid one. -/
def responseId (o : Json.Object) : Value :=
  match o.lookup "id" with
  | some id => if validRequestId id then id else .null
  | none => .null

/-- The request a request object holds, or the responses that reject it. -/
def parseRequestObject (serde : SerdeJson) (o : Json.Object) :
    Except (List ServerMessage) JsonRpcRequest :=
  if (o.lookup "jsonrpc").bind Value.asStr ≠ some jsonrpcVersion then
    .error (invalidRequestResponse (responseId o) "jsonrpc must be exactly \"2.0\"")
  else if !(o.lookup "method").any Value.isString then
    .error (invalidRequestResponse (responseId o) "method must be a string")
  else if (o.lookup "id").any fun id => !validRequestId id then
    .error (invalidRequestResponse .null "id must be a string, number, or null")
  else if (o.lookup "params").any fun params =>
      !params.isNull && !params.isObject && !params.isArray then
    .error (invalidRequestResponse (responseId o) "params must be an object, array, or null")
  else match JsonRpcRequest.fromObject o with
    | some request => .ok request
    | none => .error (invalidRequestResponse (responseId o) (serde.requestError (.object o)))

/-- The request object of a line, or the responses that reject the line. -/
def parseLine (serde : SerdeJson) (line : String) : Except (List ServerMessage) Json.Object :=
  match serde.fromStr line with
  | .error text => .error [errorResponse .null parseError "parse error" (some text)]
  | .ok value =>
      match value.asObject with
      | none => .error [errorResponse .null invalidRequest "invalid request"
          (some "JSON-RPC requests must be objects")]
      | some o => .ok o

/-- The request of a line, and whether it has no id. -/
def parseRequest (serde : SerdeJson) (line : String) :
    Except (List ServerMessage) (JsonRpcRequest × Bool) := do
  let o ← parseLine serde line
  let request ← parseRequestObject serde o
  .ok (request, (o.lookup "id").isNone)

/-- `from_value::<SnapshotRequestParams>`: from an object, or from the array of its fields. -/
def snapshotRequestParams : Value → Option Bool
  | .object o =>
      match o.lookup "includeIgnored" with
      | none => some false
      | some (.bool b) => some b
      | some _ => none
  | .array [] => some false
  | .array [.bool b] => some b
  | _ => none

def snapshotOptions (serde : SerdeJson) (params : Option Value) :
    Except ErrorObject SnapshotOptions :=
  match params with
  | none => .ok {}
  | some params =>
      if params.isNull then .ok {}
      else match snapshotRequestParams params with
        | some includeIgnored => .ok ⟨includeIgnored⟩
        | none => .error ⟨invalidParams, "invalid snapshot params", some (serde.paramsError params)⟩

/-! ### Carrying out a request -/

/-- The response for a failed read. -/
def readFailed (id : Value) (e : SnapshotError) : ServerMessage :=
  errorResponse id internalError "repository snapshot failed" (some e.toString)

/-- The message that carries a baseline to subscribers. -/
def snapshotNotification (params : SnapshotNotificationParams) : Option ServerMessage := do
  let value ← Wire.snapshotNotificationParamsCodec.enc params
  some (notify "gitseer/snapshot" value)

def respondGetSnapshot (serde : SerdeJson) (read : SnapshotRead) (state : ProcessState)
    (request : JsonRpcRequest) (id : Value) : Option (ProcessState × List ServerMessage) :=
  match snapshotOptions serde request.params with
  | .error e => some (state, [errorResponse id e.code e.message e.data])
  | .ok options =>
      match read state.repo options with
      | .error e => some (state, [readFailed id e])
      | .ok snapshot => do
          let value ← Wire.repositorySnapshotCodec.enc snapshot
          some (state, [successResponse id value])

def respondRefresh (serde : SerdeJson) (read : SnapshotRead) (state : ProcessState)
    (request : JsonRpcRequest) (id : Value) : Option (ProcessState × List ServerMessage) :=
  match snapshotOptions serde request.params with
  | .error e => some (state, [errorResponse id e.code e.message e.data])
  | .ok options =>
      match read state.repo options with
      | .error e => some (state, [readFailed id e])
      | .ok snapshot => do
          let (state, params) := state.recordRefresh snapshot
          let value ← Wire.snapshotNotificationParamsCodec.enc params
          some (state, [successResponse id value])

/-- A subscription is recorded before the baseline is read, and stays when the read fails. -/
def respondSubscribe (read : SnapshotRead) (state : ProcessState) (id : Value) :
    Option (ProcessState × List ServerMessage) :=
  let state := { state with subscribed := true }
  let answer := successResponse id (.object [("subscribed", .bool true)])
  match read state.repo {} with
  | .error _ => some (state, [answer])
  | .ok snapshot => do
      let (state, params) := state.recordBaseline snapshot
      let message ← snapshotNotification params
      some (state, [answer, message])

/-- The state after a request and its messages, before those of a request without id are
filtered. -/
def respond (serde : SerdeJson) (read : SnapshotRead) (state : ProcessState)
    (request : JsonRpcRequest) : Option (ProcessState × List ServerMessage) :=
  let id := request.id.getD .null
  if request.method = "initialize" then some (state, [successResponse id capabilities])
  else if request.method = "gitseer/getSnapshot" then
    respondGetSnapshot serde read state request id
  else if request.method = "gitseer/refresh" then respondRefresh serde read state request id
  else if request.method = "gitseer/subscribe" then respondSubscribe read state id
  else if request.method = "gitseer/unsubscribe" then
    some ({ state with subscribed := false },
      [successResponse id (.object [("subscribed", .bool false)])])
  else if request.method = "OpenRepository" || request.method = "CloseRepository" then
    some (state, [errorResponse id methodNotFound
      "multi-repository service mode is not supported" none])
  else some (state, [errorResponse id methodNotFound "method not found" none])

/-- Of the messages of a request without id only the notifications are sent. -/
def responseMessages (messages : List ServerMessage) (isNotification : Bool) :
    List ServerMessage :=
  if isNotification then messages.filter ServerMessage.isNotification else messages

def handleRequest (serde : SerdeJson) (read : SnapshotRead) (state : ProcessState)
    (line : String) : Option (ProcessState × List ServerMessage) :=
  match parseRequest serde line with
  | .error messages => some (state, messages)
  | .ok (request, isNotification) => do
      let (state, messages) ← respond serde read state request
      some (state, responseMessages messages isNotification)

/-! ### Automatic updates -/

def snapshotUpdateMessages (state : ProcessState) (snapshot : RepositorySnapshot) :
    Option (ProcessState × List ServerMessage) :=
  match state.latestSnapshot with
  | none => do
      let (state, params) := state.recordBaseline snapshot
      let message ← snapshotNotification params
      some (state, [message])
  | some _ =>
      match state.recordUpdate snapshot with
      | (state, none) => some (state, [])
      | (state, some delta) => do
          let value ← Wire.deltaNotificationParamsCodec.enc delta
          some (state, [notify "gitseer/delta" value])

end Gitseer
