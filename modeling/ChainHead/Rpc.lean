import ChainHead.Engine

/-!
# Remote calls

The consensus client calls the engine by JSON-RPC.  A call names a method and gives its parameters,
in order or by name.  Three kinds of methods are offered: to update the fork choice, to fetch a
payload, and to exchange the names of the methods that each side knows.

Parameters in order may be followed by others, which are passed over; of parameters by name those
that are not known are.  The attributes of a fork choice may be left out.
-/

namespace ChainHead.Rpc

open ChainHead.Log (Notice)

/-! ## Calls -/

/-- A call as it arrives. -/
structure Call where
  /-- The mark by which the client knows the answer. -/
  mark : Json
  /-- The name of the method. -/
  method : String
  /-- Its parameters. -/
  params : Option Json

/-- Reads the version of the protocol, of which there is one. -/
def readProtocol : Json.Reading Unit := Json.readWith fun
  | .str "2.0" => some ()
  | _ => none

/-- Reads a mark: null, a text or an integer of at most 64 bits without sign. -/
def readMark : Json.Reading Json := Json.readWith fun
  | .null => some .null
  | .str s => some (.str s)
  | .num n => if 0 ≤ n ∧ n < UInt64.size then some (.num n) else none
  | _ => none

/-- How a call is read. -/
def Call.form : Json.Form Call :=
  (fun _ mark method params => ⟨mark, method, params⟩)
    <$> .required "jsonrpc" readProtocol
    <*> .required "id" readMark
    <*> .required "method" Json.readString
    <*> .optional "params" Json.readAny

/-- A method that is offered. -/
inductive Method where
  /-- To update the fork choice. -/
  | update (version : Version)
  /-- To fetch a payload. -/
  | fetch (version : Version)
  /-- To exchange the names of methods. -/
  | exchange
deriving DecidableEq

namespace Method

/-- The name of a method. -/
def name : Method → String
  | update version => version.updateMethod
  | fetch version => version.payloadMethod
  | exchange => "engine_exchangeCapabilities"

/-- All methods. -/
def all : List Method := Version.all.map update ++ Version.all.map fetch ++ [exchange]

/-- The method with a name. -/
def ofName? (s : String) : Option Method := all.find? fun m => m.name = s

end Method

/-! ## Parameters -/

/-- The fields of parameters by name, in which `payloadId` is another name of `payload_id`. -/
def canonicalNames (fields : List (String × Json)) : List (String × Json) :=
  fields.map fun (name, j) => (if name = "payloadId" then "payload_id" else name, j)

/-- Reads parameters: those in order by `inOrder` and those by name by `byName`. -/
def readParams {α : Type} (inOrder : List Json → Except Json.ReadError α) (byName : Json.Form α) :
    Option Json → Except Json.ReadError α
  | some (.arr values) => inOrder values
  | some (.obj fields) => byName.read (.obj (canonicalNames fields))
  | _ => .error .invalid

/-- Reads the single parameter of a method. -/
def readSingle {α : Type} (name : String) (read : Json.Reading α) :
    Option Json → Except Json.ReadError α :=
  readParams
    (fun
      | [] => .error .invalid
      | j :: _ => read j)
    (.required name read)

/-- Reads the parameters of a fork choice. -/
def readUpdate : Option Json → Except Json.ReadError (ForkchoiceParam × Option PayloadAttributes) :=
  readParams
    (fun
      | [] => .error .invalid
      | state :: rest => do
        let state ← ForkchoiceParam.form.read state
        let attributes ← Json.readOption PayloadAttributes.form.read (rest.headD .null)
        return (state, attributes))
    (Prod.mk <$> .required "state" ForkchoiceParam.form.read
      <*> .optional "attributes" PayloadAttributes.form.read)

/-! ## Answers -/

/-- What a call gives. -/
inductive Result where
  /-- The answer to a fork choice. -/
  | update (answer : ForkChoiceUpdate)
  /-- A payload. -/
  | payload (payload : BuiltPayload)
  /-- The names of methods. -/
  | methods (names : List String)
deriving DecidableEq

/-- The JSON value of what a call gives. -/
def Result.toJson : Result → Json
  | update answer => answer.toJson
  | payload p => p.toJson
  | methods names => .arr (names.map .str)

/-- Why a call gives nothing. -/
inductive Error where
  /-- It is no call. -/
  | notACall
  /-- Its method is not offered. -/
  | unknownMethod
  /-- Its parameters cannot be read. -/
  | badParams (cause : Json.ReadError)
  /-- The engine refuses it. -/
  | refused (reason : RequestError)
  /-- It stops at an overflow. -/
  | overflow
deriving DecidableEq

namespace Error

/-- The number of an error on the wire. -/
def code : Error → Int
  | notACall => -32700
  | unknownMethod => -32601
  | badParams _ => -32602
  | refused reason => reason.kind.code
  | overflow => -32603

/-- The wording of an error. -/
def message : Error → String
  | notACall => "Parse error"
  | unknownMethod => "Method not found"
  | badParams _ => "Invalid params"
  | refused reason => reason.message
  | overflow => "Internal error"

/-- The JSON value of an error. -/
def toJson (e : Error) : Json := .obj [("code", .num e.code), ("message", .str e.message)]

end Error

/-- How a call ends. -/
structure Response where
  /-- The mark of the call, null if it could not be read. -/
  mark : Json := .null
  /-- What it gives. -/
  result : Except Error Result
  /-- What is reported. -/
  notices : List Notice
  /-- The engine after the call. -/
  after : Engine

namespace Response

/-- How a fork choice that was called for ends. -/
def ofOutcome (mark : Json) (outcome : Engine.Outcome) : Response where
  mark := mark
  result := match outcome.answer with
    | .update answer => .ok (.update answer)
    | .error reason => .error (.refused reason)
    | .overflow => .error .overflow
  notices := outcome.notices
  after := outcome.after

/-- The text of a response as it goes back to the client. -/
def text (r : Response) : String :=
  let outcome := match r.result with
    | .ok result => ("result", result.toJson)
    | .error error => ("error", error.toJson)
  (Json.obj [("jsonrpc", .str "2.0"), outcome, ("id", r.mark)]).text

end Response

/-- Runs a call of a method. -/
def run (e : Engine) (call : Call) (method : Method) : Response :=
  match method with
  | .update version =>
    match readUpdate call.params with
    | .error cause => ⟨call.mark, .error (.badParams cause), [], e⟩
    | .ok (state, attributes) =>
      .ofOutcome call.mark (e.forkchoiceUpdated version state attributes)
  | .fetch _ =>
    match readSingle "payload_id" (Json.readBytes 8) call.params with
    | .error cause => ⟨call.mark, .error (.badParams cause), [], e⟩
    | .ok id =>
      let (payload, after) := e.getPayload id
      ⟨call.mark, (payload.map Result.payload).mapError Error.refused, [], after⟩
  | .exchange =>
    match readSingle "capabilities" (Json.readList Json.readString) call.params with
    | .error cause => ⟨call.mark, .error (.badParams cause), [], e⟩
    | .ok names => ⟨call.mark, .ok (.methods capabilities), [.clientCapabilities names], e⟩

/-- Answers a call. -/
def respond (e : Engine) (text : String) : Response :=
  match Json.decode Call.form.read text with
  | .error _ => ⟨.null, .error .notACall, [], e⟩
  | .ok call =>
    match Method.ofName? call.method with
    | none => ⟨call.mark, .error .unknownMethod, [], e⟩
    | some method => run e call method

end ChainHead.Rpc
