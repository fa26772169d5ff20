import ReleaseKeeper.Api.Request
import ReleaseKeeper.Json.Writer
import ReleaseKeeper.Text.Quoted
import ReleaseKeeper.Typed.Reader
/-!
# Answers of an API server

As the kube client (0.98) reads answers. A code from 400 to 599 refuses the request
(`handle_api_errors`). The body then is an `ErrorResponse`, whose own code counts; if it is none,
one is made up from the answer. A body that has not the form asked for is an error of
deserialization, which breaks the exchange.
-/
namespace ReleaseKeeper.Api

open Typed Typed.Reader

/-- The `ErrorResponse` in a body. -/
def statusOf : Reader ServerStatus :=
  record "ErrorResponse" 4
    (fun fields => do
      let code ← field? fields "code" nat16
      let message ← field? fields "message" text
      let reason ← field? fields "reason" text
      let status ← field? fields "status" text
      let status ← orMissing "status" status
      let code ← orMissing "code" code
      return { status, message := message.getD "", reason := reason.getD "", code })
    do
      let status ← Listed.next text
      let message ← Listed.nextOr "" text
      let reason ← Listed.nextOr "" text
      let code ← Listed.next nat16
      return { status, message, reason, code }

/-- The status of an answer whose body tells none. -/
def Response.plainStatus (r : Response) : ServerStatus where
  status := toString r.code
  message := Text.quoted r.body.write
  reason := "Failed to parse error data"
  code := r.code

/-- The body of an answer, unless the request was refused. -/
def Response.accepted (r : Response) : Except ServerError Json :=
  if 400 ≤ r.code ∧ r.code < 600 then
    match statusOf r.body with
    | .ok status => .error (.refused status)
    | .error _ => .error (.refused r.plainStatus)
  else .ok r.body

def decode {α : Type} (read : Reader α) (body : Json) : Except ServerError α :=
  (read body).mapError fun fault => .broken s!"Error deserializing response: {fault.message}"

/-- `request` of the client: the body of the answer is read. -/
def fetch {α : Type} (read : Reader α) (r : Request) : Exchange α := do
  let answer ← send r
  let body ← answer.accepted
  decode read body

/-! ## What a deletion answers with -/

/-- A value that is not null, where there is one. -/
def optional {α : Type} (fields : Dict Json) (name : String) (read : Reader α) :
    Except Fault Unit :=
  (field? fields name read).map fun _ => ()

def causeShape : Reader Unit :=
  record "StatusCause" 3
    (fun fields => do
      optional fields "field" text
      optional fields "message" text
      optional fields "reason" text)
    do
      let _ ← Listed.nextOr "" text
      let _ ← Listed.nextOr "" text
      let _ ← Listed.nextOr "" text

def detailsShape : Reader Unit :=
  record "StatusDetails" 6
    (fun fields => do
      optional fields "causes" (list causeShape)
      optional fields "group" text
      optional fields "kind" text
      optional fields "name" text
      optional fields "retryAfterSeconds" nat32
      optional fields "uid" text)
    do
      let _ ← Listed.nextOr "" text
      let _ ← Listed.nextOr "" text
      let _ ← Listed.nextOr "" text
      let _ ← Listed.nextOr "" text
      let _ ← Listed.nextOr [] (list causeShape)
      let _ ← Listed.nextOr 0 nat32

/-- A `Status`, by which a server says whether something was done. -/
def outcomeShape : Reader Unit
  | .str "Success" | .str "Failure" => .ok ()
  | .str s => .error (.variant s ["Success", "Failure"])
  | x => .error (.type x "string or map")

/-- The status of a request that was not refused. -/
def outcomeStatus (fields : Dict Json) : Except Fault Unit := do
  optional fields "code" nat16
  optional fields "details" (option detailsShape)
  optional fields "message" text
  optional fields "reason" text
  optional fields "status" (option outcomeShape)

/-- `request_status` of the client: the answer is a status or an object. -/
def fetchOutcome {α : Type} (read : Reader α) (r : Request) : Exchange Unit := do
  let answer ← send r
  let body ← answer.accepted
  if body.getStr? "kind" = some "Status" then
    decode (fun x => outcomeStatus (x.asObj?.getD [])) body
  else
    let _ ← decode read body

end ReleaseKeeper.Api
