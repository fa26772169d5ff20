import ReleaseKeeper.Error
import ReleaseKeeper.Json.Basic
import ReleaseKeeper.Program
import ReleaseKeeper.Text.Cut
/-!
# Requests to an API server

A request names a path of the server, parameters, and maybe a body. A server answers with a code and
a body. An exchange is a program of requests that ends at the first one that comes to nothing.
-/
namespace ReleaseKeeper.Api

inductive Method where
  | get
  | post
  | put
  | patch
  | delete
deriving DecidableEq, Repr, Inhabited

def Method.name : Method → String
  | get => "GET"
  | post => "POST"
  | put => "PUT"
  | patch => "PATCH"
  | delete => "DELETE"

structure Content where
  mediaType : String
  body : Json
deriving Repr, Inhabited

structure Request where
  method : Method
  path : String
  /-- The parameters behind the path. -/
  parameters : List String := []
  content : Option Content := none
deriving Repr, Inhabited

structure Response where
  code : Nat
  body : Json
deriving Repr, Inhabited

/-- A program of requests. -/
abbrev Steps (α : Type) := Program Request (fun _ => Response) α

/-- A program of requests that may come to nothing. -/
abbrev Exchange (α : Type) := ExceptT ServerError (Program Request fun _ => Response) α

/-! ## Targets -/

def isPathChar (c : Char) : Bool :=
  !(c.toNat ≤ 0x20 || c = '#' || c = '<' || c = '>' || c = '?' || c = '\u0060')

def isParameterChar (c : Char) : Bool :=
  !(c.toNat ≤ 0x20 || c = '"' || c = '#' || c = '>')

/-- Path and parameters of a target; a hash mark ends it. -/
def splitTarget (target : List Char) : List Char × List Char :=
  let target := target.takeWhile (· ≠ '#')
  (Text.cutFirst '?' target).getD (target, [])

/-- A request to a path, which takes parameters of its own from behind a question mark. -/
def Request.to (method : Method) (path : String) (parameters : List String := [])
    (content : Option Content := none) : Except ServerError Request :=
  let target := path ++ "?" ++ "&".intercalate parameters
  let (path, query) := splitTarget target.toList
  if path.all isPathChar && query.all isParameterChar then
    let parameters := (Text.pieces '&' query).filter (· ≠ [])
    .ok { method, path := .ofList path, parameters := parameters.map .ofList, content }
  else .error (.broken "invalid uri character")

/-! ## Sending -/

def send (r : Request) : Exchange Response :=
  ExceptT.mk ((Program.ask r).bind fun x => .done (.ok x))

end ReleaseKeeper.Api
