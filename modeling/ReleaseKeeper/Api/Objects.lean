import ReleaseKeeper.Api.Collection
import ReleaseKeeper.Api.Discovery
import ReleaseKeeper.Resource.Basic
/-!
# The objects of a cluster behind an API server

`KubeClusterClient`: the path of an object depends on its kind, which is looked up in what the
server serves. A kind that was found once is remembered; one that was not found is looked for again
the next time. Codes of the server become errors about the object that was asked for.
-/
namespace ReleaseKeeper.Api

open Typed

/-- The cache of `resolve`: kinds that were found, by API version and kind. -/
abbrev KnownKinds := List ((String × String) × ServedKind)

/-- A program of requests that remembers kinds and may end with an error. -/
abbrev Client (α : Type) := ExceptT Error (StateT KnownKinds (Program Request fun _ => Response)) α

namespace Client

def exchange {α : Type} (failure : ServerError → Error) (e : Exchange α) : Client α :=
  ExceptT.mk fun known => (e.run).bind fun r => .done (r.mapError failure, known)

/-- The error of a server that does not tell what it serves. -/
def discoveryFailed (e : ServerError) : Error :=
  .internal "discovery" s!"API discovery failed: {e.message}"

/-- `resolve`. -/
def find (apiVersion kind : String) : Client (Option ServedKind) := do
  match (← get).lookup (apiVersion, kind) with
  | some k => return some k
  | none =>
    match ← exchange discoveryFailed (Discovery.find apiVersion kind) with
    | some k =>
      modify (((apiVersion, kind), k) :: ·)
      return some k
    | none => return none

/-- The kind of an API version, which has to be served. -/
def findServed (apiVersion kind : String) : Client ServedKind := do
  match ← find apiVersion kind with
  | some k => return k
  | none => throw (.unknownKind apiVersion kind)

/-! ## Objects on their way -/

/-- A `DynamicObject`: its metadata in typed form, all else as it is. -/
def readObject : Reader Json
  | .obj members => do
    let metadata ← field? members "metadata" Metadata.ofJson
    return .obj (Table.put "metadata" (metadata.getD {}).toJson members)
  | x => .error (.type x "struct DynamicObject")

/-- `to_dynamic`. -/
def sent (r : Resource) : Except Error Json :=
  (readObject r.toJson).mapError (Fault.toErrorFor r.kind)

/-- `from_dynamic`. -/
def received (object : Json) : Except Error Resource := Resource.ofJson object

/-! ## Requests about objects -/

/-- The namespace of objects that name none. -/
def defaultNamespace : String := "default"

/-- `api_for`: the objects of a kind in a namespace, if the kind lives in namespaces. -/
def objects (k : ServedKind) (namespaceName : Option String) : Collection Json where
  path := k.path (if k.isNamespaced then some (namespaceName.getD defaultNamespace) else none)
  read := readObject

def allObjects (k : ServedKind) (namespaceName : Option String) : Collection Json where
  path := k.path (if k.isNamespaced then namespaceName else none)
  read := readObject

/-- `map_api_error`. -/
def objectFailed (key : ResourceKey) : ServerError → Error
  | .refused s =>
    if s.code = 404 then .notFound key.kind key.describe
    else if s.code = 409 then .conflict key.kind key.describe s.message
    else .server (.refused s)
  | e => .server e

/-- `get`: the object may be absent, or of a kind that is not served. -/
def getObject (key : ResourceKey) : Client (Option Resource) := do
  match ← find key.apiVersion key.kind with
  | none => return none
  | some k =>
    match ← exchange (objectFailed key) ((objects k key.namespaceName).get? key.name) with
    | none => return none
    | some object => return some (← received object)

def createObject (r : Resource) : Client Unit := do
  let k ← findServed r.apiVersion r.kind
  let object ← sent r
  exchange (objectFailed r.key) ((objects k r.namespaceName).create object)

def updateObject (r : Resource) : Client Unit := do
  let k ← findServed r.apiVersion r.kind
  let object ← sent r
  exchange (objectFailed r.key) ((objects k r.namespaceName).replace r.name object)

/-- Deletes an object; one of a kind that is not served is absent. -/
def deleteObject (key : ResourceKey) : Client Unit := do
  match ← find key.apiVersion key.kind with
  | none => throw (.notFound key.kind key.describe)
  | some k => exchange (objectFailed key) ((objects k key.namespaceName).delete key.name)

def listObjects (apiVersion kind : String) (namespaceName : Option String) :
    Client (List Resource) := do
  let k ← findServed apiVersion kind
  let objects ← exchange .server (allObjects k namespaceName).list
  objects.mapM fun object => received object

end Client

end ReleaseKeeper.Api
