import ReleaseKeeper.Api.Answer
import ReleaseKeeper.Metadata
import ReleaseKeeper.Typed.Shape
/-!
# Collections of objects

The objects of a kind, of one namespace or of all, are members of a collection, which has a path.
The operations are those of the typed `Api` of the kube client (0.98), and each is one request:
`get`, `get_opt`, `list`, `create`, `replace`, `delete`, `patch` and `patch_status`, with the paths,
parameters and media types that the client gives them. What is written carries the name of the
manager of its fields.
-/
namespace ReleaseKeeper.Api

open Typed

/-- The objects under a path. -/
structure Collection (α : Type) where
  path : String
  /-- Reads a member. -/
  read : Reader α

/-- `FIELD_MANAGER`. -/
def fieldManager : String := "serving-operator"

def managed : String := "fieldManager=" ++ fieldManager

def wholeObject : String := "application/json"

def mergePatch : String := "application/merge-patch+json"

def applyPatch : String := "application/apply-patch+yaml"

namespace Collection

variable {α : Type}

/-- The path of a member. The client refuses an empty name before it sends anything. -/
def member (c : Collection α) (name : String) : Except ServerError String :=
  if name = "" then .error (.broken "A non-empty name is required")
  else .ok s!"{c.path}/{name}"

def get (c : Collection α) (name : String) : Exchange α := do
  let path ← c.member name
  let request ← Request.to .get path
  fetch c.read request

/-- `get_opt`: a member is absent exactly if the server refuses the request for the reason
`NotFound`. -/
def get? (c : Collection α) (name : String) : Exchange (Option α) :=
  ExceptT.mk ((c.get name).run.bind fun
    | .ok x => .done (.ok (some x))
    | .error (.refused s) =>
      .done (if s.reason = "NotFound" then .ok none else .error (.refused s))
    | .error e => .done (.error e))

/-- What a listing has to look like, its items apart. -/
def listingShape : Shape := .record "ListMeta" [
  ("continue", .text), ("remainingItemCount", .int64), ("resourceVersion", .text),
  ("selfLink", .text)]

def items (read : Reader α) : Reader (List α)
  | .obj fields => do
    let items ← field? fields "items" (Reader.list read)
    let _ ← field? fields "metadata" listingShape.check
    orMissing "items" items
  | x => .error (.type x "struct ObjectList")

def list (c : Collection α) : Exchange (List α) := do
  let request ← Request.to .get c.path
  fetch (items c.read) request

def create (c : Collection α) (object : Json) : Exchange Unit := do
  let request ← Request.to .post c.path [managed] (some ⟨wholeObject, object⟩)
  let _ ← fetch c.read request

def replace (c : Collection α) (name : String) (object : Json) : Exchange Unit := do
  let path ← c.member name
  let request ← Request.to .put path [managed] (some ⟨wholeObject, object⟩)
  let _ ← fetch c.read request

/-- How a member is deleted: what depends on it is deleted afterwards. -/
def deletion : Json := .obj [("propagationPolicy", .str "Background")]

def delete (c : Collection α) (name : String) : Exchange Unit := do
  let path ← c.member name
  let request ← Request.to .delete path [] (some ⟨wholeObject, deletion⟩)
  fetchOutcome c.read request

/-- `patch` with a merge patch. -/
def merge (c : Collection α) (name : String) (change : Json) : Exchange Unit := do
  let path ← c.member name
  let request ← Request.to .patch path [managed] (some ⟨mergePatch, change⟩)
  let _ ← fetch c.read request

/-- `patch_status` with a merge patch. -/
def mergeStatus (c : Collection α) (name : String) (change : Json) : Exchange Unit := do
  let path ← c.member name
  let request ← Request.to .patch (path ++ "/status") [managed] (some ⟨mergePatch, change⟩)
  let _ ← fetch c.read request

/-- `patch` with an apply patch and `force`: the fields are taken over from whoever manages them. -/
def apply (c : Collection α) (name : String) (object : Json) : Exchange Unit := do
  let path ← c.member name
  let parameters := [managed, "force=true"]
  let request ← Request.to .patch path parameters (some ⟨applyPatch, object⟩)
  let _ ← fetch c.read request

end Collection

end ReleaseKeeper.Api
