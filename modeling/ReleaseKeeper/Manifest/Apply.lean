import ReleaseKeeper.Call
import ReleaseKeeper.Json.Merge
import ReleaseKeeper.Manifest.Order
/-!
# Applying a release

A resource that is absent from the cluster is created and tagged as made by the operator. One that
is there is merged into the live object, which is written back only if the merge changed it.
-/
namespace ReleaseKeeper

/-- `CREATED_BY_ANNOTATION`. -/
def createdByKey : String := "manifestival"

/-- `CREATED_BY_VALUE`. -/
def createdByValue : String := "new"

namespace Resource

def tag (r : Resource) : Resource := r.setAnnotation createdByKey createdByValue

def isTagged (r : Resource) : Bool := r.annotation? createdByKey = some createdByValue

def mergeInto (desired live : Resource) : Bool × Resource :=
  let (changed, members) := Json.mergeMembers desired.members live.members
  (changed, ⟨members⟩)

end Resource

namespace Manifest

inductive Applied where
  | created
  | updated
  | unchanged
deriving DecidableEq, Repr

/-- `apply`: creates a resource or merges it into the live object. -/
def apply (r : Resource) : Operation Applied := do
  match ← Operation.get r.key with
  | none =>
    Operation.create r.tag
    return .created
  | some live =>
    let (changed, merged) := r.mergeInto live
    if changed then
      Operation.update merged
      return .updated
    else return .unchanged

structure ApplyFailure where
  /-- What was applied before. -/
  applied : List Reference
  /-- What could not be applied. -/
  resource : ResourceKey
  cause : Error
deriving DecidableEq, Repr

def ApplyFailure.toError (f : ApplyFailure) : Error := .apply f.resource.describe f.cause.message

def applyEach : List Resource → Operation.Steps (Except ApplyFailure (List Reference))
  | [] => return .ok []
  | r :: rest => do
    match ← (apply r).run with
    | .error cause => return .error ⟨[], r.key, cause⟩
    | .ok _ =>
      match ← applyEach rest with
      | .error f => return .error { f with applied := r.reference :: f.applied }
      | .ok applied => return .ok (r.reference :: applied)

/-- `apply_all`: in order, up to the first that fails. -/
def applyAll (m : Manifest) : Operation.Steps (Except ApplyFailure (List Reference)) :=
  applyEach m.applyOrder

end Manifest

end ReleaseKeeper
