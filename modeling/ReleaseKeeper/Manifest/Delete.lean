import ReleaseKeeper.Manifest.Apply
/-!
# Removing a release

Only objects that the operator created are deleted. All deletions of a phase are tried even if some
fail; permissions are removed in a second phase, which is not begun after a failure in the first.
-/
namespace ReleaseKeeper.Manifest

inductive Deleted where
  | deleted
  | absent
  /-- Someone else created the object. -/
  | skipped
deriving DecidableEq, Repr

/-- `delete`, of what the operator created. -/
def delete (r : Resource) : Operation Deleted := do
  match ← Operation.get r.key with
  | none => return .absent
  | some live =>
    if ¬ live.isTagged then return .skipped
    match ← (Operation.delete r.key).outcome with
    | .ok () => return .deleted
    | .error e => if e.isNotFound then return .absent else throw e

def deleteEach : List Resource → Operation.Steps (Option Error)
  | [] => return none
  | r :: rest => do
    let outcome ← (delete r).run
    let later ← deleteEach rest
    return match outcome with
      | .error e => some e
      | .ok _ => later

/-- One of the two phases of `delete_all`. -/
def deletePhase (resources : List Resource) : Operation Unit := do
  match ← ExceptT.lift (deleteEach resources) with
  | some e => throw e
  | none => return ()

/-- `delete_all`: permissions only after all else is gone. -/
def deleteAll (m : Manifest) : Operation Unit := do
  deletePhase (m.deleteOrder.filter fun r => !r.isAccessControl)
  deletePhase (m.deleteOrder.filter Resource.isAccessControl)

end ReleaseKeeper.Manifest
