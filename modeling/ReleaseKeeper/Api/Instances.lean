import ReleaseKeeper.Api.Collection
import ReleaseKeeper.Instance.Basic
/-!
# Instances behind an API server

`KubeClientImpl`: the finalizers of an instance are read, changed and written back as a whole list;
its status is written by merging it into the one that is there.
-/
namespace ReleaseKeeper.Api.Instances

def collection (namespaceName : Option String) : Collection Instance where
  path :=
    let within := match namespaceName with
      | some ns => s!"namespaces/{ns}/"
      | none => ""
    s!"/apis/{Instance.apiVersion}/{within}knativeservings"
  read := Instance.ofJson

def list : Exchange (List Instance) := (collection none).list

/-- Fetches an instance, which may be absent. -/
def get? (namespaceName name : String) : Exchange (Option Instance) :=
  (collection (some namespaceName)).get? name

def create (i : Instance) : Exchange Unit :=
  (collection (some i.namespaceName)).create i.toJson

def statusChange (status : InstanceStatus) : Json := .obj [("status", status.toJson)]

/-- `patch_status`. -/
def patchStatus (namespaceName name : String) (status : InstanceStatus) : Exchange Unit :=
  (collection (some namespaceName)).mergeStatus name (statusChange status)

def finalizersChange (finalizers : List String) : Json :=
  .obj [("metadata", .obj [("finalizers", .arr (finalizers.map .str))])]

def putFinalizers (namespaceName name : String) (finalizers : List String) : Exchange Unit :=
  (collection (some namespaceName)).merge name (finalizersChange finalizers)

/-- `add_finalizer`. -/
def addFinalizer (namespaceName name finalizer : String) : Exchange Unit := do
  let i ← (collection (some namespaceName)).get name
  if i.finalizers.contains finalizer then return ()
  else putFinalizers namespaceName name (i.finalizers ++ [finalizer])

/-- `remove_finalizer`; the instance may be gone. -/
def removeFinalizer (namespaceName name finalizer : String) : Exchange Unit := do
  match ← get? namespaceName name with
  | none => return ()
  | some i => putFinalizers namespaceName name (i.finalizers.filter (· != finalizer))

end ReleaseKeeper.Api.Instances
