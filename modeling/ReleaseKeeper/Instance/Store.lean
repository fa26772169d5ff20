import ReleaseKeeper.Instance.Basic
/-!
# A store of instances

What the calls of `KubeClient` do to the instances of a cluster. They are stored under namespace and
name, and one that is marked for deletion is gone as soon as its last finalizer is.
-/
namespace ReleaseKeeper

instance : KeyOrder (String × String) where
  before a b := if a.1 = b.1 then a.2 < b.2 else a.1 < b.1

abbrev InstanceStore := Table (String × String) Instance

namespace InstanceStore

def put (i : Instance) (store : InstanceStore) : InstanceStore := Table.put i.identity i store

def absent (id : String × String) : Error := .notFound Instance.kind s!"{id.1}/{id.2}"

def modify (id : String × String) (f : Instance → Instance) (store : InstanceStore) :
    Except Error InstanceStore :=
  match store.lookup id with
  | some i => .ok (Table.put id (f i) store)
  | none => .error (absent id)

/-- `patch_status`, which replaces the status. -/
def patchStatus (id : String × String) (status : InstanceStatus) :
    InstanceStore → Except Error InstanceStore :=
  modify id fun i => { i with status := some status }

/-- `add_finalizer`: behind the others, unless it is there. -/
def addFinalizer (id : String × String) (finalizer : String) :
    InstanceStore → Except Error InstanceStore :=
  modify id fun i =>
    if i.finalizers.contains finalizer then i.withFinalizers i.finalizers
    else i.withFinalizers (i.finalizers ++ [finalizer])

/-- `remove_finalizer`; with the last one goes an instance that is marked for deletion. -/
def removeFinalizer (id : String × String) (finalizer : String) (store : InstanceStore) :
    InstanceStore :=
  match store.lookup id with
  | none => store
  | some i =>
    let left := i.finalizers.filter (· ≠ finalizer)
    if i.isDeleting && left.isEmpty then Table.drop id store
    else Table.put id (i.withFinalizers left) store

end InstanceStore

end ReleaseKeeper
