import ReleaseKeeper.Instance.Basic
import ReleaseKeeper.Transform.Basic
/-!
# The owner of installed resources

`inject_owner`. Namespaced resources refer to the instance as their controller, so that they go when
it goes. An owner is found only in the namespace of what it owns: resources outside of any
namespace, and all resources of a release that is installed elsewhere, stay without.
-/
namespace ReleaseKeeper.Transformer

/-- Replaces the references to an owner by one. -/
def putOwner (owner : OwnerReference) (references : List Json) : List Json :=
  references.filter (fun x => x.get? "uid" != some (.str owner.uid)) ++ [owner.toJson]

/-- `inject_owner`, which takes an instance with a uid. -/
def owner (i : Instance) : Except Error Transformer :=
  match i.ownerReference? with
  | none => .error (.invalid i.key (some "metadata.uid") "instance has no uid yet")
  | some owner => .ok <| total "owner" fun r =>
    if ¬ i.canOwn ∨ r.isClusterScoped then r
    else r.within "metadata" (Json.withItems "ownerReferences" (putOwner owner))

end ReleaseKeeper.Transformer
