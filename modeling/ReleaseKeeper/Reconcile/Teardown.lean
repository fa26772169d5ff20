import ReleaseKeeper.Manifest.Delete
import ReleaseKeeper.Reconcile.Context
import ReleaseKeeper.Transform.Namespace
/-!
# Teardown

`finalize`. The installed resources are shared by all instances, so they are removed only with the
last one that is not itself being deleted: deployments first, then the rest, and permissions at the
end. Definitions of kinds stay, as all objects of these kinds would go with them. Only when
everything went well is the instance released.
-/
namespace ReleaseKeeper.Teardown

/-- The resources that were installed for an instance, definitions of kinds aside. -/
def installed (ctx : Context) (i : Instance) : Except Error Manifest := do
  let m ← ctx.manifest.mapM (Transformer.inNamespace i.targetNamespace).apply
  return Manifest.withoutDefinitions m

/-- `delete_installed`, in three phases. -/
def deleteInstalled (ctx : Context) (i : Instance) : Operation Unit := do
  let m ← installed ctx i
  Manifest.deleteAll (m.filter fun r => r.hasKind "Deployment")
  Manifest.deleteAll (m.filter fun r => !(r.hasKind "Deployment" || r.isAccessControl))
  Manifest.deleteAll (m.filter Resource.isAccessControl)

/-- The filter of `finalize`: another instance that still needs what is installed. -/
def needs (i other : Instance) : Bool := !other.isDeleting && other.key != i.key

/-- `finalize`. -/
def finalize (ctx : Context) (i : Instance) : Operation Unit := do
  if ¬ i.hasFinalizer then return ()
  let instances ← Operation.ask .listInstances
  if ¬ instances.any (needs i) then deleteInstalled ctx i
  Operation.ask (.removeFinalizer i.namespaceName i.name Instance.finalizer)

end ReleaseKeeper.Teardown
