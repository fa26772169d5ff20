import ReleaseKeeper.Manifest.Apply
import ReleaseKeeper.Transform.Namespace
/-!
# The default instance

`ensure_default_instance`. A cluster that runs the operator gets one instance without anybody
creating it, together with the namespaces of the release.
-/
namespace ReleaseKeeper.Startup

/-- An instance that changes nothing of the release. -/
def defaultInstance (namespaceName name : String) : Instance where
  metadata := { name := some name, namespaceName := some namespaceName }
  spec := {}

def applyEach : List Resource → Operation Unit
  | [] => return ()
  | r :: rest => do
    let _ ← Manifest.apply r
    applyEach rest

def namespaces (m : Manifest) (namespaceName : String) : Except Error Manifest :=
  (Manifest.ofKind "Namespace" m).mapM (Transformer.inNamespace namespaceName).apply

/-- Creates the default instance, unless someone else did. -/
def createDefault (namespaceName name : String) : Operation Unit := do
  match ← (Operation.ask (.createInstance (defaultInstance namespaceName name))).outcome with
  | .ok _ => return ()
  | .error e => if e.isConflict then return () else throw e

/-- `ensure_default_instance`, which does nothing where the instance exists. -/
def ensureDefault (m : Manifest) (namespaceName name : String) : Operation Unit := do
  match ← Operation.ask (.getInstance namespaceName name) with
  | some _ => return ()
  | none =>
    let resources ← namespaces m namespaceName
    applyEach resources
    createDefault namespaceName name

end ReleaseKeeper.Startup
