import ReleaseKeeper.Call
/-!
# Leftovers of older releases

Objects that older releases installed and this one does not are deleted in every pass. Those that
are absent are fine.
-/
namespace ReleaseKeeper.Obsolete

def gateway : Option String × String := (some "istio-system", "knative-ingressgateway")

/-- `obsolete_resources`, in order. -/
def keys (targetNamespace : String) : List ResourceKey := [
  ⟨"v1", "Service", gateway.1, gateway.2⟩,
  ⟨"apps/v1", "Deployment", gateway.1, gateway.2⟩,
  ⟨"autoscaling/v1", "HorizontalPodAutoscaler", gateway.1, gateway.2⟩,
  ⟨"v1", "ConfigMap", some targetNamespace, "config-controller"⟩]

def deleteEach : List ResourceKey → Operation Unit
  | [] => return ()
  | key :: rest => do
    match ← (Operation.delete key).outcome with
    | .ok () => deleteEach rest
    | .error e =>
      if e.isNotFound then deleteEach rest
      else throw (.obsoleteCleanup key.describe e.message)

/-- `delete_obsolete`, up to the first that cannot be deleted. -/
def delete (targetNamespace : String) : Operation Unit := deleteEach (keys targetNamespace)

end ReleaseKeeper.Obsolete
