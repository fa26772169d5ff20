import ReleaseKeeper.Transform.Certs
import ReleaseKeeper.Transform.Image
import ReleaseKeeper.Transform.Namespace
import ReleaseKeeper.Transform.Owner
import ReleaseKeeper.Transform.Setting
/-!
# The pipeline of an instance

Every resource gets its owner and its namespace first, then what the spec of the instance changes.
Platforms append transformers of their own.
-/
namespace ReleaseKeeper.Pipeline

/-- `builtin`, the transformers that every instance has; it takes an instance with a uid. -/
def builtin (i : Instance) : Except Error Pipeline := do
  return [
    ← Transformer.owner i,
    Transformer.inNamespace i.targetNamespace,
    Transformer.images i.spec.registry,
    Transformer.computeResources i.spec.resources,
    Transformer.gateways i,
    Transformer.configMaps i.spec.config,
    Transformer.customCerts i.spec.customCerts]

end ReleaseKeeper.Pipeline
