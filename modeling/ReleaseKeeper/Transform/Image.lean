import ReleaseKeeper.Instance.Spec
import ReleaseKeeper.Text.Cut
import ReleaseKeeper.Transform.Basic
/-!
# Images

The image of a container is taken from the overrides of the instance: its own override, else the
default with the container's name in place of the placeholder, else what the release says. The same
holds for resources that only make nodes fetch an image. Pull secrets are added where images are.
-/
namespace ReleaseKeeper

/-- `NAME_PLACEHOLDER`. -/
def namePlaceholder : String := "$\x7bNAME\x7d"

/-- `CACHING_API_VERSION`, of resources that make nodes fetch an image. -/
def cachingApiVersion : String := "caching.internal.knative.dev/v1alpha1"

namespace Registry

/-- `resolve_image`: nothing where the release's image is to be kept. -/
def image? (r : Registry) (container : String) : Option String :=
  match (r.overrides.lookup container).filter (· ≠ "") with
  | some image => some image
  | none =>
    let image := Text.replaceAll namePlaceholder container r.default
    if image = "" then none else some image

def putImage (r : Registry) (name : String) (members : Dict Json) : Dict Json :=
  match r.image? name with
  | some image => Table.put "image" (.str image) members
  | none => members

/-- `add_pull_secrets`: those that are not yet listed. -/
def addPullSecrets (r : Registry) (members : Dict Json) : Dict Json :=
  if r.imagePullSecrets.isEmpty then members
  else Json.withItems "imagePullSecrets" (fun items =>
    r.imagePullSecrets.foldl (fun xs name => Json.addNew (.obj [("name", .str name)]) xs) items)
    members

end Registry

namespace Transformer

/-- `rewrite_workload`. -/
def putWorkloadImages (registry : Registry) (r : Resource) : Resource :=
  (r.mapContainers fun c => registry.putImage (Json.nameOf c) c).mapPodSpec registry.addPullSecrets

/-- `rewrite_caching_image`, which also drops what was observed of the image. -/
def putCachedImage (registry : Registry) (r : Resource) : Resource :=
  (r.within "spec" fun spec => registry.addPullSecrets (registry.putImage r.name spec)).erase
    "status"

/-- `image_registry`. -/
def images (registry : Registry) : Transformer := total "image-registry" fun r =>
  if r.kind = "Deployment" ∨ r.kind = "DaemonSet" then putWorkloadImages registry r
  else if r.kind = "Image" ∧ r.apiVersion = cachingApiVersion then putCachedImage registry r
  else r

end Transformer

end ReleaseKeeper
