import ReleaseKeeper.Instance.Spec
import ReleaseKeeper.Resource.Role
import ReleaseKeeper.Transform.Basic
/-!
# Certificates of the controller

A config map or secret with certificates is mounted into the first container of the controller, and
an environment variable tells where.
-/
namespace ReleaseKeeper

def controllerDeployment : String := "controller"

def Resource.isController (r : Resource) : Bool := r.hasName "Deployment" controllerDeployment

namespace Transformer

/-- `CUSTOM_CERTS_MOUNT_PATH`. -/
def certsPath : String := "/custom-certs"

def certsName : String := "custom-certs"

/-- Mounts a volume into a container and points an environment variable to a path. -/
def mount (volume path env value : String) (container : Dict Json) : Dict Json :=
  let mounted := Json.withItems "volumeMounts"
    (Json.putNamed (.obj [("mountPath", .str path), ("name", .str volume)])) container
  Json.withItems "env" (Json.putNamed (.obj [("name", .str env), ("value", .str value)])) mounted

def mountCerts (volume : String) (source : String × Json) (r : Resource) : Resource :=
  let entry := Json.object [("name", .str volume), source]
  (r.mapPodSpec (Json.withItems "volumes" (Json.putNamed entry))).mapFirstContainer
    (mount volume certsPath "SSL_CERT_DIR" certsPath)

/-- `configure`, which takes a known kind of source and a name. -/
def configureCerts (c : CustomCerts) (r : Resource) : Except Error Resource :=
  match c.known? with
  | none => .error (.transform certsName r.describe s!"Unknown CustomCerts type: {c.kind}")
  | some known =>
    if c.name = "" then
      .error (.transform certsName r.describe s!"CustomCerts name for {c.kind} is required")
    else
      let source := match known with
        | .configMap => ("configMap", Json.obj [("name", .str c.name)])
        | .secret => ("secret", Json.obj [("secretName", .str c.name)])
      .ok (mountCerts s!"custom-certs-{c.name}" source r)

/-- `custom_certs`. -/
def customCerts (certs : Option CustomCerts) : Transformer where
  name := certsName
  change r :=
    match certs with
    | none => .ok r
    | some c =>
      if (c.kind = "" ∧ c.name = "") ∨ ¬ r.isController then .ok r else configureCerts c r

end Transformer

end ReleaseKeeper
