import ReleaseKeeper.Platform.Minikube
import ReleaseKeeper.Transform.Certs
/-!
# OpenShift

Found by the kind of its routes. Routes are served under the domain of the cluster, sidecars take
traffic to the service network, and the controller trusts the certificates of services: a hook
creates the config map that they are filled into, which is mounted into the controller.
-/
namespace ReleaseKeeper

namespace Transformer

/-- `ingress_domain`, which sets nothing where the domain is empty. -/
def ingressDomain (domain : String) : Transformer := total "openshift-domain" fun r =>
  if r.hasName "ConfigMap" "config-domain" ∧ domain ≠ "" then putData [(domain, "")] r else r

/-- `CA_BUNDLE_CONFIG_MAP`, which the certificates of services are filled into. -/
def serviceCertsMap : String := "config-service-ca"

def serviceCertsVolume : String := "service-ca"

def serviceCertsPath : String := "/var/run/secrets/kubernetes.io/servicecerts"

def hasServiceCerts (pod : Dict Json) : Bool :=
  (Json.itemsAt "volumes" pod).any fun v => v.getStr? "name" = some serviceCertsVolume

def addServiceCerts : Dict Json → Dict Json :=
  Json.withItems "volumes" (· ++ [.obj [
    ("configMap", .obj [("name", .str serviceCertsMap)]), ("name", .str serviceCertsVolume)]])

/-- `service_ca_bundle`: mounts the certificates into the controller, unless they are mounted. -/
def serviceCerts : Transformer := total "openshift-service-ca" fun r =>
  match r.podSpec? with
  | none => r
  | some pod =>
    if ¬ r.isController ∨ hasServiceCerts pod then r
    else
      let file := s!"{serviceCertsPath}/service-ca.crt"
      (r.mapPodSpec addServiceCerts).mapFirstContainer
        (mount serviceCertsVolume serviceCertsPath "SSL_CERT_FILE" file)

end Transformer

namespace Platform

/-- `cluster_config`: a setting of the whole cluster. -/
def clusterSetting (kind : String) : Operation (Option Resource) :=
  Operation.get ⟨"config.openshift.io/v1", kind, none, "cluster"⟩

def ingressDomainOf (setting : Option Resource) : String :=
  ((setting.bind (·.pointer? "/spec/domain")).bind Json.asStr?).getD ""

/-- `service_network`, empty if it is not known. -/
def serviceNetworkOf (setting : Option Resource) : String :=
  let items := ((setting.bind (·.pointer? "/spec/serviceNetwork")).bind Json.asArr?).getD []
  ",".intercalate (items.filterMap Json.asStr?)

def serviceCertsResource (i : Instance) : Resource :=
  let owners := if i.canOwn then i.ownerReference?.toList else []
  ⟨[
    ("apiVersion", .str "v1"),
    ("kind", .str "ConfigMap"),
    ("metadata", .obj [
      ("annotations", .obj [("service.alpha.openshift.io/inject-cabundle", .str "true")]),
      ("name", .str Transformer.serviceCertsMap),
      ("namespace", .str i.targetNamespace),
      ("ownerReferences", .arr (owners.map OwnerReference.toJson))])]⟩

/-- `CaBundleConfigMap`, the hook before an installation. -/
def createServiceCerts : Hook where
  name := "ca-bundle-config-map"
  run i := do
    let ns := i.targetNamespace
    match ← Operation.get ⟨"v1", "ConfigMap", some ns, Transformer.serviceCertsMap⟩ with
    | some _ => return ()
    | none =>
      match ← (Operation.create (serviceCertsResource i)).outcome with
      | .ok () => return ()
      | .error (.conflict ..) => return ()
      | .error e => throw e

/-- `OpenShift`. -/
def openShift : Platform where
  name := "openshift"
  detect := do
    if ← Operation.kindExists "route.openshift.io/v1" "Route" then
      let domain := ingressDomainOf (← clusterSetting "Ingress")
      let network := serviceNetworkOf (← clusterSetting "Network")
      return some {
        transformers := [
          Transformer.ingressDomain domain,
          Transformer.egress "openshift-egress" network,
          Transformer.serviceCerts]
        before := [createServiceCerts] }
    else return none

end Platform

end ReleaseKeeper
