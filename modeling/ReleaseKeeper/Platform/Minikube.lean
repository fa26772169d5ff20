import ReleaseKeeper.Platform.Basic
import ReleaseKeeper.Resource.Role
import ReleaseKeeper.Transform.Setting
/-!
# Minikube, and limits on egress

The network settings of the release can say which addresses a sidecar takes traffic to. Minikube is
found by a node of that name; there sidecars take traffic to the service addresses only, so that pods
can still reach the host.
-/
namespace ReleaseKeeper.Transformer

/-- `OUTBOUND_IP_RANGES_KEY`. -/
def egressKey : String := "istio.sidecar.includeOutboundIPRanges"

/-- `outbound_ip_ranges`, which sets nothing where there are none. -/
def egress (name ranges : String) : Transformer := total name fun r =>
  if r.hasName "ConfigMap" "config-network" ∧ ranges ≠ "" then putData [(egressKey, ranges)] r
  else r

end ReleaseKeeper.Transformer

namespace ReleaseKeeper.Platform

/-- `MINIKUBE_SERVICE_RANGE`. -/
def minikubeRange : String := "10.0.0.1/24"

/-- `Minikube`. -/
def minikube : Platform where
  name := "minikube"
  detect := do
    match ← Operation.get ⟨"v1", "Node", none, "minikube"⟩ with
    | none => return none
    | some _ => return some { transformers := [Transformer.egress "minikube-egress" minikubeRange] }

end ReleaseKeeper.Platform
