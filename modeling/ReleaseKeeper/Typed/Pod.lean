import ReleaseKeeper.Typed.Container
/-!
# The shape of pods

Containers and volumes together with where and how they run, as in version 1.32 of the API
(k8s-openapi).
-/
namespace ReleaseKeeper.Typed.Shape

def nodeSelectorRequirement : Shape := .record "NodeSelectorRequirement" [
  ("key", .text), ("operator", .text), ("values", .list .text)]

/-- Requirements on a node that hold together. -/
def nodeSelectorTerm : Shape := .record "NodeSelectorTerm" [
  ("matchExpressions", .list nodeSelectorRequirement),
  ("matchFields", .list nodeSelectorRequirement)]

/-- Nodes that a pod prefers or has to run on. -/
def nodeAffinity : Shape := .record "NodeAffinity" [
  ("preferredDuringSchedulingIgnoredDuringExecution", .list (.record "PreferredSchedulingTerm" [
    ("preference", nodeSelectorTerm), ("weight", .int32)])),
  ("requiredDuringSchedulingIgnoredDuringExecution", .record "NodeSelector" [
    ("nodeSelectorTerms", .list nodeSelectorTerm)])]

/-- Pods near which, or far from which, a pod runs. -/
def podAffinityTerm : Shape := .record "PodAffinityTerm" [
  ("labelSelector", labelSelector), ("matchLabelKeys", .list .text),
  ("mismatchLabelKeys", .list .text), ("namespaceSelector", labelSelector),
  ("namespaces", .list .text), ("topologyKey", .text)]

/-- Pods near which a pod prefers or has to run, under the name of the record. -/
def podAffinity (name : String) : Shape := .record name [
  ("preferredDuringSchedulingIgnoredDuringExecution", .list (.record "WeightedPodAffinityTerm" [
    ("podAffinityTerm", podAffinityTerm), ("weight", .int32)])),
  ("requiredDuringSchedulingIgnoredDuringExecution", .list podAffinityTerm)]

def podSecurityContext : Shape := .record "PodSecurityContext" [
  ("appArmorProfile", appArmorProfile), ("fsGroup", .int64), ("fsGroupChangePolicy", .text),
  ("runAsGroup", .int64), ("runAsNonRoot", .bool), ("runAsUser", .int64),
  ("seLinuxChangePolicy", .text), ("seLinuxOptions", seLinuxOptions),
  ("seccompProfile", seccompProfile), ("supplementalGroups", .list .int64),
  ("supplementalGroupsPolicy", .text),
  ("sysctls", .list (.record "Sysctl" [("name", .text), ("value", .text)])),
  ("windowsOptions", windowsOptions)]

def podSpec : Shape := .record "PodSpec" [
  ("activeDeadlineSeconds", .int64),
  ("affinity", .record "Affinity" [
    ("nodeAffinity", nodeAffinity), ("podAffinity", podAffinity "PodAffinity"),
    ("podAntiAffinity", podAffinity "PodAntiAffinity")]),
  ("automountServiceAccountToken", .bool), ("containers", .list container),
  ("dnsConfig", .record "PodDNSConfig" [
    ("nameservers", .list .text),
    ("options", .list (.record "PodDNSConfigOption" [("name", .text), ("value", .text)])),
    ("searches", .list .text)]),
  ("dnsPolicy", .text), ("enableServiceLinks", .bool),
  ("ephemeralContainers", .list ephemeralContainer),
  ("hostAliases", .list (.record "HostAlias" [("hostnames", .list .text), ("ip", .text)])),
  ("hostIPC", .bool), ("hostNetwork", .bool), ("hostPID", .bool), ("hostUsers", .bool),
  ("hostname", .text), ("imagePullSecrets", .list localReference),
  ("initContainers", .list container), ("nodeName", .text), ("nodeSelector", .dict .text),
  ("os", .record "PodOS" [("name", .text)]), ("overhead", .dict .text),
  ("preemptionPolicy", .text), ("priority", .int32), ("priorityClassName", .text),
  ("readinessGates", .list (.record "PodReadinessGate" [("conditionType", .text)])),
  ("resourceClaims", .list (.record "PodResourceClaim" [
    ("name", .text), ("resourceClaimName", .text), ("resourceClaimTemplateName", .text)])),
  ("resources", resourceRequirements), ("restartPolicy", .text), ("runtimeClassName", .text),
  ("schedulerName", .text),
  ("schedulingGates", .list (.record "PodSchedulingGate" [("name", .text)])),
  ("securityContext", podSecurityContext), ("serviceAccount", .text),
  ("serviceAccountName", .text), ("setHostnameAsFQDN", .bool), ("shareProcessNamespace", .bool),
  ("subdomain", .text), ("terminationGracePeriodSeconds", .int64),
  ("tolerations", .list (.record "Toleration" [
    ("effect", .text), ("key", .text), ("operator", .text), ("tolerationSeconds", .int64),
    ("value", .text)])),
  ("topologySpreadConstraints", .list (.record "TopologySpreadConstraint" [
    ("labelSelector", labelSelector), ("matchLabelKeys", .list .text), ("maxSkew", .int32),
    ("minDomains", .int32), ("nodeAffinityPolicy", .text), ("nodeTaintsPolicy", .text),
    ("topologyKey", .text), ("whenUnsatisfiable", .text)])),
  ("volumes", .list volume)]

def podTemplate : Shape := .record "PodTemplateSpec" [("metadata", .metadata), ("spec", podSpec)]

end ReleaseKeeper.Typed.Shape
