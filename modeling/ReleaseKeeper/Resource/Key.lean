import ReleaseKeeper.Table
import ReleaseKeeper.Text.Cut
/-!
# The identity of a resource

An object of the cluster is identified by API version, kind, namespace and name (`ResourceKey`). The
API version is a group and a version behind its last slash; the core group has neither name nor
slash. Identities are ordered part by part, objects without a namespace first.
-/
namespace ReleaseKeeper

/-- `parse_api_version`. -/
def groupVersion (apiVersion : String) : String × String :=
  match Text.cutLast '/' apiVersion.toList with
  | some (group, version) => (.ofList group, .ofList version)
  | none => ("", apiVersion)

/-- `CLUSTER_SCOPED_KINDS`. -/
def clusterScopedKinds : List String := [
  "APIService", "ClusterRole", "ClusterRoleBinding", "CustomResourceDefinition",
  "MutatingWebhookConfiguration", "Namespace", "PersistentVolume", "PriorityClass", "StorageClass",
  "ValidatingWebhookConfiguration"]

structure ResourceKey where
  apiVersion : String
  kind : String
  namespaceName : Option String
  name : String
deriving DecidableEq, Repr, Inhabited

/-- `ResourceRef`: the identity under which a status lists an applied resource. -/
structure Reference where
  group : String := ""
  version : String
  kind : String
  namespaceName : Option String := none
  name : String
deriving DecidableEq, Repr, Inhabited

/-- Kind and name, with the namespace if there is one. -/
def describeObject (kind : String) (namespaceName : Option String) (name : String) : String :=
  match namespaceName with
  | some ns => s!"{kind} {ns}/{name}"
  | none => s!"{kind} {name}"

def textsBefore : List String → List String → Bool
  | [], [] => false
  | [], _ :: _ => true
  | _ :: _, [] => false
  | a :: as, b :: bs => if a = b then textsBefore as bs else a < b

/-- Whether one namespace comes before another; having none comes first. -/
def namespaceBefore : Option String → Option String → Bool
  | none, some _ => true
  | some a, some b => a < b
  | _, _ => false

/-- The order of identities: some texts, then the namespace, then the name. -/
def identityBefore (a b : List String × Option String × String) : Bool :=
  if a.1 ≠ b.1 then textsBefore a.1 b.1
  else if a.2.1 ≠ b.2.1 then namespaceBefore a.2.1 b.2.1
  else a.2.2 < b.2.2

namespace ResourceKey

def describe (k : ResourceKey) : String := describeObject k.kind k.namespaceName k.name

instance : KeyOrder ResourceKey where
  before a b := identityBefore ([a.apiVersion, a.kind], a.namespaceName, a.name)
    ([b.apiVersion, b.kind], b.namespaceName, b.name)

end ResourceKey

namespace Reference

def describe (r : Reference) : String := describeObject r.kind r.namespaceName r.name

instance : KeyOrder Reference where
  before a b := identityBefore ([a.group, a.version, a.kind], a.namespaceName, a.name)
    ([b.group, b.version, b.kind], b.namespaceName, b.name)

end Reference

end ReleaseKeeper
