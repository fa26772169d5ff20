import ReleaseKeeper.Instance.Spec
import ReleaseKeeper.Instance.Status
/-!
# Instances

An instance (`KnativeServing`) is one installation of the release. It lives in a namespace of its
own and is installed into a namespace that may be another one; only what is in its own namespace can
belong to it.
-/
namespace ReleaseKeeper

/-- `KnativeServing`. -/
structure Instance where
  metadata : Metadata
  spec : InstanceSpec
  status : Option InstanceStatus := none
deriving Repr, Inhabited

open Typed Typed.Reader

namespace Instance

def group : String := "operator.knative.dev"

def version : String := "v1alpha1"

def apiVersion : String := "operator.knative.dev/v1alpha1"

def kind : String := "KnativeServing"

/-- `SERVING_FINALIZER`, which keeps an instance until its release is removed. -/
def finalizer : String := "delete-knative-serving-manifest"

/-- `DEFAULT_OPERAND_NAMESPACE`. -/
def defaultNamespace : String := "knative-serving"

def ofJson : Reader Instance :=
  record kind 3
    (fun fields => do
      let metadata ← field? fields "metadata" Metadata.ofJson
      let spec ← field? fields "spec" InstanceSpec.ofJson
      let status ← field? fields "status" (option InstanceStatus.ofJson)
      let metadata ← orMissing "metadata" metadata
      let spec ← orMissing "spec" spec
      return { metadata, spec, status := status.join })
    do
      let metadata ← Listed.next Metadata.ofJson
      let spec ← Listed.next InstanceSpec.ofJson
      let status ← Listed.next (option InstanceStatus.ofJson)
      return { metadata, spec, status }

def toJson (i : Instance) : Json := .present [
  ("apiVersion", some (.str apiVersion)),
  ("kind", some (.str kind)),
  ("metadata", some i.metadata.toJson),
  ("spec", some i.spec.toJson),
  ("status", i.status.map InstanceStatus.toJson)]

def namespaceName (i : Instance) : String := i.metadata.namespaceName.getD ""

def name (i : Instance) : String := i.metadata.anyName

/-- `identity`: namespace and name, under which the instance is stored. -/
def identity (i : Instance) : String × String := (i.namespaceName, i.name)

/-- `key`: both in one text. -/
def key (i : Instance) : String := s!"{i.namespaceName}/{i.name}"

/-- `target_namespace`: the one asked for, else the instance's own. -/
def targetNamespace (i : Instance) : String :=
  match i.spec.targetNamespace.filter (· ≠ "") with
  | some ns => ns
  | none => i.metadata.namespaceName.getD defaultNamespace

/-- `can_own_operand`: the release is installed into the instance's own namespace. -/
def canOwn (i : Instance) : Bool := i.metadata.namespaceName = some i.targetNamespace

/-- `controller_owner_ref` of the kube client; it takes a name and a uid. -/
def ownerReference? (i : Instance) : Option OwnerReference :=
  match i.metadata.name, i.metadata.uid with
  | some name, some uid => some { apiVersion, controller := some true, kind, name, uid }
  | _, _ => none

/-- `gateway_override`; two gateways are known. -/
def gatewayOverride? (i : Instance) (gateway : String) : Option GatewayOverride :=
  if gateway = "knative-ingress-gateway" then i.spec.ingressGateway
  else if gateway = "cluster-local-gateway" then i.spec.localGateway
  else none

def isDeleting (i : Instance) : Bool := i.metadata.deletionTimestamp.isSome

def finalizers (i : Instance) : List String := i.metadata.finalizers.getD []

/-- `has_finalizer`: the instance waits for its release to be removed. -/
def hasFinalizer (i : Instance) : Bool := i.finalizers.contains finalizer

def withFinalizers (i : Instance) (finalizers : List String) : Instance :=
  { i with metadata := { i.metadata with finalizers := some finalizers } }

def currentStatus (i : Instance) : InstanceStatus := i.status.getD {}

/-- `status_mut`: the status starts out empty. -/
def mapStatus (f : InstanceStatus → InstanceStatus) (i : Instance) : Instance :=
  { i with status := some (f i.currentStatus) }

end Instance

end ReleaseKeeper
