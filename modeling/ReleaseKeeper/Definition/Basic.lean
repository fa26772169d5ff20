import ReleaseKeeper.Definition.Schema
import ReleaseKeeper.Instance.Basic
/-!
# The definition of instances

The definition makes a server accept instances. It says how they are named, what it shows of them in
tables, and what they look like. It is what `crd` derives from `KnativeServing` and the types of its
spec and status.
-/
namespace ReleaseKeeper.Definition

open Schema

/-! ## What is asked for -/

def pullSecret : Schema :=
  described "Name of a Secret in the instance's namespace" (record [
    ("name", .required, described "Secret name" text)])

def registry : Schema := described "Image overrides" (record [
  ("default", .optional, described
    "Image template applied to every container, `$\x7bNAME\x7d` is replaced with the container name"
    text),
  ("imagePullSecrets", .optional, described "Pull secrets appended to every pod spec"
    (list pullSecret)),
  ("override", .optional, described "Per-container image overrides, keyed by container name"
    (dict text))])

def port : Schema := described "Port the server listens on" (record [
  ("name", .optional, described "Port name" text),
  ("number", .required, described "Port number" nat32),
  ("protocol", .optional, described "Protocol, e.g. HTTP" text)])

def server : Schema := described "A Gateway server entry" (record [
  ("hosts", .defaulted (.arr []), described "Hosts exposed by this server" (list text)),
  ("port", .required, port)])

def gateway (name : String) : Schema :=
  described s!"Overrides for the `{name}` Gateway" (record [
    ("selector", .optional, described "Pod selector for the gateway workload" (dict text)),
    ("servers", .optional, described "Server list replacing the manifest's" (list server))])

def customCerts : Schema :=
  described "Extra trust roots mounted into the controller Deployment" (record [
    ("name", .defaulted (.str ""), described "Name of the ConfigMap or Secret" text),
    ("type", .defaulted (.str ""), described "`ConfigMap` or `Secret`" text)])

def computeResources : Schema :=
  described "Container compute resources, quantities kept as strings" (record [
    ("limits", .optional, described "Resource limits, e.g. `cpu: 1`" (dict text)),
    ("requests", .optional, described "Resource requests, e.g. `memory: 100Mi`" (dict text))])

/-- `KnativeServingSpec`. -/
def spec : Schema :=
  described "Desired configuration of a Knative Serving installation" (record [
    ("clusterLocalGateway", .nullable, gateway "cluster-local-gateway"),
    ("config", .optional, described
      ("ConfigMap overrides keyed by the suffix after `config-` " ++
        "(e.g. `network` targets `config-network`)")
      (dict (dict text))),
    ("controllerCustomCerts", .nullable, customCerts),
    ("knativeIngressGateway", .nullable, gateway "knative-ingress-gateway"),
    ("namespace", .nullable, described
      "Namespace the operand is installed into, defaults to the instance's" text),
    ("registry", .defaulted (.obj []), registry),
    ("resources", .optional, described "Compute resources per container name"
      (dict computeResources))])

/-! ## What is observed -/

def condition : Schema := described "Kubernetes-style condition for status reporting" (record [
  ("lastTransitionTime", .required, described "Last time the condition's status changed" time),
  ("message", .optional, described "Human-readable message" text),
  ("reason", .optional, described "Machine-readable reason for the condition" text),
  ("status", .required, described "Status of the condition (True, False, Unknown)"
    (choice ["True", "False", "Unknown"])),
  ("type", .required, described "Type of condition (e.g., Ready, InstallSucceeded)" text)])

/-- `ResourceRef`. -/
def reference : Schema :=
  described "Identity of a resource the operator applied, recorded in status" (record [
    ("group", .defaulted (.str ""), described "API group, empty for the core group" text),
    ("kind", .required, described "Resource kind" text),
    ("name", .required, described "Resource name" text),
    ("namespace", .nullable, described "Namespace, absent for cluster-scoped resources" text),
    ("version", .required, described "API version within the group" text)])

/-- `KnativeServingStatus`. -/
def status : Schema := described "Observed state of a KnativeServing instance" (record [
  ("conditions", .defaulted (.arr []), described "Ready, InstallSucceeded, DeploymentsAvailable"
    (list condition)),
  ("observedGeneration", .nullable, described "Generation the status was computed for" int64),
  ("resources", .optional, described "Resources applied by the last install attempt"
    (list reference)),
  ("version", .nullable, described "Release version of the last successful install" text)])

/-! ## The whole -/

def schema : Schema :=
  described "Auto-generated derived type for KnativeServingSpec via `CustomResource`" (record [
    ("spec", .required, spec), ("status", .nullable, status)])

def column (name path : String) : Json :=
  .object [("name", .str name), ("type", .str "string"), ("jsonPath", .str path)]

/-- The path of a part of the condition about readiness. -/
def readyPath (part : String) : String := s!".status.conditions[?(@.type==\"Ready\")].{part}"

def columns : List Json := [
  column "Version" ".status.version", column "Ready" (readyPath "status"),
  column "Reason" (readyPath "reason")]

def plural : String := "knativeservings"

def names : Json := .object [
  ("categories", .arr []), ("kind", .str Instance.kind), ("plural", .str plural),
  ("shortNames", .arr [.str "ks"]), ("singular", .str "knativeserving")]

def version : Json := .object [
  ("additionalPrinterColumns", .arr columns),
  ("name", .str Instance.version),
  ("schema", .object [("openAPIV3Schema",
    .obj (Table.put "title" (.str Instance.kind) schema.members))]),
  ("served", .bool true),
  ("storage", .bool true),
  ("subresources", .object [("status", .obj [])])]

def name : String := s!"{plural}.{Instance.group}"

def apiVersion : String := "apiextensions.k8s.io/v1"

def kind : String := "CustomResourceDefinition"

/-- The definition. -/
def toJson : Json := .object [
  ("apiVersion", .str apiVersion),
  ("kind", .str kind),
  ("metadata", .object [("name", .str name)]),
  ("spec", .object [
    ("group", .str Instance.group), ("names", names), ("scope", .str "Namespaced"),
    ("versions", .arr [version])])]

end ReleaseKeeper.Definition
