import ReleaseKeeper.Metadata
/-!
# What an instance asks for

The spec of an instance (`KnativeServingSpec`) holds what the user wants changed in the release:
settings, images, gateways, certificates, compute resources and the namespace to install into. Parts
that are left out change nothing.
-/
namespace ReleaseKeeper

structure Registry where
  /-- The image of every container, with a placeholder for the container's name. -/
  default : String := ""
  /-- Images of single containers. -/
  overrides : Dict String := []
  /-- The names of the secrets to pull images with. -/
  imagePullSecrets : List String := []
deriving DecidableEq, Repr, Inhabited

structure GatewayPort where
  number : Nat
  name : String := ""
  protocol : String := ""
deriving DecidableEq, Repr, Inhabited

structure GatewayServer where
  hosts : List String := []
  port : GatewayPort
deriving DecidableEq, Repr, Inhabited

structure GatewayOverride where
  selector : Dict String := []
  servers : List GatewayServer := []
deriving DecidableEq, Repr, Inhabited

/-- Where the certificates that the controller trusts are kept. -/
structure CustomCerts where
  kind : String := ""
  name : String := ""
deriving DecidableEq, Repr, Inhabited

inductive CertsKind where
  | configMap
  | secret
deriving DecidableEq, Repr

/-- `parsed_kind`. -/
def CustomCerts.known? (c : CustomCerts) : Option CertsKind :=
  if c.kind = "ConfigMap" then some .configMap
  else if c.kind = "Secret" then some .secret
  else none

structure ComputeResources where
  limits : Dict String := []
  requests : Dict String := []
deriving DecidableEq, Repr, Inhabited

/-- `KnativeServingSpec`. -/
structure InstanceSpec where
  /-- Entries of config maps, under what their names have behind `config-`. -/
  config : Dict (Dict String) := []
  registry : Registry := {}
  ingressGateway : Option GatewayOverride := none
  localGateway : Option GatewayOverride := none
  customCerts : Option CustomCerts := none
  /-- Compute resources under the names of containers. -/
  resources : Dict ComputeResources := []
  targetNamespace : Option String := none
deriving DecidableEq, Repr, Inhabited

open Typed Typed.Reader

/-- A `LocalObjectReference`, of which only the name is kept. -/
def Registry.readSecret : Reader String :=
  record "LocalObjectReference" 1
    (fun fields => do orMissing "name" (← field? fields "name" text))
    (Listed.next text)

def Registry.ofJson : Reader Registry :=
  record "Registry" 3
    (fun fields => do
      let default ← field? fields "default" text
      let secrets ← field? fields "imagePullSecrets" (list readSecret)
      let overrides ← field? fields "override" (dict text)
      return {
        default := default.getD "", overrides := overrides.getD []
        imagePullSecrets := secrets.getD [] })
    do
      let default ← Listed.nextOr "" text
      let overrides ← Listed.nextOr [] (dict text)
      let imagePullSecrets ← Listed.nextOr [] (list readSecret)
      return { default, overrides, imagePullSecrets }

def Registry.toJson (r : Registry) : Json := .present [
  ("default", Json.nonemptyText r.default),
  ("imagePullSecrets", Json.nonemptyList r.imagePullSecrets fun name => .obj [("name", .str name)]),
  ("override", Json.nonemptyObject r.overrides .str)]

def GatewayPort.ofJson : Reader GatewayPort :=
  record "GatewayPort" 3
    (fun fields => do
      let name ← field? fields "name" text
      let number ← field? fields "number" nat32
      let protocol ← field? fields "protocol" text
      let number ← orMissing "number" number
      return { number, name := name.getD "", protocol := protocol.getD "" })
    do
      let number ← Listed.next nat32
      let name ← Listed.nextOr "" text
      let protocol ← Listed.nextOr "" text
      return { number, name, protocol }

def GatewayPort.toJson (p : GatewayPort) : Json := .present [
  ("name", Json.nonemptyText p.name),
  ("number", some (.int p.number)),
  ("protocol", Json.nonemptyText p.protocol)]

def GatewayServer.ofJson : Reader GatewayServer :=
  record "GatewayServer" 2
    (fun fields => do
      let hosts ← field? fields "hosts" (list text)
      let port ← field? fields "port" GatewayPort.ofJson
      let port ← orMissing "port" port
      return { hosts := hosts.getD [], port })
    do
      let hosts ← Listed.nextOr [] (list text)
      let port ← Listed.next GatewayPort.ofJson
      return { hosts, port }

def GatewayServer.toJson (s : GatewayServer) : Json := .obj [
  ("hosts", .arr (s.hosts.map .str)),
  ("port", s.port.toJson)]

def GatewayOverride.ofJson : Reader GatewayOverride :=
  record "GatewayOverride" 2
    (fun fields => do
      let selector ← field? fields "selector" (dict text)
      let servers ← field? fields "servers" (list GatewayServer.ofJson)
      return { selector := selector.getD [], servers := servers.getD [] })
    do
      let selector ← Listed.nextOr [] (dict text)
      let servers ← Listed.nextOr [] (list GatewayServer.ofJson)
      return { selector, servers }

def GatewayOverride.toJson (g : GatewayOverride) : Json := .present [
  ("selector", Json.nonemptyObject g.selector .str),
  ("servers", Json.nonemptyList g.servers GatewayServer.toJson)]

def CustomCerts.ofJson : Reader CustomCerts :=
  record "CustomCerts" 2
    (fun fields => do
      let name ← field? fields "name" text
      let kind ← field? fields "type" text
      return { kind := kind.getD "", name := name.getD "" })
    do
      let kind ← Listed.nextOr "" text
      let name ← Listed.nextOr "" text
      return { kind, name }

def CustomCerts.toJson (c : CustomCerts) : Json := .obj [
  ("name", .str c.name),
  ("type", .str c.kind)]

def ComputeResources.ofJson : Reader ComputeResources :=
  record "ResourceRequirements" 2
    (fun fields => do
      let limits ← field? fields "limits" (dict text)
      let requests ← field? fields "requests" (dict text)
      return { limits := limits.getD [], requests := requests.getD [] })
    do
      let limits ← Listed.nextOr [] (dict text)
      let requests ← Listed.nextOr [] (dict text)
      return { limits, requests }

def ComputeResources.toJson (c : ComputeResources) : Json := .present [
  ("limits", Json.nonemptyObject c.limits .str),
  ("requests", Json.nonemptyObject c.requests .str)]

namespace InstanceSpec

/-- Gateways and certificates are read under a second name each. -/
def ofJson : Reader InstanceSpec :=
  record "KnativeServingSpec" 7
    (fun fields => do
      let localGateway ← aliased? fields "cluster-local-gateway" "clusterLocalGateway"
        (option GatewayOverride.ofJson)
      let config ← field? fields "config" (dict (dict text))
      let customCerts ← aliased? fields "controller-custom-certs" "controllerCustomCerts"
        (option CustomCerts.ofJson)
      let ingressGateway ← aliased? fields "knative-ingress-gateway" "knativeIngressGateway"
        (option GatewayOverride.ofJson)
      let targetNamespace ← field? fields "namespace" (option text)
      let registry ← field? fields "registry" Registry.ofJson
      let resources ← field? fields "resources" (dict ComputeResources.ofJson)
      return {
        config := config.getD [], registry := registry.getD {}
        ingressGateway := ingressGateway.join, localGateway := localGateway.join
        customCerts := customCerts.join, resources := resources.getD []
        targetNamespace := targetNamespace.join })
    do
      let config ← Listed.nextOr [] (dict (dict text))
      let registry ← Listed.nextOr {} Registry.ofJson
      let ingressGateway ← Listed.nextOr none (option GatewayOverride.ofJson)
      let localGateway ← Listed.nextOr none (option GatewayOverride.ofJson)
      let customCerts ← Listed.nextOr none (option CustomCerts.ofJson)
      let resources ← Listed.nextOr [] (dict ComputeResources.ofJson)
      let targetNamespace ← Listed.nextOr none (option text)
      return {
        config, registry, ingressGateway, localGateway, customCerts, resources, targetNamespace }

def toJson (s : InstanceSpec) : Json := .present [
  ("clusterLocalGateway", s.localGateway.map GatewayOverride.toJson),
  ("config", Json.nonemptyObject s.config .ofTexts),
  ("controllerCustomCerts", s.customCerts.map CustomCerts.toJson),
  ("knativeIngressGateway", s.ingressGateway.map GatewayOverride.toJson),
  ("namespace", s.targetNamespace.map .str),
  ("registry", some s.registry.toJson),
  ("resources", Json.nonemptyObject s.resources ComputeResources.toJson)]

end InstanceSpec

end ReleaseKeeper
