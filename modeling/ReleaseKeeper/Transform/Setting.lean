import ReleaseKeeper.Instance.Basic
import ReleaseKeeper.Text.Cut
import ReleaseKeeper.Transform.Basic
/-!
# Settings

Compute resources of containers, gateways and config maps are changed as the instance asks. What it
names replaces the release's value whole; what it does not name stays.
-/
namespace ReleaseKeeper.Transformer

def putCompute (overrides : Dict ComputeResources) (container : Dict Json) : Dict Json :=
  match overrides.lookup (Json.nameOf container) with
  | some compute => Table.put "resources" compute.toJson container
  | none => container

/-- `resource_requirements`, of the containers of deployments. -/
def computeResources (overrides : Dict ComputeResources) : Transformer :=
  total "resource-requirements" fun r =>
    if r.kind = "Deployment" then r.mapContainers (putCompute overrides) else r

def gatewayGroup : String := "networking.istio.io"

def putGateway (o : GatewayOverride) (spec : Dict Json) : Dict Json :=
  let spec := if o.selector.isEmpty then spec else Table.put "selector" (.ofTexts o.selector) spec
  if o.servers.isEmpty then spec
  else Table.put "servers" (.arr (o.servers.map GatewayServer.toJson)) spec

/-- `gateway_overrides`. -/
def gateways (i : Instance) : Transformer := total "gateway" fun r =>
  if r.kind = "Gateway" ∧ r.group = gatewayGroup then
    match i.gatewayOverride? r.name with
    | some o => r.within "spec" (putGateway o)
    | none => r
  else r

/-- `set_config_map_data`, which keeps the other entries. -/
def putData (entries : Dict String) (r : Resource) : Resource :=
  r.within "data" (Table.overlay (entries.map fun (k, v) => (k, .str v)))

/-- What the name of a config map has behind `config-`. -/
def configSuffix? (name : String) : Option String :=
  (Text.afterPrefix "config-".toList name.toList).map .ofList

/-- `config_map_overrides`. -/
def configMaps (config : Dict (Dict String)) : Transformer := total "config-map" fun r =>
  if r.kind = "ConfigMap" then
    match (configSuffix? r.name).bind fun suffix => config.lookup suffix with
    | some entries => putData entries r
    | none => r
  else r

end ReleaseKeeper.Transformer
