import ReleaseKeeper.Proofs.Cluster.Applied
import ReleaseKeeper.Proofs.Transform.Identity

/-!
# What the settings make of a resource

The entries that an instance names are put on top of the data of a config map, which is made where
there is none (`lookup_configMaps`); selector and servers that it names take the place of those in
the spec of a gateway (`lookup_gateways`). Both are about the resource as it is desired, before it
meets what is live.
-/
namespace ReleaseKeeper

namespace Json

theorem objectAt_ofTexts {key : String} {members : Dict Json} {texts? : Option (Dict String)}
    (h : members.lookup key = texts?.map ofTexts) :
    objectAt key members = (texts?.getD []).map fun e => (e.1, .str e.2) := by
  rw [objectAt, h]
  cases texts? <;> rfl

theorem exact_port (p : GatewayPort) : p.toJson.Exact := by
  refine exact_present ?_
  simp only [List.forall_mem_cons, List.not_mem_nil, false_imp_iff, implies_true, and_true]
  refine ⟨exact_nonemptyText _, fun x hx => ?_, exact_nonemptyText _⟩
  obtain rfl := Option.some.inj hx
  exact exact_int _

theorem exact_server (s : GatewayServer) : s.toJson.Exact := by
  refine exact_obj ?_
  simp only [List.forall_mem_cons, List.not_mem_nil, false_imp_iff, implies_true, and_true]
  refine ⟨exact_arr fun y hy => ?_, exact_port s.port⟩
  obtain ⟨host, -, rfl⟩ := List.mem_map.1 hy
  exact exact_str host

theorem exact_servers (servers : List GatewayServer) :
    (arr (servers.map GatewayServer.toJson)).Exact := by
  refine exact_arr fun y hy => ?_
  obtain ⟨server, -, rfl⟩ := List.mem_map.1 hy
  exact exact_server server

end Json

/-- What a transformer leaves alone stays proper. -/
theorem Resource.Aside.proper {r out : Resource} (h : r.Aside out) (hr : r.Proper) : out.Proper :=
  ⟨h.gentle.ordered hr.ordered, h.gentle.keeps.valid hr.valid⟩

namespace Transformer

variable {r out : Resource}

/-! ## Config maps -/

/-- The data of a config map once the entries that are given for it are set, if it has any. -/
def dataGiven (data? entries? : Option (Dict String)) : Option (Dict String) :=
  match entries? with
  | some entries => some (Table.overlay entries (data?.getD []))
  | none => data?

/-- A config map of the release gets the entries for its suffix on top of its own. -/
theorem lookup_configMaps {config : Dict (Dict String)} {suffix : String}
    {data? : Option (Dict String)} (hkind : r.kind = "ConfigMap")
    (hname : configSuffix? r.name = some suffix)
    (hdata : r.members.lookup "data" = data?.map Json.ofTexts)
    (h : (configMaps config).apply r = .ok out) :
    out.members.lookup "data" = (dataGiven data? (config.lookup suffix)).map Json.ofTexts := by
  obtain rfl := total_eq_ok.1 h
  rw [if_pos hkind, hname, Option.bind_some]
  cases config.lookup suffix with
  | none => exact hdata
  | some entries =>
    have hset : (putData entries r).members.lookup "data" = some (.obj (Table.overlay
        (entries.map fun e => (e.1, .str e.2)) (Json.objectAt "data" r.members))) := by
      rw [putData, Resource.within, Json.withObject, Table.lookup_put, if_pos rfl]
    rw [hset, Json.objectAt_ofTexts hdata, ← Table.map_overlay]
    rfl

/-! ## Gateways -/

variable {o : GatewayOverride} {spec : Dict Json}

theorem lookup_gateways {i : Instance} (hkind : r.kind = "Gateway")
    (hgroup : r.group = gatewayGroup) (ho : i.gatewayOverride? r.name = some o)
    (h : (gateways i).apply r = .ok out) :
    out.members.lookup "spec" = some (.obj (putGateway o (Json.objectAt "spec" r.members))) := by
  obtain rfl := total_eq_ok.1 h
  rw [if_pos ⟨hkind, hgroup⟩, ho]
  simp [Resource.within, Json.withObject, Table.lookup_put]

theorem sorted_putGateway (h : Table.Sorted spec) : Table.Sorted (putGateway o spec) := by
  unfold putGateway
  dsimp only
  split <;> split
  · exact h
  · exact Table.sorted_put h
  · exact Table.sorted_put h
  · exact Table.sorted_put (Table.sorted_put h)

theorem lookup_putGateway_servers (h : o.servers ≠ []) :
    (putGateway o spec).lookup "servers" = some (.arr (o.servers.map GatewayServer.toJson)) := by
  rw [putGateway, if_neg (by simpa using h), Table.lookup_put, if_pos rfl]

theorem lookup_putGateway_selector (h : o.selector ≠ []) :
    (putGateway o spec).lookup "selector" = some (.ofTexts o.selector) := by
  unfold putGateway
  rw [if_neg (by simpa using h : ¬ o.selector.isEmpty = true)]
  dsimp only
  split
  · rw [Table.lookup_put, if_pos rfl]
  · rw [Table.lookup_put, if_neg (by decide), Table.lookup_put, if_pos rfl]

end Transformer

end ReleaseKeeper
