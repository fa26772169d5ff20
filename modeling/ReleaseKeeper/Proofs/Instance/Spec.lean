import ReleaseKeeper.Instance.Spec
import ReleaseKeeper.Proofs.Typed.Members

/-!
# What an instance asks for is read back

Each part of a spec is read back from what was written of it: a part that is left out because it is
empty is read as what stands for a part that is missing, and an optional part that is given is written
even if it is empty in itself. The numbers of ports are the only values with bounds
(`GatewayOverride.InRange`), and all that were read are within them (`InstanceSpec.inRange_of_ofJson`).
-/
namespace ReleaseKeeper

open Typed Typed.Reader Json

variable {x : Json}

namespace Registry

def members (r : Registry) : List (String × Option Json) := [
  ("default", nonemptyText r.default),
  ("imagePullSecrets", nonemptyList r.imagePullSecrets fun name => .obj [("name", .str name)]),
  ("override", nonemptyObject r.overrides .str)]

theorem ofJson_toJson (r : Registry) : Registry.ofJson r.toJson = .ok r := by
  have hn : (r.members.map (·.1)).Nodup := by
    change ["default", "imagePullSecrets", "override"].Nodup
    decide
  obtain ⟨default?, hdefault, hd⟩ : ∃ s?, field? (keptMembers r.members) "default" text = .ok s? ∧
      s?.getD "" = r.default := field?_nonemptyText hn rfl
  obtain ⟨secrets?, hsecrets, hs⟩ : ∃ ys?, field? (keptMembers r.members) "imagePullSecrets"
      (list readSecret) = .ok ys? ∧ ys?.getD [] = r.imagePullSecrets :=
    field?_nonemptyList hn rfl fun _ _ => rfl
  obtain ⟨overrides?, hoverrides, ho⟩ : ∃ ys?, field? (keptMembers r.members) "override" (dict text) =
      .ok ys? ∧ ys?.getD [] = r.overrides := field?_nonemptyObject hn rfl fun _ => rfl
  have hjson : r.toJson = .obj (keptMembers r.members) := rfl
  rw [hjson, ofJson, record, hdefault, hsecrets, hoverrides]
  change Except.ok (Registry.mk (default?.getD "") (overrides?.getD []) (secrets?.getD [])) = _
  rw [hd, hs, ho]

end Registry

namespace ComputeResources

def members (c : ComputeResources) : List (String × Option Json) := [
  ("limits", nonemptyObject c.limits .str),
  ("requests", nonemptyObject c.requests .str)]

theorem ofJson_toJson (c : ComputeResources) : ComputeResources.ofJson c.toJson = .ok c := by
  have hn : (c.members.map (·.1)).Nodup := by
    change ["limits", "requests"].Nodup
    decide
  obtain ⟨limits?, hlimits, hl⟩ : ∃ ys?, field? (keptMembers c.members) "limits" (dict text) =
      .ok ys? ∧ ys?.getD [] = c.limits := field?_nonemptyObject hn rfl fun _ => rfl
  obtain ⟨requests?, hrequests, hr⟩ : ∃ ys?, field? (keptMembers c.members) "requests" (dict text) =
      .ok ys? ∧ ys?.getD [] = c.requests := field?_nonemptyObject hn rfl fun _ => rfl
  have hjson : c.toJson = .obj (keptMembers c.members) := rfl
  rw [hjson, ofJson, record, hlimits, hrequests]
  change Except.ok (ComputeResources.mk (limits?.getD []) (requests?.getD [])) = _
  rw [hl, hr]

end ComputeResources

theorem CustomCerts.ofJson_toJson (c : CustomCerts) : CustomCerts.ofJson c.toJson = .ok c := rfl

/-! ## Gateways -/

namespace GatewayPort

/-- A port that can be written and read. -/
def InRange (p : GatewayPort) : Prop := p.number ≤ 4294967295

def members (p : GatewayPort) : List (String × Option Json) := [
  ("name", nonemptyText p.name),
  ("number", some (.int p.number)),
  ("protocol", nonemptyText p.protocol)]

theorem ofJson_toJson {p : GatewayPort} (h : p.InRange) : GatewayPort.ofJson p.toJson = .ok p := by
  have hn : (p.members.map (·.1)).Nodup := by
    change ["name", "number", "protocol"].Nodup
    decide
  obtain ⟨name?, hname, hname'⟩ : ∃ s?, field? (keptMembers p.members) "name" text = .ok s? ∧
      s?.getD "" = p.name := field?_nonemptyText hn rfl
  have hnumber : field? (keptMembers p.members) "number" nat32 = .ok (some p.number) :=
    field?_keptMembers_some hn rfl (nat32_natCast h)
  obtain ⟨protocol?, hprotocol, hprotocol'⟩ : ∃ s?, field? (keptMembers p.members) "protocol" text =
      .ok s? ∧ s?.getD "" = p.protocol := field?_nonemptyText hn rfl
  have hjson : p.toJson = .obj (keptMembers p.members) := rfl
  rw [hjson, ofJson, record, hname, hnumber, hprotocol]
  change Except.ok (GatewayPort.mk p.number (name?.getD "") (protocol?.getD "")) = _
  rw [hname', hprotocol']

theorem inRange_of_ofJson {p : GatewayPort} (h : GatewayPort.ofJson x = .ok p) : p.InRange := by
  refine of_record (P := InRange) (fun fields p h => ?_) ?_ h
  · obtain ⟨_, -, h⟩ := bind_eq_ok.1 h
    obtain ⟨number?, hnumber, h⟩ := bind_eq_ok.1 h
    obtain ⟨_, -, h⟩ := bind_eq_ok.1 h
    obtain ⟨number, hgiven, h⟩ := bind_eq_ok.1 h
    obtain rfl := Except.ok.inj h
    obtain rfl := orMissing_eq_ok.1 hgiven
    obtain ⟨_, -, hread⟩ := of_field?_eq_some hnumber
    exact of_nat32 hread
  · refine gives_bind (gives_next fun _ _ => of_nat32) fun _ hnumber => ?_
    exact gives_bind (gives_any _) fun _ _ => gives_bind (gives_any _) fun _ _ => gives_pure hnumber

end GatewayPort

namespace GatewayServer

theorem ofJson_toJson {s : GatewayServer} (h : s.port.InRange) :
    GatewayServer.ofJson s.toJson = .ok s := by
  have hhosts : field? [("hosts", .arr (s.hosts.map .str)), ("port", s.port.toJson)] "hosts"
      (list text) = .ok (some s.hosts) := field?_eq_some rfl (items_map fun _ _ => rfl)
  have hport : field? [("hosts", .arr (s.hosts.map .str)), ("port", s.port.toJson)] "port"
      GatewayPort.ofJson = .ok (some s.port) := field?_eq_some rfl (GatewayPort.ofJson_toJson h)
  rw [toJson, ofJson, record, hhosts, hport]
  rfl

theorem inRange_of_ofJson {s : GatewayServer} (h : GatewayServer.ofJson x = .ok s) :
    s.port.InRange := by
  refine of_record (P := fun s => s.port.InRange) (fun fields s h => ?_) ?_ h
  · obtain ⟨_, -, h⟩ := bind_eq_ok.1 h
    obtain ⟨port?, hport, h⟩ := bind_eq_ok.1 h
    obtain ⟨port, hgiven, h⟩ := bind_eq_ok.1 h
    obtain rfl := Except.ok.inj h
    obtain rfl := orMissing_eq_ok.1 hgiven
    obtain ⟨_, -, hread⟩ := of_field?_eq_some hport
    exact GatewayPort.inRange_of_ofJson hread
  · refine gives_bind (gives_any _) fun _ _ => ?_
    exact gives_bind (gives_next fun _ _ => GatewayPort.inRange_of_ofJson) fun _ hport =>
      gives_pure hport

end GatewayServer

namespace GatewayOverride

/-- Overrides of a gateway that can be written and read. -/
def InRange (g : GatewayOverride) : Prop := ∀ s ∈ g.servers, s.port.InRange

def members (g : GatewayOverride) : List (String × Option Json) := [
  ("selector", nonemptyObject g.selector .str),
  ("servers", nonemptyList g.servers GatewayServer.toJson)]

theorem ofJson_toJson {g : GatewayOverride} (h : g.InRange) :
    GatewayOverride.ofJson g.toJson = .ok g := by
  have hn : (g.members.map (·.1)).Nodup := by
    change ["selector", "servers"].Nodup
    decide
  obtain ⟨selector?, hselector, hl⟩ : ∃ ys?, field? (keptMembers g.members) "selector" (dict text) =
      .ok ys? ∧ ys?.getD [] = g.selector := field?_nonemptyObject hn rfl fun _ => rfl
  obtain ⟨servers?, hservers, hs⟩ : ∃ ys?, field? (keptMembers g.members) "servers"
      (list GatewayServer.ofJson) = .ok ys? ∧ ys?.getD [] = g.servers :=
    field?_nonemptyList hn rfl fun s hs => GatewayServer.ofJson_toJson (h s hs)
  have hjson : g.toJson = .obj (keptMembers g.members) := rfl
  rw [hjson, ofJson, record, hselector, hservers]
  change Except.ok (GatewayOverride.mk (selector?.getD []) (servers?.getD [])) = _
  rw [hl, hs]

theorem inRange_of_ofJson {g : GatewayOverride} (h : GatewayOverride.ofJson x = .ok g) :
    g.InRange := by
  have hlist : ∀ y ss, list GatewayServer.ofJson y = .ok ss → ∀ s ∈ ss, s.port.InRange :=
    fun _ _ => forall_mem_of_list fun _ _ => GatewayServer.inRange_of_ofJson
  refine of_record (P := InRange) (fun fields g h => ?_) ?_ h
  · obtain ⟨_, -, h⟩ := bind_eq_ok.1 h
    obtain ⟨servers?, hservers, h⟩ := bind_eq_ok.1 h
    obtain rfl := Except.ok.inj h
    cases servers? with
    | none => simp [InRange]
    | some servers =>
      obtain ⟨_, -, hread⟩ := of_field?_eq_some hservers
      exact hlist _ _ hread
  · refine gives_bind (gives_any _) fun _ _ => ?_
    exact gives_bind (gives_nextOr (by simp) hlist) fun _ hservers => gives_pure hservers

end GatewayOverride

/-! ## Specs -/

namespace InstanceSpec

/-- A spec that can be written and read. -/
structure InRange (s : InstanceSpec) : Prop where
  ingressGateway : ∀ g ∈ s.ingressGateway, g.InRange
  localGateway : ∀ g ∈ s.localGateway, g.InRange

def members (s : InstanceSpec) : List (String × Option Json) := [
  ("clusterLocalGateway", s.localGateway.map GatewayOverride.toJson),
  ("config", nonemptyObject s.config .ofTexts),
  ("controllerCustomCerts", s.customCerts.map CustomCerts.toJson),
  ("knativeIngressGateway", s.ingressGateway.map GatewayOverride.toJson),
  ("namespace", s.targetNamespace.map .str),
  ("registry", some s.registry.toJson),
  ("resources", nonemptyObject s.resources ComputeResources.toJson)]

theorem members_nodup (s : InstanceSpec) : (s.members.map (·.1)).Nodup := by
  change ["clusterLocalGateway", "config", "controllerCustomCerts", "knativeIngressGateway",
    "namespace", "registry", "resources"].Nodup
  decide

/-- An optional part that was written is found under its first name. -/
theorem aliased?_members {α : Type} {read : Typed.Reader α} {write : α → Json} {y? : Option α}
    {s : InstanceSpec} {other name : String} (hother : s.members.lookup other = none)
    (h : (s.members.lookup name).join = y?.map write)
    (hread : ∀ y ∈ y?, (write y).isNull = false ∧ read (write y) = .ok y) :
    ∃ y??, aliased? (keptMembers s.members) other name (option read) = .ok y?? ∧ y??.join = y? := by
  rw [aliased?_of_lookup_eq_none (by rw [lookup_keptMembers s.members_nodup, hother]; rfl)]
  exact field?_optional s.members_nodup h hread

/-- **A spec is read back.** -/
theorem ofJson_toJson {s : InstanceSpec} (h : s.InRange) : InstanceSpec.ofJson s.toJson = .ok s := by
  have hn := s.members_nodup
  have htexts : ∀ texts : Dict String,
      entries text (texts.map fun e => (e.1, .str e.2)) = .ok texts := entries_map fun _ => rfl
  obtain ⟨local??, hlocal, hl⟩ : ∃ y??, aliased? (keptMembers s.members) "cluster-local-gateway"
      "clusterLocalGateway" (option GatewayOverride.ofJson) = .ok y?? ∧ y??.join = s.localGateway :=
    aliased?_members rfl rfl fun g hg => ⟨rfl, GatewayOverride.ofJson_toJson (h.localGateway g hg)⟩
  obtain ⟨config?, hconfig, hc⟩ : ∃ ys?, field? (keptMembers s.members) "config" (dict (dict text)) =
      .ok ys? ∧ ys?.getD [] = s.config :=
    field?_nonemptyObject hn rfl htexts
  obtain ⟨certs??, hcerts, hcc⟩ : ∃ y??, aliased? (keptMembers s.members) "controller-custom-certs"
      "controllerCustomCerts" (option CustomCerts.ofJson) = .ok y?? ∧ y??.join = s.customCerts :=
    aliased?_members rfl rfl fun c _ => ⟨rfl, CustomCerts.ofJson_toJson c⟩
  obtain ⟨ingress??, hingress, hi⟩ : ∃ y??, aliased? (keptMembers s.members)
      "knative-ingress-gateway" "knativeIngressGateway" (option GatewayOverride.ofJson) = .ok y?? ∧
      y??.join = s.ingressGateway :=
    aliased?_members rfl rfl fun g hg => ⟨rfl, GatewayOverride.ofJson_toJson (h.ingressGateway g hg)⟩
  obtain ⟨ns??, hnamespace, hns⟩ : ∃ y??, field? (keptMembers s.members) "namespace" (option text) =
      .ok y?? ∧ y??.join = s.targetNamespace := field?_optional hn rfl fun _ _ => ⟨rfl, rfl⟩
  have hregistry : field? (keptMembers s.members) "registry" Registry.ofJson =
      .ok (some s.registry) := field?_keptMembers_some hn rfl (Registry.ofJson_toJson _)
  obtain ⟨resources?, hresources, hr⟩ : ∃ ys?, field? (keptMembers s.members) "resources"
      (dict ComputeResources.ofJson) = .ok ys? ∧ ys?.getD [] = s.resources :=
    field?_nonemptyObject hn rfl ComputeResources.ofJson_toJson
  have hjson : s.toJson = .obj (keptMembers s.members) := rfl
  rw [hjson, ofJson, record, hlocal, hconfig, hcerts, hingress, hnamespace, hregistry, hresources]
  change Except.ok ({
    config := config?.getD [], registry := s.registry, ingressGateway := ingress??.join
    localGateway := local??.join, customCerts := certs??.join, resources := resources?.getD []
    targetNamespace := ns??.join } : InstanceSpec) = _
  rw [hl, hc, hcc, hi, hns, hr]

theorem inRange_of_aliased? {fields : Dict Json} {other name : String}
    {g?? : Option (Option GatewayOverride)}
    (h : aliased? fields other name (option GatewayOverride.ofJson) = .ok g??) :
    ∀ g ∈ g??.join, g.InRange := by
  intro g hg
  obtain rfl := Option.join_eq_some_iff.1 hg
  obtain ⟨x, hread⟩ := of_aliased?_eq_some h
  exact GatewayOverride.inRange_of_ofJson (of_option_eq_some hread)

/-- A spec that was read can be written and read. -/
theorem inRange_of_ofJson {s : InstanceSpec} (h : InstanceSpec.ofJson x = .ok s) : s.InRange := by
  have hoption : ∀ y g?, option GatewayOverride.ofJson y = .ok g? → ∀ g ∈ g?, g.InRange := by
    rintro y _ hread g rfl
    exact GatewayOverride.inRange_of_ofJson (of_option_eq_some hread)
  refine of_record (P := InRange) (fun fields s h => ?_) ?_ h
  · obtain ⟨_, hlocal, h⟩ := bind_eq_ok.1 h
    obtain ⟨_, -, h⟩ := bind_eq_ok.1 h
    obtain ⟨_, -, h⟩ := bind_eq_ok.1 h
    obtain ⟨_, hingress, h⟩ := bind_eq_ok.1 h
    iterate 3 obtain ⟨_, -, h⟩ := bind_eq_ok.1 h
    obtain rfl := Except.ok.inj h
    exact ⟨inRange_of_aliased? hingress, inRange_of_aliased? hlocal⟩
  · refine gives_bind (gives_any _) fun _ _ => gives_bind (gives_any _) fun _ _ => ?_
    refine gives_bind (gives_nextOr (by simp) hoption) fun _ hingress => ?_
    refine gives_bind (gives_nextOr (by simp) hoption) fun _ hlocal => ?_
    refine gives_bind (gives_any _) fun _ _ => gives_bind (gives_any _) fun _ _ => ?_
    exact gives_bind (gives_any _) fun _ _ => gives_pure ⟨hingress, hlocal⟩

end InstanceSpec

end ReleaseKeeper
