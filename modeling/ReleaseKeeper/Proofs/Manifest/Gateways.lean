import ReleaseKeeper.Proofs.Manifest.Apply
import ReleaseKeeper.Proofs.Transform.Settings

/-!
# What an override makes of a live gateway

An override replaces selector and servers of the gateway that the release has. What then meets the
live gateway is merged, and a merge knows lists from objects: the servers take the place of those
that were live, while the selector is mixed with the one that was (`gateway_override_merged`). So a
gateway keeps the entries of every selector that it ever had, and selects what has all of them.
-/
namespace ReleaseKeeper

open Rehearsal (run)
open Transformer (gateways gatewayGroup putGateway)

variable {r out : Resource} {w : Rehearsal} {o : GatewayOverride} {i : Instance}

/-- The entry of a live gateway's selector. -/
def Rehearsal.selected (w : Rehearsal) (id : ResourceKey) (key : String) : Option Json :=
  (w.cluster.object? id).bind (·.valueAt? ["spec", "selector", key])

theorem selected_eq (w : Rehearsal) (id : ResourceKey) (key : String) :
    w.selected id key =
      ((w.cluster.member? id "spec").bind (Json.get? "selector")).bind (Json.get? key) := by
  have hat : Json.at? ["selector", key] = fun x => (x.get? "selector").bind (Json.get? key) := by
    funext x
    simp only [Json.at?, Option.bind_fun_some]
  simp only [Rehearsal.selected, Cluster.member?, Resource.valueAt?_cons, hat, Option.bind_assoc]

/-- Texts that are desired are mixed with the object that was there. -/
theorem memberAfter_texts {key : String} {texts : Dict String} (htexts : Table.Sorted texts)
    (hkey : key ≠ Json.payloadKey) (live? : Option Json) :
    ∃ m, Json.memberAfter key (some (.ofTexts texts)) live? = some (.obj m) ∧
      ∀ j, m.lookup j = ((texts.lookup j).map Json.str).or (live?.bind (Json.get? j)) := by
  have hkeys : ((texts.map fun e => (e.1, Json.str e.2)).map (·.1)).Nodup := by
    rw [List.map_map]
    exact Table.keys_nodup htexts
  obtain ⟨m, hm, hlookup⟩ := Json.memberAfter_obj hkeys hkey live?
  refine ⟨m, hm, fun j => ?_⟩
  rw [hlookup, Table.lookup_map]
  cases texts.lookup j with
  | none => rfl
  | some s => exact Json.memberAfter_exact (.inr (.inl rfl)) (Json.exact_str s)

/-- What an override makes of the spec of the live gateway, entry by entry. -/
theorem spec_of_override {done : Manifest.Applied} (hwf : r.toJson.WellFormed)
    (hvalid : Resource.ofJson r.toJson = .ok r) (hkind : r.kind = "Gateway")
    (hgroup : r.group = gatewayGroup) (ho : i.gatewayOverride? r.name = some o)
    (hc : w.cluster.Filed) (hout : (gateways i).apply r = .ok out)
    (hdone : (run (Manifest.apply out) w).1 = .ok done) :
    ∃ live spec, (run (Manifest.apply out) w).2.cluster.object? r.key = some live ∧
      live.members.lookup "spec" = some (.obj spec) ∧
      ∀ key, spec.lookup key =
        Json.memberAfter key ((putGateway o (Json.objectAt "spec" r.members)).lookup key)
          ((w.cluster.member? r.key "spec").bind (Json.get? key)) := by
  have haside := Transformer.aside_gateways i r out hout
  have hkey : out.key = r.key := haside.gentle.keeps.key_eq
  have hproper := haside.proper ⟨.of_wellFormed hwf, hvalid⟩
  obtain ⟨-, live, hlive, hmembers⟩ := Manifest.run_apply_ok hc hproper hdone
  rw [hkey] at hlive hmembers
  have hspec := hmembers "spec" (by decide)
  rw [Transformer.lookup_gateways hkind hgroup ho hout] at hspec
  have hsorted : Table.Sorted (putGateway o (Json.objectAt "spec" r.members)) :=
    Transformer.sorted_putGateway (hwf.objectAt "spec").sorted
  obtain ⟨spec, hmerged, hentry⟩ := Json.memberAfter_obj (Table.keys_nodup hsorted)
    (by decide : "spec" ≠ Json.payloadKey) (w.cluster.member? r.key "spec")
  exact ⟨live, spec, hlive, hspec.trans hmerged, hentry⟩

/-- **An override is merged into the live gateway.** If it names servers, these are the servers of
the gateway from then on. If it names a selector, then the gateway has its entries and, besides them,
all entries under other keys that it had before; so its selector is the override's exactly if it had
none of these. -/
theorem gateway_override_merged {done : Manifest.Applied} (hwf : r.toJson.WellFormed)
    (hvalid : Resource.ofJson r.toJson = .ok r) (hkind : r.kind = "Gateway")
    (hgroup : r.group = gatewayGroup) (ho : i.gatewayOverride? r.name = some o)
    (hselector : Table.Sorted o.selector) (hc : w.cluster.Filed)
    (hout : (gateways i).apply r = .ok out)
    (hdone : (run (Manifest.apply out) w).1 = .ok done) :
    let w' := (run (Manifest.apply out) w).2
    ∃ live, w'.cluster.object? r.key = some live ∧
      (o.servers ≠ [] → live.valueAt? ["spec", "servers"] =
        some (.arr (o.servers.map GatewayServer.toJson))) ∧
      (o.selector ≠ [] →
        (∃ entries, live.valueAt? ["spec", "selector"] = some (.obj entries)) ∧
        (∀ key, w'.selected r.key key =
          ((o.selector.lookup key).map Json.str).or (w.selected r.key key)) ∧
        ((∀ key, w'.selected r.key key = (o.selector.lookup key).map Json.str) ↔
          ∀ key, o.selector.lookup key = none → w.selected r.key key = none)) := by
  intro w'
  obtain ⟨live, spec, hlive, hspec, hentry⟩ :=
    spec_of_override hwf hvalid hkind hgroup ho hc hout hdone
  have hvalue : ∀ key path, live.valueAt? ("spec" :: key :: path) =
      (spec.lookup key).bind (Json.at? path) := fun key path => by
    rw [Resource.valueAt?_cons, hspec, Option.bind_some, Json.at?_obj]
  refine ⟨live, hlive, fun hservers => ?_, fun hsome => ?_⟩
  · rw [hvalue, hentry, Transformer.lookup_putGateway_servers hservers,
      Json.memberAfter_exact (.inr (.inl rfl)) (Json.exact_servers o.servers)]
    rfl
  · obtain ⟨entries, hentries, hall⟩ := memberAfter_texts hselector
      (by decide : "selector" ≠ Json.payloadKey)
      ((w.cluster.member? r.key "spec").bind (Json.get? "selector"))
    have hselected : spec.lookup "selector" = some (.obj entries) := by
      rw [hentry, Transformer.lookup_putGateway_selector hsome, hentries]
    have hmixed : ∀ key, w'.selected r.key key =
        ((o.selector.lookup key).map Json.str).or (w.selected r.key key) := fun key => by
      rw [selected_eq w, ← hall, Rehearsal.selected, hlive, Option.bind_some, hvalue, hselected,
        Option.bind_some, Json.at?_obj]
      cases entries.lookup key <;> rfl
    refine ⟨⟨entries, by rw [hvalue, hselected]; rfl⟩, hmixed, ?_⟩
    simp only [hmixed]
    refine forall_congr' fun key => ?_
    cases o.selector.lookup key <;> simp

/-! ## The gateway for traffic from outside -/

namespace Ingress

def gateway : Resource := ⟨[("apiVersion", .str "networking.istio.io/v1alpha3"),
  ("kind", .str "Gateway"),
  ("metadata", .obj [("name", .str "knative-ingress-gateway"), ("namespace", .str "n")]),
  ("spec", .obj [("selector", .obj [("istio", .str "ingressgateway")])])]⟩

def override (selector : Dict String) : GatewayOverride where
  selector
  servers := [{ hosts := ["*"], port := { number := 80 } }]

def serving (selector : Dict String) : Instance where
  metadata := {}
  spec := { ingressGateway := some (override selector) }

def overridden (selector : Dict String) : Resource :=
  gateway.within "spec" (putGateway (override selector))

def installed : Rehearsal := { cluster := Cluster.insert gateway {} }

def after (selector : Dict String) : Rehearsal :=
  (run (Manifest.apply (overridden selector)) installed).2

theorem gateways_apply (selector : Dict String) :
    (gateways (serving selector)).apply gateway = .ok (overridden selector) := rfl

end Ingress

open Ingress

/-- An override of the one entry that the live selector has makes it the override's. -/
theorem gateway_override_merged_istio :
    (∀ key, (after [("istio", "custom")]).selected gateway.key key =
      (([("istio", "custom")] : Dict String).lookup key).map Json.str) ∧
    ∃ live, (after [("istio", "custom")]).cluster.object? gateway.key = some live ∧
      live.valueAt? ["spec", "servers"] =
        some (.arr ((override []).servers.map GatewayServer.toJson)) := by
  have hwf : gateway.toJson.WellFormed := by
    simp only [gateway, Resource.toJson, Json.WellFormed, Json.WellFormedMembers, Table.Sorted]
    decide
  have hgroup : gateway.group = gatewayGroup := by decide
  have hsorted : Table.Sorted (override [("istio", "custom")]).selector :=
    List.pairwise_singleton _ _
  have hc : installed.cluster.Filed := Cluster.filed_of_forall (by decide)
  have hdone : (run (Manifest.apply (overridden [("istio", "custom")])) installed).1 =
      .ok .updated := by
    decide +kernel
  obtain ⟨live, hlive, hservers, hselector⟩ := gateway_override_merged hwf rfl rfl hgroup rfl
    hsorted hc (gateways_apply [("istio", "custom")]) hdone
  obtain ⟨-, -, hiff⟩ := hselector (List.cons_ne_nil _ _)
  refine ⟨hiff.2 fun key hkey => ?_, live, hlive, hservers (List.cons_ne_nil _ _)⟩
  have hne : (key == "istio") = false := by
    cases hbeq : key == "istio" with
    | false => rfl
    | true => simp [override, List.lookup_cons, hbeq] at hkey
  have hlookup : (List.lookup key [("istio", Json.str "ingressgateway")]).bind (Json.at? []) =
      none := by
    rw [List.lookup_cons, hne]
    rfl
  exact hlookup

/-- **Entries under other keys stay**: the override names one entry, but the entry of the release's
selector is live beside it. -/
theorem gateway_selector_stays :
    (gateways (serving [("custom", "gateway")])).apply gateway =
        .ok (overridden [("custom", "gateway")]) ∧
      (run (Manifest.apply (overridden [("custom", "gateway")])) installed).1 = .ok .updated ∧
      (after [("custom", "gateway")]).selected gateway.key "custom" = some (.str "gateway") ∧
      (after [("custom", "gateway")]).selected gateway.key "istio" = some (.str "ingressgateway") :=
  ⟨gateways_apply _, by decide +kernel, rfl, rfl⟩

end ReleaseKeeper
