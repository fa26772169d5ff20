import ReleaseKeeper.Proofs.Settling
import ReleaseKeeper.Proofs.Transform.Identity

/-!
# The changes that a pipeline makes

All that a transformer looks at in the head of a resource is API version, kind and name, which none of
them changes. So what a pipeline does to a resource it does to every resource that is `Alike`: it makes
the same changes, one after the other (`Pipeline.exists_changes`). There are not many sorts of them.
First come an owner, a namespace and the references that follow it (`HeadChange`). Behind these each
kind of resource has its own sort (`Change`): pods are changed part by part (`PodChange`), config maps
get data, gateways and cached images get their specs.
-/
namespace ReleaseKeeper

/-- Changes the containers of a pod. -/
def Json.onContainers (f : List Json → List Json) : Dict Json → Dict Json :=
  Table.adjust "containers" (mapItems f)

open Json (onContainers)

namespace Resource

variable {r : Resource}

/-! ## The pod of a workload -/

theorem traversal_members :
    Traversal (fun r : Resource => [r.members]) (fun f r => ⟨f r.members⟩) where
  parts_update _ _ := rfl
  update_update _ _ _ := rfl
  update_congr h := congrArg mk (h _ (List.mem_singleton.2 rfl))

theorem podSpec?_eq (r : Resource) : r.podSpec? =
    (r.members.lookup "spec").bind fun spec => spec.asObj?.bind fun spec =>
      (spec.lookup "template").bind fun template => template.asObj?.bind fun template =>
        (template.lookup "spec").bind Json.asObj? := by
  have hobj : Json.asObj? (.obj r.members) = some r.members := rfl
  simp only [podSpec?, valueAt?, List.foldlM_cons, List.foldlM_nil, Json.get?, hobj,
    Option.bind_eq_bind, Option.bind_some, Option.bind_assoc, Option.pure_def,
    Option.bind_fun_some]

/-- The pod is at the end of a path. -/
theorem traversal_mapPodSpec : Traversal (fun r : Resource => r.podSpec?.toList) mapPodSpec := by
  have hpath := traversal_members.comp <| (Table.traversal_adjust "spec").comp <|
    Json.traversal_mapObject.comp <| (Table.traversal_adjust "template").comp <|
    Json.traversal_mapObject.comp <| (Table.traversal_adjust "spec").comp Json.traversal_mapObject
  convert hpath using 2 with r
  · simp [podSpec?_eq, Option.toList_bind, Function.comp_def]
  · rfl

theorem podSpec?_mapPodSpec (f : Dict Json → Dict Json) (r : Resource) :
    (r.mapPodSpec f).podSpec? = r.podSpec?.map f := by
  have hpods := congrArg List.head? (traversal_mapPodSpec.parts_update f r)
  simpa using hpods

theorem mapPodSpec_mapPodSpec (f g : Dict Json → Dict Json) (r : Resource) :
    (r.mapPodSpec f).mapPodSpec g = r.mapPodSpec (g ∘ f) :=
  traversal_mapPodSpec.update_update g f r

@[simp] theorem mapPodSpec_id (r : Resource) : r.mapPodSpec id = r := by
  simp [mapPodSpec]

variable {f g : Dict Json → Dict Json}

theorem mapPodSpec_congr (h : ∀ pod, r.podSpec? = some pod → f pod = g pod) :
    r.mapPodSpec f = r.mapPodSpec g :=
  traversal_mapPodSpec.update_congr fun pod hpod => h pod (Option.mem_toList.1 hpod)

theorem mapPodSpec_eq_self (h : ∀ pod, r.podSpec? = some pod → f pod = pod) :
    r.mapPodSpec f = r :=
  (mapPodSpec_congr h).trans (mapPodSpec_id r)

end Resource

/-! ## The changes that there are -/

namespace CustomCerts

/-- What a volume with the certificates takes them from, if their kind is known. -/
def source? (c : CustomCerts) : Option (String × Json) :=
  c.known?.map fun
    | .configMap => ("configMap", .obj [("name", .str c.name)])
    | .secret => ("secret", .obj [("secretName", .str c.name)])

/-- The name of the volume with the certificates. -/
def volume (c : CustomCerts) : String := s!"custom-certs-{c.name}"

end CustomCerts

namespace Transformer

open Resource (mapFirstContainer.onFirst)

/-- Mounts the certificates of services into the first container of a pod, unless it has them. -/
def mountServiceCerts (pod : Dict Json) : Dict Json :=
  if hasServiceCerts pod then pod
  else onContainers (mapFirstContainer.onFirst (mount serviceCertsVolume serviceCertsPath
    "SSL_CERT_FILE" s!"{serviceCertsPath}/service-ca.crt")) (addServiceCerts pod)

variable {i : Instance} {r : Resource}

/-- What is done to the containers of the pod of a resource. -/
inductive ContainersChange (i : Instance) (r : Resource) : (List Json → List Json) → Prop
  | images : ContainersChange i r
      (List.map (Json.mapObject fun c => i.spec.registry.putImage (Json.nameOf c) c))
  | compute (hkind : r.kind = "Deployment") :
      ContainersChange i r (List.map (Json.mapObject (putCompute i.spec.resources)))
  | certs (hcontroller : r.isController = true) {c : CustomCerts}
      (hcerts : i.spec.customCerts = some c) : ContainersChange i r
        (mapFirstContainer.onFirst (mount c.volume certsPath "SSL_CERT_DIR" certsPath))

/-- What is done to the pod of a resource. -/
inductive PodChange (i : Instance) (r : Resource) : (Dict Json → Dict Json) → Prop
  | containers {f : List Json → List Json} (h : ContainersChange i r f) :
      PodChange i r (onContainers f)
  | pullSecrets : PodChange i r i.spec.registry.addPullSecrets
  | certs (hcontroller : r.isController = true) {c : CustomCerts}
      (hcerts : i.spec.customCerts = some c) {source : String × Json}
      (hsource : c.source? = some source) : PodChange i r
        (Json.withItems "volumes" (Json.putNamed (.object [("name", .str c.volume), source])))
  | serviceCerts (hcontroller : r.isController = true) : PodChange i r mountServiceCerts

/-- What is done to a resource, by its kind. -/
inductive Change (i : Instance) (r : Resource) : (Resource → Resource) → Prop
  | pod (hkind : r.kind = "Deployment" ∨ r.kind = "DaemonSet") {f : Dict Json → Dict Json}
      (h : PodChange i r f) : Change i r (Resource.mapPodSpec f)
  | data (hkind : r.kind = "ConfigMap") (entries : Dict String) : Change i r (putData entries)
  | gateway (hkind : r.kind = "Gateway" ∧ r.group = gatewayGroup) {o : GatewayOverride}
      (ho : i.gatewayOverride? r.name = some o) : Change i r (Resource.within "spec" (putGateway o))
  | cachedImage (hkind : r.kind = "Image" ∧ r.apiVersion = cachingApiVersion) : Change i r fun x =>
      (x.within "spec" fun spec => i.spec.registry.addPullSecrets
        (i.spec.registry.putImage r.name spec)).erase "status"

/-- The member whose references follow a resource of a kind into a namespace, and how. -/
def references? (ns kind : String) : Option (String × (Json → Json)) :=
  if ["ClusterRoleBinding", "RoleBinding"].contains kind then
    some ("subjects", Json.mapItems (List.map (moveSubject ns)))
  else if ["MutatingWebhookConfiguration", "ValidatingWebhookConfiguration"].contains kind then
    some ("webhooks", Json.mapItems (List.map (moveWebhook ns)))
  else if kind = "APIService" then
    some ("spec", Json.mapObject (Table.adjust "service" (moveReference ns)))
  else none

theorem moveReferences_eq (ns : String) (x : Resource) : moveReferences ns x =
    (references? ns x.kind).elim x fun moved => ⟨Table.adjust moved.1 moved.2 x.members⟩ := by
  rw [moveReferences, references?]
  split
  · rfl
  · split
    · rfl
    · split <;> rfl

/-- Each kind whose references follow it has them in one member. -/
theorem references?_eq_some {ns kind key : String} {f : Json → Json}
    (h : references? ns kind = some (key, f)) :
    (["ClusterRoleBinding", "RoleBinding"].contains kind = true ∧ key = "subjects" ∧
        f = Json.mapItems (List.map (moveSubject ns))) ∨
      (["MutatingWebhookConfiguration", "ValidatingWebhookConfiguration"].contains kind = true ∧
        key = "webhooks" ∧ f = Json.mapItems (List.map (moveWebhook ns))) ∨
      (kind = "APIService" ∧ key = "spec" ∧
        f = Json.mapObject (Table.adjust "service" (moveReference ns))) := by
  rw [references?] at h
  split at h
  · next hkind =>
    obtain ⟨rfl, rfl⟩ := Prod.mk.inj (Option.some.inj h)
    exact .inl ⟨hkind, rfl, rfl⟩
  · split at h
    · next hkind =>
      obtain ⟨rfl, rfl⟩ := Prod.mk.inj (Option.some.inj h)
      exact .inr (.inl ⟨hkind, rfl, rfl⟩)
    · split at h
      · next hkind =>
        obtain ⟨rfl, rfl⟩ := Prod.mk.inj (Option.some.inj h)
        exact .inr (.inr ⟨hkind, rfl, rfl⟩)
      · cases h

/-- What the first two transformers do to a resource, by its kind. -/
inductive HeadChange (i : Instance) (r : Resource) : (Resource → Resource) → Prop
  | owner (howned : i.canOwn = true ∧ r.isClusterScoped = false) {reference : OwnerReference}
      (hreference : i.ownerReference? = some reference) : HeadChange i r
        (Resource.within "metadata" (Json.withItems "ownerReferences" (putOwner reference)))
  | place (hscoped : r.isClusterScoped = false) :
      HeadChange i r (Resource.setNamespace i.targetNamespace)
  | references {key : String} {f : Json → Json}
      (hmoved : references? i.targetNamespace r.kind = some (key, f)) :
      HeadChange i r fun x => ⟨Table.adjust key f x.members⟩

theorem not_mem_headKeys {ns kind key : String} {f : Json → Json}
    (h : references? ns kind = some (key, f)) : key ∉ Resource.headKeys := by
  obtain ⟨-, rfl, -⟩ | ⟨-, rfl, -⟩ | ⟨-, rfl, -⟩ := references?_eq_some h <;> decide

theorem HeadChange.alike {H : Resource → Resource} (h : HeadChange i r H) (x : Resource) :
    x.Alike (H x) := by
  cases h with
  | owner =>
    refine Resource.alike_within_metadata (fun m => ?_) x
    rw [Json.withItems, Table.lookup_put, if_neg (by decide)]
  | place => exact Resource.alike_setNamespace _ x
  | references hmoved =>
    exact (Resource.aside_adjust (not_mem_headKeys hmoved) _ x).gentle.keeps.alike

theorem Change.aside {F : Resource → Resource} (h : Change i r F) (x : Resource) : x.Aside (F x) := by
  cases h with
  | pod => exact Resource.aside_mapPodSpec _ x
  | data => exact aside_putData _ x
  | gateway => exact Resource.aside_within (by decide) _ x
  | cachedImage =>
    exact (Resource.aside_within (by decide) _ x).trans (Resource.aside_erase (by decide) _)

theorem Change.alike {F : Resource → Resource} (h : Change i r F) (x : Resource) : x.Alike (F x) :=
  (h.aside x).gentle.keeps.alike

/-- Changes of some sort are what is done to every resource that is like a given one. -/
structure Does (sort : (Resource → Resource) → Prop) (r : Resource)
    (step : Resource → Except Error Resource) (changes : List (Resource → Resource)) : Prop where
  change : ∀ F ∈ changes, sort F
  eq : ∀ x, r.Alike x → step x = .ok (carryOut changes x)

namespace Does

variable {sort : (Resource → Resource) → Prop}

/-- Nothing is done. -/
theorem idle {name : String} {f : Resource → Resource} (h : ∀ x, r.Alike x → f x = x) :
    Does sort r (total name f).apply [] where
  change := List.forall_mem_nil _
  eq x hx := total_eq_ok.2 (h x hx)

/-- One change is made. -/
theorem single {name : String} {f F : Resource → Resource} (hF : sort F)
    (h : ∀ x, r.Alike x → f x = F x) : Does sort r (total name f).apply [F] where
  change := List.forall_mem_singleton.2 hF
  eq x hx := total_eq_ok.2 (h x hx)

variable {step : Resource → Except Error Resource} {first later : List (Resource → Resource)}
  {x out : Resource}

/-- What is done leaves resources like what they were, if the changes do. -/
theorem alike (h : Does sort r step first) (hsort : ∀ F, sort F → ∀ x : Resource, x.Alike (F x))
    (hx : r.Alike x) (hout : step x = .ok out) : r.Alike out := by
  have hcarried : ∀ {changes : List (Resource → Resource)}, (∀ F ∈ changes, sort F) →
      ∀ x : Resource, x.Alike (carryOut changes x) := by
    intro changes
    induction changes with
    | nil => exact fun _ => .refl
    | cons F rest ih =>
      intro hchanges x
      obtain ⟨hF, hrest⟩ := List.forall_mem_cons.1 hchanges
      exact (hsort F hF x).trans (ih hrest (F x))
  obtain rfl := Except.ok.inj ((h.eq x hx).symm.trans hout)
  exact hx.trans (hcarried h.change x)

/-- One transformer, and then a pipeline. -/
theorem cons {t : Transformer} {p : Pipeline} (h : Does sort r t.apply first)
    (hsort : ∀ F, sort F → ∀ x : Resource, x.Alike (F x))
    (hlater : ∀ x, r.Alike x → p.apply x = .ok (carryOut later x)) :
    ∀ x, r.Alike x → Pipeline.apply (t :: p) x = .ok (carryOut (first ++ later) x) := fun x hx => by
  have hfirst := h.eq x hx
  rw [carryOut_append]
  exact Pipeline.apply_cons_eq_ok.2 ⟨_, hfirst, hlater _ (h.alike hsort hx hfirst)⟩

end Does

theorem exists_does_images (i : Instance) (r : Resource) :
    ∃ changes, Does (Change i r) r (images i.spec.registry).apply changes := by
  by_cases hkind : r.kind = "Deployment" ∨ r.kind = "DaemonSet"
  · refine ⟨_, List.forall_mem_cons.2 ⟨.pod hkind (.containers .images),
      List.forall_mem_singleton.2 (.pod hkind .pullSecrets)⟩, fun x hx => total_eq_ok.2 ?_⟩
    rw [hx.kind, if_pos hkind]
    rfl
  · by_cases himage : r.kind = "Image" ∧ r.apiVersion = cachingApiVersion
    · refine ⟨_, .single (.cachedImage himage) fun x hx => ?_⟩
      rw [hx.kind, hx.apiVersion, if_neg hkind, if_pos himage, putCachedImage, hx.name]
    · refine ⟨_, .idle fun x hx => ?_⟩
      rw [hx.kind, hx.apiVersion, if_neg hkind, if_neg himage]

theorem exists_does_computeResources (i : Instance) (r : Resource) :
    ∃ changes, Does (Change i r) r (computeResources i.spec.resources).apply changes := by
  by_cases hkind : r.kind = "Deployment"
  · refine ⟨_, .single (.pod (.inl hkind) (.containers (.compute hkind))) fun x hx => ?_⟩
    rw [hx.kind, if_pos hkind]
    rfl
  · refine ⟨_, .idle fun x hx => ?_⟩
    rw [hx.kind, if_neg hkind]

theorem exists_does_gateways (i : Instance) (r : Resource) :
    ∃ changes, Does (Change i r) r (gateways i).apply changes := by
  by_cases hkind : r.kind = "Gateway" ∧ r.group = gatewayGroup
  · cases ho : i.gatewayOverride? r.name with
    | none =>
      refine ⟨_, .idle fun x hx => ?_⟩
      rw [hx.kind, hx.group_eq, if_pos hkind, hx.name, ho]
    | some o =>
      refine ⟨_, .single (.gateway hkind ho) fun x hx => ?_⟩
      rw [hx.kind, hx.group_eq, if_pos hkind, hx.name, ho]
  · refine ⟨_, .idle fun x hx => ?_⟩
    rw [hx.kind, hx.group_eq, if_neg hkind]

theorem exists_does_configMaps (i : Instance) (r : Resource) :
    ∃ changes, Does (Change i r) r (configMaps i.spec.config).apply changes := by
  by_cases hkind : r.kind = "ConfigMap"
  · cases hentries : (configSuffix? r.name).bind fun suffix => i.spec.config.lookup suffix with
    | none =>
      refine ⟨_, .idle fun x hx => ?_⟩
      rw [hx.kind, if_pos hkind, hx.name, hentries]
    | some entries =>
      refine ⟨_, .single (.data hkind entries) fun x hx => ?_⟩
      rw [hx.kind, if_pos hkind, hx.name, hentries]
  · refine ⟨_, .idle fun x hx => ?_⟩
    rw [hx.kind, if_neg hkind]

theorem configureCerts_of_source {c : CustomCerts} {source : String × Json}
    (h : c.source? = some source) (hname : c.name ≠ "") (x : Resource) :
    configureCerts c x = .ok (mountCerts c.volume source x) := by
  obtain ⟨known, hknown, rfl⟩ := Option.map_eq_some_iff.1 h
  rw [configureCerts, hknown]
  dsimp only
  rw [if_neg hname]
  cases known <;> rfl

theorem configureCerts_eq_ok {c : CustomCerts} {x out : Resource}
    (h : configureCerts c x = .ok out) : ∃ source, c.source? = some source ∧
      ∀ y, configureCerts c y = .ok (mountCerts c.volume source y) := by
  rw [configureCerts] at h
  split at h
  · cases h
  · next known hknown =>
    split at h
    · cases h
    · next hname =>
      have hsource : ∃ source, c.source? = some source :=
        ⟨_, Option.map_eq_some_iff.2 ⟨known, hknown, rfl⟩⟩
      exact hsource.imp fun _ hsource => ⟨hsource, configureCerts_of_source hsource hname⟩

/-- Certificates can be refused, so it takes a resource that they were mounted into. -/
theorem exists_does_customCerts {x out : Resource} (hx : r.Alike x)
    (h : (customCerts i.spec.customCerts).apply x = .ok out) :
    ∃ changes, Does (Change i r) r (customCerts i.spec.customCerts).apply changes := by
  rw [apply_eq_ok] at h
  simp only [customCerts] at h
  cases hcerts : i.spec.customCerts with
  | none => exact ⟨[], List.forall_mem_nil _, fun y _ => rfl⟩
  | some c =>
    rw [hcerts] at h
    dsimp only at h
    by_cases hidle : (c.kind = "" ∧ c.name = "") ∨ ¬ r.isController = true
    · refine ⟨[], List.forall_mem_nil _, fun y hy => ?_⟩
      rw [apply_eq_ok, customCerts]
      dsimp only
      rw [hy.isController_eq, if_pos hidle]
      rfl
    · have hcontroller : r.isController = true := not_not.1 fun h => hidle (.inr h)
      have hkind := Resource.kind_of_hasName hcontroller
      rw [hx.isController_eq, if_neg hidle] at h
      obtain ⟨source, hsource, hall⟩ := configureCerts_eq_ok h
      refine ⟨_, List.forall_mem_cons.2 ⟨.pod (.inl hkind) (.certs hcontroller hcerts hsource),
        List.forall_mem_singleton.2 (.pod (.inl hkind) (.containers (.certs hcontroller hcerts)))⟩,
        fun y hy => ?_⟩
      rw [apply_eq_ok, customCerts]
      dsimp only
      rw [hy.isController_eq, if_neg hidle, hall]
      rfl

/-- What a platform sets in a config map of a name. -/
theorem exists_does_putData (i : Instance) (r : Resource) (name config : String) (p : Prop)
    [Decidable p] (entries : Dict String) : ∃ changes, Does (Change i r) r (total name fun x =>
      if x.hasName "ConfigMap" config ∧ p then putData entries x else x).apply changes := by
  by_cases hp : r.hasName "ConfigMap" config = true ∧ p
  · refine ⟨_, .single (.data (Resource.kind_of_hasName hp.1) entries) fun x hx => ?_⟩
    rw [hx.hasName_eq, if_pos hp]
  · refine ⟨_, .idle fun x hx => ?_⟩
    rw [hx.hasName_eq, if_neg hp]

/-- What the certificates of services come to in the controller. -/
theorem serviceCerts_of_isController {x : Resource} (h : x.isController = true) :
    serviceCerts.apply x = .ok (x.mapPodSpec mountServiceCerts) := by
  refine total_eq_ok.2 ?_
  cases hpod : x.podSpec? with
  | none => exact (Resource.mapPodSpec_eq_self fun pod h => by rw [hpod] at h; cases h).symm
  | some pod =>
    dsimp only
    by_cases hcerts : hasServiceCerts pod = true
    · rw [if_pos (.inr hcerts)]
      refine (Resource.mapPodSpec_eq_self fun pod' h => ?_).symm
      obtain rfl : pod = pod' := Option.some.inj (hpod.symm.trans h)
      rw [mountServiceCerts, if_pos hcerts]
    · rw [if_neg (by simp [h, hcerts]), Resource.mapFirstContainer, Resource.mapPodSpec_mapPodSpec]
      refine Resource.mapPodSpec_congr fun pod' h => ?_
      obtain rfl : pod = pod' := Option.some.inj (hpod.symm.trans h)
      rw [mountServiceCerts, if_neg hcerts]
      rfl

theorem exists_does_serviceCerts (i : Instance) (r : Resource) :
    ∃ changes, Does (Change i r) r serviceCerts.apply changes := by
  by_cases hcontroller : r.isController = true
  · refine ⟨_, List.forall_mem_singleton.2 (.pod (.inl (Resource.kind_of_hasName hcontroller))
      (.serviceCerts hcontroller)), fun x hx => ?_⟩
    exact serviceCerts_of_isController (hx.isController_eq.trans hcontroller)
  · refine ⟨_, .idle fun x hx => ?_⟩
    split
    · rfl
    · rw [if_pos (.inl (by rwa [hx.isController_eq]))]

/-! ## The first two transformers -/

theorem exists_does_owner {t : Transformer} (h : owner i = .ok t) (r : Resource) :
    ∃ changes, Does (HeadChange i r) r t.apply changes := by
  obtain ⟨reference, hreference, rfl⟩ := owner_eq_ok h
  by_cases howned : ¬ i.canOwn = true ∨ r.isClusterScoped = true
  · refine ⟨_, .idle fun x hx => ?_⟩
    rw [hx.isClusterScoped_eq, if_pos howned]
  · have hboth : i.canOwn = true ∧ r.isClusterScoped = false := by simpa using howned
    refine ⟨_, .single (.owner hboth hreference) fun x hx => ?_⟩
    rw [hx.isClusterScoped_eq, if_neg howned]

theorem exists_moveReferences (i : Instance) (r : Resource) :
    ∃ changes, (∀ F ∈ changes, HeadChange i r F) ∧
      ∀ x, r.Alike x → moveReferences i.targetNamespace x = carryOut changes x := by
  cases hmoved : references? i.targetNamespace r.kind with
  | none =>
    refine ⟨[], List.forall_mem_nil _, fun x hx => ?_⟩
    rw [moveReferences_eq, hx.kind, hmoved]
    rfl
  | some moved =>
    refine ⟨_, List.forall_mem_singleton.2 (.references hmoved), fun x hx => ?_⟩
    rw [moveReferences_eq, hx.kind, hmoved]
    rfl

theorem exists_does_inNamespace (i : Instance) (r : Resource) :
    ∃ changes, Does (HeadChange i r) r (inNamespace i.targetNamespace).apply changes := by
  obtain ⟨moves, hmoves, heq⟩ := exists_moveReferences i r
  by_cases hscoped : r.isClusterScoped = true
  · refine ⟨moves, hmoves, fun x hx => total_eq_ok.2 ?_⟩
    rw [moveTo, hx.isClusterScoped_eq, if_pos hscoped, heq x hx]
  · refine ⟨Resource.setNamespace i.targetNamespace :: moves, List.forall_mem_cons.2
      ⟨.place (by simpa using hscoped), hmoves⟩, fun x hx => total_eq_ok.2 ?_⟩
    rw [moveTo, hx.isClusterScoped_eq, if_neg hscoped, heq _ (hx.trans (Resource.alike_setNamespace _ x))]
    rfl

/-! ## Pipelines -/

variable {t : Transformer} {x out : Resource}

/-- What a later transformer does to one resource it does to all that are like it. -/
theorem Later.exists_does (h : Later i t) (hx : r.Alike x) (hout : t.apply x = .ok out) :
    ∃ changes, Does (Change i r) r t.apply changes := by
  cases h with
  | images => exact exists_does_images i r
  | computeResources => exact exists_does_computeResources i r
  | gateways => exact exists_does_gateways i r
  | configMaps => exact exists_does_configMaps i r
  | customCerts => exact exists_does_customCerts hx hout

end Transformer

theorem PlatformTransformer.exists_does {t : Transformer} (h : PlatformTransformer t) (i : Instance)
    (r : Resource) : ∃ changes, Transformer.Does (Transformer.Change i r) r t.apply changes := by
  cases h with
  | ingressDomain domain => exact Transformer.exists_does_putData i r _ _ _ _
  | egress name ranges => exact Transformer.exists_does_putData i r _ _ _ _
  | serviceCerts => exact Transformer.exists_does_serviceCerts i r

namespace Pipeline

open Transformer

variable {i : Instance} {p : Pipeline} {extra : List Transformer} {r x out : Resource}

/-- What later transformers do to one resource, one after the other, they do to all that are like
it. -/
theorem exists_does : ∀ {p : Pipeline} {x : Resource},
    (∀ t ∈ p, Later i t ∨ PlatformTransformer t) → r.Alike x → p.apply x = .ok out →
    ∃ changes, Does (Change i r) r p.apply changes
  | [], _, _, _, _ => ⟨[], List.forall_mem_nil _, fun _ _ => rfl⟩
  | t :: rest, x, hp, hx, h => by
    obtain ⟨ht, hrest⟩ := List.forall_mem_cons.1 hp
    obtain ⟨next, hfirst, hnext⟩ := apply_cons_eq_ok.1 h
    obtain ⟨first, hone⟩ := ht.elim (fun ht => ht.exists_does hx hfirst) fun ht => ht.exists_does i r
    obtain ⟨later, hmore⟩ := exists_does hrest (hone.alike (fun _ => Change.alike) hx hfirst) hnext
    exact ⟨first ++ later, List.forall_mem_append.2 ⟨hone.change, hmore.change⟩,
      hone.cons (fun _ => Change.alike) hmore.eq⟩

/-- **A pipeline makes the same changes to all resources that are alike**, and what it makes of them
stays like them. -/
theorem exists_changes (hi : builtin i = .ok p) (hextra : ∀ t ∈ extra, PlatformTransformer t)
    (h : Pipeline.apply (p ++ extra) r = .ok out) :
    ∃ head later, (∀ H ∈ head, HeadChange i r H) ∧ (∀ F ∈ later, Change i r F) ∧ r.Alike out ∧
      ∀ x, r.Alike x → Pipeline.apply (p ++ extra) x = .ok (carryOut (head ++ later) x) := by
  obtain ⟨owner, rest, rfl, howner, hrest⟩ := builtin_eq_ok hi
  have hlater : ∀ t ∈ rest ++ extra, Later i t ∨ PlatformTransformer t :=
    List.forall_mem_append.2 ⟨fun t ht => .inl (hrest t ht), fun t ht => .inr (hextra t ht)⟩
  obtain ⟨owns, howns⟩ := exists_does_owner howner r
  obtain ⟨moves, hmoves⟩ := exists_does_inNamespace i r
  obtain ⟨owned, hfirst, hsecond⟩ := apply_cons_eq_ok.1 h
  obtain ⟨moved, hsecond, hthird⟩ := apply_cons_eq_ok.1 hsecond
  have howned : r.Alike owned := howns.alike (fun _ => HeadChange.alike) (.refl r) hfirst
  have hmoved : r.Alike moved := hmoves.alike (fun _ => HeadChange.alike) howned hsecond
  obtain ⟨later, hdone⟩ := exists_does hlater hmoved hthird
  refine ⟨owns ++ moves, later, List.forall_mem_append.2 ⟨howns.change, hmoves.change⟩,
    hdone.change, hdone.alike (fun _ => Change.alike) hmoved hthird, ?_⟩
  rw [List.append_assoc]
  exact howns.cons (fun _ => HeadChange.alike) (hmoves.cons (fun _ => HeadChange.alike) hdone.eq)

end Pipeline

end ReleaseKeeper
