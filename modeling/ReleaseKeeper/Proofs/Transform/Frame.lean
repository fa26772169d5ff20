import ReleaseKeeper.Proofs.Transform.Pods

/-!
# What a pipeline leaves alone

What a pipeline may change of a resource is written down by what is left once that is taken away
(`Resource.untouched`): the metadata, one or two members by kind, and of a workload no more than some
entries of its pod and of the containers in it. All of this is left as it is (`Pipeline.frame`),
member by member and in its order, whatever the instance asks for. An instance that asks for nothing
only gets its owner and its namespace set (`Pipeline.apply_plain`), cached images apart: what was
observed of them is dropped all the same.
-/
namespace ReleaseKeeper

open Json (onContainers)
open Resource (mapFirstContainer.onFirst)

/-! ## Tables without some of their entries -/

namespace Table

variable {α : Type} {keys : List String} {key : String}

/-- The entries besides those of some keys. -/
def beside (keys : List String) (entries : Dict α) : Dict α :=
  entries.filter fun e => !keys.contains e.1

theorem beside_put (h : key ∈ keys) (x : α) :
    ∀ entries : Dict α, beside keys (put key x entries) = beside keys entries
  | [] => by simp [beside, put, h]
  | (k, v) :: rest => by
    have ih := beside_put h x rest
    rw [put]
    split
    · next hk => simp [beside, ← hk, h]
    · split
      · simp [beside, h]
      · rw [beside, List.filter_cons, ← beside, ih, beside, beside, List.filter_cons]

theorem beside_adjust (h : key ∈ keys) (f : α → α) :
    ∀ entries : Dict α, beside keys (adjust key f entries) = beside keys entries
  | [] => rfl
  | (k, v) :: rest => by
    have ih := beside_adjust h f rest
    rw [adjust]
    split
    · next hk => simp [beside, ← hk, h]
    · rw [beside, List.filter_cons, ← beside, ih, beside, beside, List.filter_cons]

theorem beside_drop (h : key ∈ keys) (entries : Dict α) :
    beside keys (drop key entries) = beside keys entries := by
  rw [beside, drop, List.filter_filter, beside]
  refine List.filter_congr fun e _ => ?_
  by_cases he : e.1 = key <;> simp [he, h]

theorem beside_comm (first second : List String) (entries : Dict α) :
    beside first (beside second entries) = beside second (beside first entries) := by
  rw [beside, beside, List.filter_filter, beside, beside, List.filter_filter]
  exact List.filter_congr fun _ _ => Bool.and_comm _ _

theorem lookup_beside (h : key ∉ keys) :
    ∀ entries : Dict α, (beside keys entries).lookup key = entries.lookup key
  | [] => rfl
  | (k, v) :: rest => by
    have ih := lookup_beside h rest
    by_cases hk : k ∈ keys
    · have hne : ¬ key = k := fun heq => h (heq ▸ hk)
      rw [List.lookup_cons, beq_false_of_ne hne, ← ih]
      simp [beside, hk]
    · have hcons : beside keys ((k, v) :: rest) = (k, v) :: beside keys rest := by simp [beside, hk]
      rw [hcons, List.lookup_cons, List.lookup_cons, ih]

end Table

theorem Writes.beside_eq {α : Type} {key : String} {v? : Dict α → Option α} {f : Dict α → Dict α}
    (hf : Writes key v? f) {keys : List String} (h : key ∈ keys) (entries : Dict α) :
    Table.beside keys (f entries) = Table.beside keys entries := by
  rw [hf.eq]
  cases v? entries with
  | none => rfl
  | some x => exact Table.beside_put h x entries

/-! ## What is left of a resource -/

namespace Resource

def isWorkload (r : Resource) : Prop := r.kind = "Deployment" ∨ r.kind = "DaemonSet"

instance (r : Resource) : Decidable r.isWorkload :=
  inferInstanceAs (Decidable (r.kind = "Deployment" ∨ r.kind = "DaemonSet"))

/-- The members, metadata and pods apart, that are changed in resources like `r`. -/
def changeable (r : Resource) : List String :=
  if ["ClusterRoleBinding", "RoleBinding"].contains r.kind then ["subjects"]
  else if ["MutatingWebhookConfiguration", "ValidatingWebhookConfiguration"].contains r.kind then
    ["webhooks"]
  else if r.kind = "ConfigMap" then ["data"]
  else if r.kind = "APIService" ∨ (r.kind = "Gateway" ∧ r.group = Transformer.gatewayGroup) then
    ["spec"]
  else if r.kind = "Image" ∧ r.apiVersion = cachingApiVersion then ["spec", "status"]
  else []

/-- The entries that are changed in every container of resources like `r`. -/
def containerKeys (r : Resource) : List String :=
  if r.kind = "Deployment" then ["image", "resources"] else ["image"]

/-- What is left of a list of containers: all of them, without the entries that are changed. Only the
first one of the controller has more of these. -/
def untouchedContainers (r : Resource) (items : List Json) : List Json :=
  let left := items.map (Json.mapObject (Table.beside r.containerKeys))
  if r.isController then mapFirstContainer.onFirst (Table.beside ["env", "volumeMounts"]) left
  else left

/-- What is left of a pod. -/
def untouchedPod (r : Resource) (pod : Dict Json) : Dict Json :=
  Table.beside ["imagePullSecrets", "volumes"] (onContainers r.untouchedContainers pod)

/-- What is left of a resource `x` that is like `r`, once all is taken away that may be changed. -/
def untouched (r x : Resource) : Dict Json :=
  Table.beside ("metadata" :: r.changeable)
    (if r.isWorkload then x.mapPodSpec r.untouchedPod else x).members

end Resource

namespace Transformer

variable {i : Instance} {r : Resource}

/-! ## Changes of containers -/

theorem WritesByName.beside_eq {key : String} {f : Dict Json → Dict Json} (h : WritesByName key f)
    {keys : List String} (hkey : key ∈ keys) :
    Json.mapObject (Table.beside keys) ∘ Json.mapObject f = Json.mapObject (Table.beside keys) := by
  obtain ⟨v?, hf⟩ := h
  funext x
  cases x with
  | obj members => exact congrArg Json.obj (hf.beside_eq hkey members)
  | _ => rfl

theorem beside_mount {volume path env value : String} (container : Dict Json) :
    Table.beside ["env", "volumeMounts"] (mount volume path env value container) =
      Table.beside ["env", "volumeMounts"] container := by
  rw [mount]
  exact ((Json.writes_withItems "env" _).beside_eq (by decide) _).trans
    ((Json.writes_withItems "volumeMounts" _).beside_eq (by decide) _)

theorem commute_beside_onFirst (first second : List String) : Function.Commute
    (List.map (Json.mapObject (Table.beside first)))
    (mapFirstContainer.onFirst (Table.beside second)) :=
  Resource.commute_map_onFirst fun members => Table.beside_comm first second members

/-- What is mounted into the first container of the controller is taken away again. -/
theorem untouchedContainers_mount {volume path env value : String}
    (hcontroller : r.isController = true) (items : List Json) :
    r.untouchedContainers (mapFirstContainer.onFirst (mount volume path env value) items) =
      r.untouchedContainers items := by
  have hfirst : ∀ items, r.untouchedContainers items =
      List.map (Json.mapObject (Table.beside r.containerKeys))
        (mapFirstContainer.onFirst (Table.beside ["env", "volumeMounts"]) items) := fun items => by
    rw [Resource.untouchedContainers, if_pos hcontroller]
    exact (commute_beside_onFirst _ _ items).symm
  rw [hfirst, hfirst, Resource.traversal_onFirst.update_update]
  exact congrArg _ (Resource.traversal_onFirst.update_congr fun c _ => beside_mount c)

theorem ContainersChange.untouched {f : List Json → List Json} (h : ContainersChange i r f)
    (items : List Json) : r.untouchedContainers (f items) = r.untouchedContainers items := by
  have hmap : ∀ {key : String} {g : Dict Json → Dict Json}, WritesByName key g →
      key ∈ r.containerKeys →
      r.untouchedContainers (items.map (Json.mapObject g)) = r.untouchedContainers items :=
    fun hg hkey => by
      rw [Resource.untouchedContainers, List.map_map, hg.beside_eq hkey, ← Resource.untouchedContainers]
  cases h with
  | images => exact hmap (writesByName_putImage _) (by rw [Resource.containerKeys]; split <;> simp)
  | compute hkind => exact hmap (writesByName_putCompute _) (by simp [Resource.containerKeys, hkind])
  | certs hcontroller => exact untouchedContainers_mount hcontroller items

/-! ## Changes of pods -/

/-- Changes of the lists of pull secrets and volumes are taken away again. -/
theorem untouchedPod_of_commute {g : Dict Json → Dict Json} {key : String}
    {v? : Dict Json → Option Json} (hg : Writes key v? g)
    (hcommute : Function.Commute (onContainers r.untouchedContainers) g)
    (hkey : key ∈ ["imagePullSecrets", "volumes"]) (pod : Dict Json) :
    r.untouchedPod (g pod) = r.untouchedPod pod := by
  rw [Resource.untouchedPod, hcommute, hg.beside_eq hkey, ← Resource.untouchedPod]

theorem untouchedPod_onContainers {f : List Json → List Json}
    (h : ∀ items, r.untouchedContainers (f items) = r.untouchedContainers items) (pod : Dict Json) :
    r.untouchedPod (onContainers f pod) = r.untouchedPod pod := by
  rw [Resource.untouchedPod, Json.traversal_onContainers.update_update, Resource.untouchedPod]
  exact congrArg _ (Json.traversal_onContainers.update_congr fun items _ => h items)

theorem untouchedPod_volumes (f : List Json → List Json) (pod : Dict Json) :
    r.untouchedPod (Json.withItems "volumes" f pod) = r.untouchedPod pod :=
  untouchedPod_of_commute (Json.writes_withItems "volumes" f)
    (Json.commute_onContainers_withItems (by decide) _ _) (by decide) pod

theorem PodChange.untouched {f : Dict Json → Dict Json} (h : PodChange i r f) (pod : Dict Json) :
    r.untouchedPod (f pod) = r.untouchedPod pod := by
  cases h with
  | containers h => exact untouchedPod_onContainers h.untouched pod
  | pullSecrets =>
    obtain ⟨secrets?, hsecrets⟩ := i.spec.registry.writes_addPullSecrets
    exact untouchedPod_of_commute hsecrets (commute_containers_pullSecrets _ _) (by decide) pod
  | certs => exact untouchedPod_volumes _ pod
  | serviceCerts hcontroller =>
    rw [mountServiceCerts]
    split
    · rfl
    · rw [untouchedPod_onContainers (untouchedContainers_mount hcontroller), addServiceCerts,
        untouchedPod_volumes]

/-! ## Changes of resources -/

/-- What is done beside pods is done to members that are taken away. -/
theorem untouched_of_beside (hr : ¬ r.isWorkload) {x y : Resource}
    (h : Table.beside ("metadata" :: r.changeable) y.members =
      Table.beside ("metadata" :: r.changeable) x.members) : r.untouched y = r.untouched x := by
  rw [Resource.untouched, if_neg hr, h, Resource.untouched, if_neg hr]

theorem Change.untouched {F : Resource → Resource} (h : Change i r F) (x : Resource) :
    r.untouched (F x) = r.untouched x := by
  cases h with
  | pod hkind h =>
    have hr : r.isWorkload := hkind
    have hpods : (x.mapPodSpec _).mapPodSpec r.untouchedPod = x.mapPodSpec r.untouchedPod :=
      (Resource.mapPodSpec_mapPodSpec _ _ x).trans
        (Resource.mapPodSpec_congr fun pod _ => h.untouched pod)
    rw [Resource.untouched, if_pos hr, hpods, Resource.untouched, if_pos hr]
  | data hkind =>
    refine untouched_of_beside (by simp [Resource.isWorkload, hkind]) (Table.beside_put ?_ _ _)
    simp [Resource.changeable, hkind]
  | gateway hkind =>
    refine untouched_of_beside (by simp [Resource.isWorkload, hkind.1]) (Table.beside_put ?_ _ _)
    simp [Resource.changeable, hkind]
  | cachedImage hkind =>
    have hkeys : r.changeable = ["spec", "status"] := by
      simp [Resource.changeable, hkind]
    have hr : ¬ r.isWorkload := by simp [Resource.isWorkload, hkind.1]
    refine untouched_of_beside hr ?_
    rw [hkeys]
    exact (Table.beside_drop (by decide) _).trans (Table.beside_put (by decide) _ _)

theorem untouched_metadata (f : Dict Json → Dict Json) (x : Resource) :
    r.untouched (x.within "metadata" f) = r.untouched x := by
  by_cases hr : r.isWorkload
  · have hpods : (x.within "metadata" f).mapPodSpec r.untouchedPod =
        (x.mapPodSpec r.untouchedPod).within "metadata" f :=
      congrArg Resource.mk (Json.commute_adjust_withObject (by decide) _ f x.members)
    rw [Resource.untouched, if_pos hr, hpods, Resource.untouched, if_pos hr]
    exact Table.beside_put List.mem_cons_self _ _
  · exact untouched_of_beside hr (Table.beside_put List.mem_cons_self _ _)

theorem HeadChange.untouched {H : Resource → Resource} (h : HeadChange i r H) (x : Resource) :
    r.untouched (H x) = r.untouched x := by
  cases h with
  | owner => exact untouched_metadata _ x
  | place => exact untouched_metadata _ x
  | references hmoved =>
    have hkind := references?_eq_some hmoved
    have hr : ¬ r.isWorkload := by
      rintro (h | h) <;> simp [h] at hkind
    refine untouched_of_beside hr (Table.beside_adjust (List.mem_cons_of_mem _ ?_) _ _)
    obtain ⟨hkind, rfl, -⟩ | ⟨hkind, rfl, -⟩ | ⟨hkind, rfl, -⟩ := hkind
    · rw [Resource.changeable, if_pos hkind]
      exact List.mem_singleton_self _
    · have hother : ["ClusterRoleBinding", "RoleBinding"].contains r.kind = false := by
        obtain h | h : r.kind = _ ∨ r.kind = _ := by simpa using hkind
        · rw [h]; decide
        · rw [h]; decide
      rw [Resource.changeable, hother, if_neg (by decide), if_pos hkind]
      exact List.mem_singleton_self _
    · simp [Resource.changeable, hkind]

/-! ## Metadata -/

theorem HeadChange.metadata {H : Resource → Resource} (h : HeadChange i r H) (x : Resource) :
    Table.beside ["namespace", "ownerReferences"] (H x).metadata =
      Table.beside ["namespace", "ownerReferences"] x.metadata := by
  cases h with
  | owner =>
    rw [Resource.metadata_within]
    exact (Json.writes_withItems "ownerReferences" _).beside_eq (by decide) _
  | place =>
    rw [Resource.setNamespace_eq, Resource.metadata_within]
    exact Table.beside_put (by decide) _ _
  | references hmoved =>
    have hkey : _ ∉ Resource.headKeys := not_mem_headKeys hmoved
    rw [(Resource.aside_adjust hkey _ x).metadata_eq]

end Transformer

/-! ## Names of containers -/

namespace Resource

variable {r x y : Resource} {f : Dict Json → Dict Json} {items : List Json}

/-- The names of the containers of a pod, one by one. -/
def containerNames (pod : Dict Json) : List (Option String) :=
  (Json.itemsAt "containers" pod).map (Json.getStr? "name")

theorem itemsAt_onContainers {f : List Json → List Json} (hf : f [] = []) (pod : Dict Json) :
    Json.itemsAt "containers" (onContainers f pod) = f (Json.itemsAt "containers" pod) := by
  rw [Json.itemsAt, onContainers, Table.lookup_adjust, if_pos rfl, Json.itemsAt]
  cases pod.lookup "containers" with
  | none => exact hf.symm
  | some x =>
    cases x with
    | arr items => rfl
    | _ => exact hf.symm

theorem getStr?_mapObject (h : ∀ c, (f c).lookup "name" = c.lookup "name") (x : Json) :
    (Json.mapObject f x).getStr? "name" = x.getStr? "name" := by
  cases x with
  | obj members => exact congrArg (·.bind Json.asStr?) (h members)
  | _ => rfl

theorem names_onFirst (h : ∀ c, (f c).lookup "name" = c.lookup "name") :
    (mapFirstContainer.onFirst f items).map (Json.getStr? "name") =
      items.map (Json.getStr? "name") := by
  induction items with
  | nil => rfl
  | cons x rest ih =>
    cases hx : x.asObj? with
    | none => rw [onFirst_cons hx, List.map_cons, List.map_cons, ih]
    | some members =>
      obtain rfl := Json.eq_obj_of_asObj? hx
      exact congrArg (· :: rest.map _) (getStr?_mapObject h (.obj members))

/-- Every other member is left as it is. -/
theorem lookup_untouched {key : String}
    (h : key ∉ ["metadata", "subjects", "webhooks", "data", "spec", "status"]) (x : Resource) :
    (r.untouched x).lookup key = x.members.lookup key := by
  have hchangeable : key ∉ "metadata" :: r.changeable := by
    simp only [List.mem_cons, List.not_mem_nil, or_false, not_or] at h
    rw [changeable]
    split_ifs <;> simp [h]
  rw [untouched, Table.lookup_beside hchangeable]
  split
  · have hne : ¬ key = "spec" := by
      rintro rfl
      exact h (by decide)
    rw [mapPodSpec, Table.lookup_adjust, if_neg hne]
  · rfl

/-- What is left of containers still has their names. -/
theorem names_untouchedContainers (r : Resource) (items : List Json) :
    (r.untouchedContainers items).map (Json.getStr? "name") = items.map (Json.getStr? "name") := by
  have hkeys : "name" ∉ r.containerKeys := by
    rw [containerKeys]
    split <;> decide
  have hall : (items.map (Json.mapObject (Table.beside r.containerKeys))).map (Json.getStr? "name") =
      items.map (Json.getStr? "name") := by
    rw [List.map_map]
    exact List.map_congr_left fun x _ => getStr?_mapObject (Table.lookup_beside hkeys) x
  rw [untouchedContainers]
  split
  · rw [names_onFirst (Table.lookup_beside (by decide)), hall]
  · exact hall

theorem containerNames_untouchedPod (r : Resource) (pod : Dict Json) :
    containerNames (r.untouchedPod pod) = containerNames pod := by
  have hnil : r.untouchedContainers [] = [] := by
    rw [untouchedContainers]
    split <;> rfl
  rw [containerNames, untouchedPod, Json.itemsAt, Table.lookup_beside (by decide), ← Json.itemsAt,
    itemsAt_onContainers hnil, names_untouchedContainers, containerNames]

/-- Where the same is left of a workload, its containers are in number, order and name the same. -/
theorem containerNames_of_untouched (hr : r.isWorkload) (h : r.untouched y = r.untouched x) :
    y.podSpec?.map containerNames = x.podSpec?.map containerNames := by
  have hnone : r.changeable = [] := by
    obtain h | h := hr <;> simp [changeable, h]
  have hleft : ∀ z : Resource, (r.untouched z).lookup "spec" =
      (z.mapPodSpec r.untouchedPod).members.lookup "spec" := fun z => by
    rw [untouched, if_pos hr, hnone, Table.lookup_beside (by decide)]
  have hpods : y.podSpec?.map r.untouchedPod = x.podSpec?.map r.untouchedPod := by
    rw [← podSpec?_mapPodSpec, ← podSpec?_mapPodSpec, podSpec?_eq, podSpec?_eq, ← hleft, ← hleft, h]
  have hnames : ∀ z : Resource, z.podSpec?.map containerNames =
      (z.podSpec?.map r.untouchedPod).map containerNames := fun z => by
    rw [Option.map_map]
    exact congrArg (z.podSpec?.map ·) (funext (containerNames_untouchedPod r)).symm
  rw [hnames, hpods, ← hnames]

end Resource

/-! ## An instance that asks for nothing -/

namespace Transformer

variable {i : Instance} {t : Transformer} {x : Resource}

theorem putImage_plain (name : String) (members : Dict Json) :
    Registry.putImage {} name members = members := by
  have hnone : Registry.image? {} name = none := by
    simp [Registry.image?, Text.replaceAll, Text.replaceFrom]
  rw [Registry.putImage, hnone]

theorem mapContainers_eq_self {f : Dict Json → Dict Json} (h : ∀ c, f c = c) :
    x.mapContainers f = x := by
  have hf : f = id := funext h
  rw [Resource.mapContainers, hf, Json.mapObject_id, List.map_id_fun, Json.mapItems_id,
    Table.adjust_id, Resource.mapPodSpec_id]

/-- Without settings the later transformers change cached images alone. -/
theorem Later.apply_plain (h : Later i t) (hspec : i.spec = {})
    (hx : ¬ (x.kind = "Image" ∧ x.apiVersion = cachingApiVersion)) : t.apply x = .ok x := by
  cases h with
  | images =>
    refine total_eq_ok.2 ?_
    rw [hspec]
    by_cases hkind : x.kind = "Deployment" ∨ x.kind = "DaemonSet"
    · rw [if_pos hkind, putWorkloadImages, mapContainers_eq_self fun c => putImage_plain _ c]
      exact Resource.mapPodSpec_id x
    · rw [if_neg hkind, if_neg hx]
  | computeResources =>
    refine total_eq_ok.2 ?_
    rw [hspec]
    split
    · exact mapContainers_eq_self fun _ => rfl
    · rfl
  | gateways =>
    refine total_eq_ok.2 ?_
    have hnone : i.gatewayOverride? x.name = none := by
      simp [Instance.gatewayOverride?, hspec]
    rw [hnone]
    split <;> rfl
  | configMaps =>
    refine total_eq_ok.2 ?_
    rw [hspec]
    split
    · cases configSuffix? x.name <;> rfl
    · rfl
  | customCerts => rw [hspec]; rfl

end Transformer

namespace Pipeline

open Transformer

variable {i : Instance} {p : Pipeline} {extra : List Transformer} {r x out : Resource}

theorem apply_later_plain (hspec : i.spec = {})
    (hx : ¬ (x.kind = "Image" ∧ x.apiVersion = cachingApiVersion)) :
    ∀ {rest : Pipeline}, (∀ t ∈ rest, Later i t) → rest.apply x = .ok x
  | [], _ => rfl
  | _ :: _, h => by
    obtain ⟨ht, hrest⟩ := List.forall_mem_cons.1 h
    exact apply_cons_eq_ok.2 ⟨x, ht.apply_plain hspec hx, apply_later_plain hspec hx hrest⟩

/-- An instance that asks for nothing has owner and namespace set. -/
theorem apply_plain (hi : builtin i = .ok p) (hspec : i.spec = {})
    (hr : ¬ (r.kind = "Image" ∧ r.apiVersion = cachingApiVersion))
    (h : Pipeline.apply p r = .ok out) : ∃ owner, Transformer.owner i = .ok owner ∧
      Pipeline.apply [owner, inNamespace i.targetNamespace] r = .ok out := by
  obtain ⟨owner, rest, rfl, howner, hrest⟩ := builtin_eq_ok hi
  obtain ⟨owned, hfirst, hsecond⟩ := apply_cons_eq_ok.1 h
  obtain ⟨moved, hmoved, hthird⟩ := apply_cons_eq_ok.1 hsecond
  have halike : r.Alike moved := by
    rw [← total_eq_ok.1 hmoved]
    exact (gentle_owner howner hfirst).keeps.alike.trans (alike_moveTo owned)
  have hout : Pipeline.apply rest moved = .ok moved :=
    apply_later_plain hspec (by rwa [halike.kind, halike.apiVersion]) hrest
  obtain rfl := Except.ok.inj (hout.symm.trans hthird)
  exact ⟨owner, howner, apply_cons_eq_ok.2 ⟨owned, hfirst, apply_cons_eq_ok.2 ⟨moved, hmoved, rfl⟩⟩⟩

/-- **A pipeline leaves alone what it is not asked to change.** API version and kind stay, and so do
all metadata but namespace and owners. Of the other members the same is left as before once those are
taken away that are changed in resources of the kind; in workloads these are entries of the pod and of
its containers alone, which stay the same in number, order and name. Without platforms an instance
that asks for nothing only has owner and namespace set, cached images apart. -/
theorem frame (hi : builtin i = .ok p) (hextra : ∀ t ∈ extra, PlatformTransformer t)
    (h : Pipeline.apply (p ++ extra) r = .ok out) :
    out.members.lookup "apiVersion" = r.members.lookup "apiVersion" ∧
    out.members.lookup "kind" = r.members.lookup "kind" ∧
    Table.beside ["namespace", "ownerReferences"] out.metadata =
      Table.beside ["namespace", "ownerReferences"] r.metadata ∧
    r.untouched out = r.untouched r ∧
    (r.isWorkload →
      out.podSpec?.map Resource.containerNames = r.podSpec?.map Resource.containerNames) ∧
    (extra = [] → i.spec = {} → ¬ (r.kind = "Image" ∧ r.apiVersion = cachingApiVersion) →
      ∃ owner, Transformer.owner i = .ok owner ∧
        Pipeline.apply [owner, inNamespace i.targetNamespace] r = .ok out) := by
  obtain ⟨head, later, hhead, hlater, hout, hall⟩ := exists_changes hi hextra h
  have hmade : carryOut (head ++ later) r = out := Except.ok.inj ((hall r (.refl r)).symm.trans h)
  have hkept : ∀ {β : Type} (of : Resource → β), (∀ H, HeadChange i r H → ∀ x, of (H x) = of x) →
      (∀ F, Change i r F → ∀ x, of (F x) = of x) → of out = of r := fun of hH hF => by
    rw [← hmade]
    exact carryOut_keeps of (List.forall_mem_append.2
      ⟨fun H hmem => hH H (hhead H hmem), fun F hmem => hF F (hlater F hmem)⟩) r
  have huntouched : r.untouched out = r.untouched r :=
    hkept r.untouched (fun H hH => hH.untouched) fun F hF => hF.untouched
  have hmetadata := hkept (fun x => Table.beside ["namespace", "ownerReferences"] x.metadata)
    (fun H hH => hH.metadata) fun F hF x => by rw [(hF.aside x).metadata_eq]
  have hmember : ∀ key, key ∉ ["metadata", "subjects", "webhooks", "data", "spec", "status"] →
      out.members.lookup key = r.members.lookup key := fun key hkey => by
    rw [← Resource.lookup_untouched (r := r) hkey out, huntouched, Resource.lookup_untouched hkey]
  refine ⟨hmember _ (by decide), hmember _ (by decide), hmetadata, huntouched,
    fun hr => Resource.containerNames_of_untouched hr huntouched, ?_⟩
  rintro rfl hspec hr
  rw [List.append_nil] at h
  exact apply_plain hi hspec hr h

/-! ### A controller that gets images and certificates -/

namespace Framed

def plain : Instance where
  metadata := { name := some "serving", namespaceName := some "n", uid := some "u" }
  spec := {}

/-- An instance that asks for images and certificates. -/
def serving : Instance := { plain with
  spec := {
    registry := { default := "example.com/" ++ namePlaceholder, imagePullSecrets := ["key"] }
    customCerts := some { kind := "Secret", name := "ca" } } }

def containers : List Json := [.null,
  .obj [("env", .null), ("image", .str "controller:1"), ("name", .str "controller")],
  .obj [("image", .str "proxy:1"), ("name", .str "proxy")]]

def controller : Resource := ⟨[("apiVersion", .str "apps/v1"), ("kind", .str "Deployment"),
  ("metadata", .obj [("name", .str "controller")]),
  ("spec", .obj [("replicas", .int 2), ("template", .obj [("spec", .obj [
    ("containers", .arr containers), ("volumes", .str "none")])])])]⟩

/-- What is left of its containers. -/
def containersLeft : List Json :=
  [.null, .obj [("name", .str "controller")], .obj [("name", .str "proxy")]]

def left : Dict Json := [("apiVersion", .str "apps/v1"), ("kind", .str "Deployment"),
  ("spec", .obj [("replicas", .int 2), ("template", .obj [("spec", .obj [
    ("containers", .arr containersLeft)])])])]

end Framed

/-- Replicas and names stay while images and certificates are set; and for an instance that asks for
nothing the controller only gets its owner and its namespace. -/
theorem frame_controller :
    (∃ p out, builtin Framed.serving = .ok p ∧
      Pipeline.apply (p ++ [serviceCerts]) Framed.controller = .ok out ∧
      Framed.controller.untouched out = Framed.left ∧
      out.podSpec?.map Resource.containerNames = some [none, some "controller", some "proxy"]) ∧
    ∃ p out owner, builtin Framed.plain = .ok p ∧ p.apply Framed.controller = .ok out ∧
      Transformer.owner Framed.plain = .ok owner ∧
      Pipeline.apply [owner, inNamespace "n"] Framed.controller = .ok out := by
  obtain ⟨p, out, hp, hout⟩ : ∃ p out, builtin Framed.serving = .ok p ∧
      Pipeline.apply (p ++ [serviceCerts]) Framed.controller = .ok out := ⟨_, _, rfl, rfl⟩
  obtain ⟨p', out', hp', hout'⟩ : ∃ p out, builtin Framed.plain = .ok p ∧
      Pipeline.apply (p ++ []) Framed.controller = .ok out := ⟨_, _, rfl, rfl⟩
  obtain ⟨-, -, -, huntouched, hnames, -⟩ :=
    frame hp (List.forall_mem_singleton.2 .serviceCerts) hout
  obtain ⟨-, -, -, -, -, hplain⟩ := frame hp' (List.forall_mem_nil _) hout'
  obtain ⟨owner, howner, hgiven⟩ := hplain rfl rfl (by decide)
  rw [List.append_nil] at hout'
  exact ⟨⟨p, out, hp, hout, huntouched.trans rfl, (hnames (by decide)).trans rfl⟩,
    p', out', owner, hp', hout', howner, hgiven⟩

end Pipeline

end ReleaseKeeper
