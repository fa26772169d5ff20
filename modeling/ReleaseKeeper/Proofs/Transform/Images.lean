import ReleaseKeeper.Proofs.Text.Replace
import ReleaseKeeper.Proofs.Transform.Retarget

/-!
# Images and pull secrets

Which image something gets depends on its name alone: its own override comes before the default with
the name in place of the placeholder, and what is empty counts as not given (`Registry.ImageSet`). The
pull secrets of an instance come behind those that are listed already, each of them once
(`Registry.SecretsAdded`). Workloads get images container by container, and cached images as a whole;
where either relation leaves something out it stays as it is (`Transformer.images_set`).
-/
namespace ReleaseKeeper

open Json (ItemsChanged itemsAt objectAt onContainers)
open Table (SameBut)

namespace Table

variable {α : Type} {keys : List String} {key : String} {before after : Dict α}

theorem SameBut.lookup_eq (h : SameBut keys before after) (hkey : key ∉ keys) :
    after.lookup key = before.lookup key := by
  rw [← lookup_beside hkey, h.rest, lookup_beside hkey]

theorem sameBut_drop (h : key ∈ keys) (entries : Dict α) : SameBut keys entries (drop key entries) :=
  ⟨beside_drop h entries, sorted_drop⟩

end Table

/-- A change that sets one entry keeps all others. -/
theorem Writes.sameBut {key : String} {v? : Dict Json → Option Json} {f : Dict Json → Dict Json}
    (hf : Writes key v? f) {keys : List String} (h : key ∈ keys) (entries : Dict Json) :
    SameBut keys entries (f entries) := by
  rw [hf.eq]
  cases v? entries with
  | none => exact .refl keys entries
  | some x => exact Table.sameBut_put h x entries

/-! ## What a registry asks for -/

namespace Registry

/-- What becomes of the image of something with a name. -/
inductive ImageSet (r : Registry) (name : String) (before : Option Json) : Option Json → Prop
  /-- Its own override comes first. -/
  | override {image : String} (h : r.overrides.lookup name = some image) (hne : image ≠ "") :
      ImageSet r name before (some (.str image))
  /-- Then comes the default, the name in place of the placeholder. -/
  | default {image : String} (hnone : ∀ own ∈ r.overrides.lookup name, own = "")
      (h : Text.Replaced namePlaceholder.toList name.toList r.default.toList image.toList)
      (hne : image ≠ "") : ImageSet r name before (some (.str image))
  /-- Else the release's is kept. -/
  | kept (hnone : ∀ own ∈ r.overrides.lookup name, own = "")
      (h : Text.Replaced namePlaceholder.toList name.toList r.default.toList []) :
      ImageSet r name before before

/-- A container is told its image by its name; what is no object stays. -/
inductive ContainerImaged (r : Registry) : Json → Json → Prop
  | object {m m' : Dict Json}
      (image : r.ImageSet (Json.nameOf m) (m.lookup "image") (m'.lookup "image"))
      (rest : SameBut ["image"] m m') : ContainerImaged r (.obj m) (.obj m')
  | other {x : Json} (hx : x.asObj? = none) : ContainerImaged r x x

def secretEntry (name : String) : Json := .obj [("name", .str name)]

/-- Behind what is listed come the names that are not, each once. -/
structure SecretsAdded (names : List String) (before after : Option Json) : Prop where
  none : names = [] → after = before
  some : names ≠ [] → ∃ added : List String,
    after = Option.some (.arr ((before.bind Json.asArr?).getD [] ++ added.map secretEntry)) ∧
    added.Nodup ∧
    (∀ name ∈ added, name ∈ names ∧ secretEntry name ∉ (before.bind Json.asArr?).getD []) ∧
    ∀ name ∈ names, secretEntry name ∈ (before.bind Json.asArr?).getD [] ++ added.map secretEntry

/-- A pod gets images and pull secrets, and nothing else. -/
structure PodImaged (r : Registry) (pod pod' : Dict Json) : Prop where
  containers : Option.Rel (ItemsChanged r.ContainerImaged)
    (pod.lookup "containers") (pod'.lookup "containers")
  secrets : SecretsAdded r.imagePullSecrets
    (pod.lookup "imagePullSecrets") (pod'.lookup "imagePullSecrets")
  rest : SameBut ["containers", "imagePullSecrets"] pod pod'

/-- A workload whose pod has got its images; with the former pod it is the former workload. -/
structure WorkloadImaged (registry : Registry) (r out : Resource) : Prop where
  pod : Option.Rel registry.PodImaged r.podSpec? out.podSpec?
  rest : ∀ pod ∈ r.podSpec?, out.mapPodSpec (fun _ => pod) = r
  none : r.podSpec? = none → out = r

/-- A cached image that has got its image by its own name; what was observed of it is gone. -/
structure CachedImaged (registry : Registry) (r out : Resource) : Prop where
  spec : ∃ spec, out.members.lookup "spec" = some (.obj spec) ∧
    registry.ImageSet r.name ((objectAt "spec" r.members).lookup "image") (spec.lookup "image") ∧
    SecretsAdded registry.imagePullSecrets
      ((objectAt "spec" r.members).lookup "imagePullSecrets") (spec.lookup "imagePullSecrets") ∧
    SameBut ["image", "imagePullSecrets"] (objectAt "spec" r.members) spec
  status : out.members.lookup "status" = none
  rest : SameBut ["spec", "status"] r.members out.members

variable (registry : Registry)

/-! ## Images -/

theorem imageSet_putImage (name : String) (members : Dict Json) :
    registry.ImageSet name (members.lookup "image")
      ((registry.putImage name members).lookup "image") := by
  have hplaceholder : namePlaceholder ≠ "" := by decide
  rw [putImage, image?]
  cases hown : (registry.overrides.lookup name).filter (· ≠ "") with
  | some image =>
    obtain ⟨hlookup, hne⟩ := Option.filter_eq_some_iff.1 hown
    rw [Table.lookup_put, if_pos rfl]
    exact .override hlookup (by simpa using hne)
  | none =>
    have hnone : ∀ own ∈ registry.overrides.lookup name, own = "" := by
      simpa [Option.filter_eq_none_iff] using hown
    have hdefault := (@Text.replaceAll_eq_iff namePlaceholder name registry.default _
      hplaceholder).1 rfl
    by_cases hempty : Text.replaceAll namePlaceholder name registry.default = ""
    · rw [hempty] at hdefault
      simp only [hempty, if_true]
      exact .kept hnone hdefault
    · simp only [hempty, if_false, Table.lookup_put, if_true]
      exact .default hnone hdefault hempty

theorem containerImaged (x : Json) : registry.ContainerImaged x
    (Json.mapObject (fun c => registry.putImage (Json.nameOf c) c) x) := by
  cases x with
  | obj m =>
    refine .object (registry.imageSet_putImage (Json.nameOf m) m) ?_
    exact (registry.writes_putImage Json.nameOf).sameBut List.mem_cons_self m
  | _ => exact .other rfl

/-! ## Pull secrets -/

theorem any_secretEntry_iff (name : String) (items : List Json) :
    items.any (secretEntry name == ·) = true ↔ secretEntry name ∈ items := by
  have hexact : (secretEntry name).Exact := Json.exact_ofTexts [("name", name)]
  have hself : (secretEntry name).same (secretEntry name) = true := by
    simp [secretEntry, Json.same, Json.sameMembers]
  rw [List.any_eq_true]
  constructor
  · rintro ⟨x, hx, hsame⟩
    have hsame : x.same (secretEntry name) = true := (Json.same_comm _ _).trans hsame
    rwa [← hexact x hsame]
  · exact fun hmem => ⟨_, hmem, hself⟩

/-- Adding names one by one adds each of them once, behind what there is. -/
theorem exists_added : ∀ (names : List String) (items : List Json), ∃ added : List String,
    names.foldl (fun xs name => Json.addNew (secretEntry name) xs) items =
      items ++ added.map secretEntry ∧
    added.Nodup ∧ (∀ name ∈ added, name ∈ names ∧ secretEntry name ∉ items) ∧
    ∀ name ∈ names, secretEntry name ∈ items ++ added.map secretEntry
  | [], items => ⟨[], by simp⟩
  | name :: rest, items => by
    rw [List.foldl_cons, Json.addNew]
    by_cases hlisted : secretEntry name ∈ items
    · rw [if_pos ((any_secretEntry_iff name items).2 hlisted)]
      obtain ⟨added, hfold, hnodup, hnew, hall⟩ := exists_added rest items
      refine ⟨added, hfold, hnodup, fun n hn => ?_, List.forall_mem_cons.2 ⟨?_, hall⟩⟩
      · exact ⟨List.mem_cons_of_mem _ (hnew n hn).1, (hnew n hn).2⟩
      · exact List.mem_append_left _ hlisted
    · rw [if_neg fun hany => hlisted ((any_secretEntry_iff name items).1 hany)]
      obtain ⟨added, hfold, hnodup, hnew, hall⟩ := exists_added rest (items ++ [secretEntry name])
      have hlist : items ++ [secretEntry name] ++ added.map secretEntry =
          items ++ (name :: added).map secretEntry := by simp
      rw [hlist] at hfold hall
      have hfresh : name ∉ added := fun hmem => (hnew name hmem).2 (by simp)
      refine ⟨name :: added, hfold, List.nodup_cons.2 ⟨hfresh, hnodup⟩, ?_, ?_⟩
      · refine List.forall_mem_cons.2 ⟨⟨List.mem_cons_self, hlisted⟩, fun n hn => ?_⟩
        obtain ⟨hmem, hnot⟩ := hnew n hn
        exact ⟨List.mem_cons_of_mem _ hmem, fun hin => hnot (List.mem_append_left _ hin)⟩
      · exact List.forall_mem_cons.2 ⟨by simp, hall⟩

theorem secretsAdded_addPullSecrets (members : Dict Json) :
    SecretsAdded registry.imagePullSecrets (members.lookup "imagePullSecrets")
      ((registry.addPullSecrets members).lookup "imagePullSecrets") where
  none h := by rw [addPullSecrets, h]; rfl
  some h := by
    obtain ⟨added, hfold, hadded⟩ :=
      exists_added registry.imagePullSecrets (itemsAt "imagePullSecrets" members)
    refine ⟨added, ?_, hadded⟩
    rw [addPullSecrets, if_neg (by simpa using h), Json.withItems, Table.lookup_put, if_pos rfl]
    exact congrArg (fun items => Option.some (Json.arr items)) hfold

theorem sameBut_addPullSecrets {keys : List String} (h : "imagePullSecrets" ∈ keys)
    (members : Dict Json) : SameBut keys members (registry.addPullSecrets members) := by
  obtain ⟨secrets?, hsecrets⟩ := registry.writes_addPullSecrets
  exact hsecrets.sameBut h members

/-! ## Pods and cached images -/

theorem podImaged (pod : Dict Json) : registry.PodImaged pod (registry.addPullSecrets
    (onContainers (List.map (Json.mapObject fun c => registry.putImage (Json.nameOf c) c)) pod)) where
  containers := by
    rw [(registry.sameBut_addPullSecrets (List.mem_singleton_self _) _).lookup_eq (by decide),
      onContainers, Table.lookup_adjust, if_pos rfl]
    exact Json.rel_map (Json.itemsChanged_mapItems registry.containerImaged) _
  secrets := by
    have hkept : ∀ f, (onContainers f pod).lookup "imagePullSecrets" = pod.lookup "imagePullSecrets" :=
      fun f => (Table.sameBut_adjust (List.mem_singleton_self _) _ pod).lookup_eq (by decide)
    rw [← hkept (List.map (Json.mapObject fun c => registry.putImage (Json.nameOf c) c))]
    exact registry.secretsAdded_addPullSecrets _
  rest := (Table.sameBut_adjust (by decide) _ pod).trans
    (registry.sameBut_addPullSecrets (by decide) _)

theorem workloadImaged (r : Resource) :
    registry.WorkloadImaged r (Transformer.putWorkloadImages registry r) := by
  have hpod : Transformer.putWorkloadImages registry r = r.mapPodSpec (registry.addPullSecrets ∘
      onContainers (List.map (Json.mapObject fun c => registry.putImage (Json.nameOf c) c))) :=
    Resource.mapPodSpec_mapPodSpec _ _ r
  rw [hpod]
  refine ⟨?_, fun pod hmem => ?_, fun hnone => ?_⟩
  · rw [Resource.podSpec?_mapPodSpec]
    cases r.podSpec? with
    | none => exact .none
    | some pod => exact .some (registry.podImaged pod)
  · rw [Resource.mapPodSpec_mapPodSpec]
    exact Resource.mapPodSpec_eq_self fun pod' hpod' => Option.some.inj (hmem.symm.trans hpod')
  · refine Resource.mapPodSpec_eq_self fun pod hsome => ?_
    cases hnone.symm.trans hsome

theorem cachedImaged (r : Resource) :
    registry.CachedImaged r (Transformer.putCachedImage registry r) where
  spec := by
    let spec := registry.putImage r.name (objectAt "spec" r.members)
    refine ⟨registry.addPullSecrets spec, ?_, ?_, ?_, ?_⟩
    · exact (Table.lookup_drop _ _ _).trans ((Table.lookup_put _ _ _ _).trans (if_pos rfl))
    · rw [(registry.sameBut_addPullSecrets (List.mem_singleton_self _) _).lookup_eq (by decide)]
      exact registry.imageSet_putImage _ _
    · have hkept : SameBut ["image"] (objectAt "spec" r.members) (registry.putImage r.name _) :=
        (registry.writes_putImage fun _ => r.name).sameBut List.mem_cons_self _
      rw [← hkept.lookup_eq (by decide)]
      exact registry.secretsAdded_addPullSecrets _
    · exact ((registry.writes_putImage fun _ => r.name).sameBut (by decide) _).trans
        (registry.sameBut_addPullSecrets (by decide) _)
  status := (Table.lookup_drop _ _ _).trans (if_pos rfl)
  rest := (Table.sameBut_put (by decide) _ r.members).trans (Table.sameBut_drop (by decide) _)

end Registry

namespace Transformer

/-- **Images are set by name.** Of a workload every container that is an object gets its own override,
else the default with its name in place of the placeholder, else what it had; its pod gets the pull
secrets that it does not list yet. A cached image is dealt with like a container and a pod at once. All
else stays as it is, and so does every other resource. -/
theorem images_set (registry : Registry) (r : Resource) :
    ∃ out, (images registry).apply r = .ok out ∧
      (r.isWorkload → registry.WorkloadImaged r out) ∧
      (r.kind = "Image" → r.apiVersion = cachingApiVersion → registry.CachedImaged r out) ∧
      (¬ r.isWorkload → ¬ (r.kind = "Image" ∧ r.apiVersion = cachingApiVersion) → out = r) := by
  by_cases hworkload : r.kind = "Deployment" ∨ r.kind = "DaemonSet"
  · refine ⟨putWorkloadImages registry r, total_eq_ok.2 (if_pos hworkload),
      fun _ => registry.workloadImaged r, fun himage => ?_, fun hnot => absurd hworkload hnot⟩
    simp [himage] at hworkload
  · by_cases himage : r.kind = "Image" ∧ r.apiVersion = cachingApiVersion
    · refine ⟨putCachedImage registry r, total_eq_ok.2 ?_, fun h => absurd h hworkload,
        fun _ _ => registry.cachedImaged r, fun _ hnot => absurd himage hnot⟩
      rw [if_neg hworkload, if_pos himage]
    · refine ⟨r, total_eq_ok.2 ?_, fun h => absurd h hworkload,
        fun hkind hversion => absurd ⟨hkind, hversion⟩ himage, fun _ _ => rfl⟩
      rw [if_neg hworkload, if_neg himage]

/-! ### Names that are hard to put in -/

/-- A default that has the placeholder twice, overrides one of which is empty, and a secret twice. -/
def mirror : Registry where
  default := namePlaceholder ++ "/" ++ namePlaceholder
  overrides := [("proxy", "proxy:2"), ("queue", "")]
  imagePullSecrets := ["key", "spare", "spare"]

/-- A set of pods whose containers are none, or named after the placeholder, or not named at all. -/
def mirrored : Resource := ⟨[("apiVersion", .str "apps/v1"), ("kind", .str "DaemonSet"),
  ("metadata", .obj [("name", .str "mirrored")]),
  ("spec", .obj [("template", .obj [("spec", .obj [
    ("containers", .arr [.null,
      .obj [("image", .str "a:1"), ("name", .str namePlaceholder)],
      .obj [("name", .str "proxy")],
      .obj [("name", .str "queue")],
      .obj [("name", .int 5)]]),
    ("imagePullSecrets", .arr [.obj [("name", .str "key")]])])])])]⟩

/-- A name that holds the placeholder is put in as it is, and one that is no text counts as empty. -/
theorem images_set_mirrored : ∃ out, (images mirror).apply mirrored = .ok out ∧
    mirror.WorkloadImaged mirrored out ∧
    out.podSpec? = some [
      ("containers", .arr [.null,
        .obj [("image", .str "$\x7bNAME\x7d/$\x7bNAME\x7d"), ("name", .str namePlaceholder)],
        .obj [("image", .str "proxy:2"), ("name", .str "proxy")],
        .obj [("image", .str "queue/queue"), ("name", .str "queue")],
        .obj [("image", .str "/"), ("name", .int 5)]]),
      ("imagePullSecrets", .arr [.obj [("name", .str "key")], .obj [("name", .str "spare")]])] := by
  obtain ⟨out, hout, hworkload, -, -⟩ := images_set mirror mirrored
  obtain rfl := total_eq_ok.1 hout
  exact ⟨_, hout, hworkload (by decide), rfl⟩

end Transformer

end ReleaseKeeper
