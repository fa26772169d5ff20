import ReleaseKeeper.Proofs.Transform.Changes

/-!
# Changes of pods spare each other

A pod is changed in its containers, in its volumes and in its pull secrets. Changes of different
entries commute, in a pod as in a container, where what is set by the name of the container and what
is mounted are different entries, too (`WritesByName.commute_mount`). In the lists of volumes, mounts
and variables certificates of the instance stand beside those of services, and there it is the names
that tell them apart (`spares_mount`, `PodChange.spares_serviceCerts`). So each change of a pod settles,
and leaves alone what any other one has settled (`PodChange.settles`, `PodChange.spares`).
-/
namespace ReleaseKeeper

open Json (onContainers putNamed withItems)
open Resource (mapFirstContainer.onFirst)

namespace Json

variable {key : String} {x : Json} {members : Dict Json}

theorem nameOf_put (h : "name" ≠ key) : nameOf (Table.put key x members) = nameOf members := by
  rw [nameOf, Table.lookup_put, if_neg h, nameOf]

/-! ## Containers -/

theorem traversal_onContainers : Traversal
    (fun pod : Dict Json => (pod.lookup "containers").toList.flatMap fun x => x.asArr?.toList)
    onContainers :=
  (Table.traversal_adjust "containers").comp traversal_mapItems

/-- Changes of the containers and of another entry of a pod. -/
theorem commute_onContainers {k : String} {v? : Dict Json → Option Json} {g : Dict Json → Dict Json}
    (hg : Writes k v? g) (hk : "containers" ≠ k) (f : List Json → List Json)
    (hv : ∀ pod, v? (Table.adjust "containers" (mapItems f) pod) = v? pod) :
    Function.Commute (onContainers f) g :=
  hg.commute_adjust hk _ hv

theorem commute_onContainers_withItems {k : String} (hk : "containers" ≠ k)
    (f g : List Json → List Json) : Function.Commute (onContainers f) (withItems k g) :=
  commute_onContainers (writes_withItems k g) hk f fun pod => by rw [itemsAt_adjust hk.symm]

end Json

namespace Resource

variable {f m : Dict Json → Dict Json}

theorem onFirst_cons {x : Json} (h : x.asObj? = none) (rest : List Json) :
    mapFirstContainer.onFirst m (x :: rest) = x :: mapFirstContainer.onFirst m rest := by
  cases x with
  | obj members => cases h
  | _ => rfl

/-- Of a list of containers the first one that is an object. -/
theorem traversal_onFirst : Traversal
    (fun items : List Json => (items.findSome? Json.asObj?).toList) mapFirstContainer.onFirst where
  parts_update f items := by
    induction items with
    | nil => rfl
    | cons x rest ih =>
      cases hx : x.asObj? with
      | none => rw [onFirst_cons hx, List.findSome?_cons, hx, List.findSome?_cons, hx, ih]
      | some members =>
        obtain rfl := Json.eq_obj_of_asObj? hx
        rfl
  update_update f g items := by
    induction items with
    | nil => rfl
    | cons x rest ih =>
      cases hx : x.asObj? with
      | none => rw [onFirst_cons hx, onFirst_cons hx, onFirst_cons hx, ih]
      | some members =>
        obtain rfl := Json.eq_obj_of_asObj? hx
        rfl
  update_congr {f g items} h := by
    induction items with
    | nil => rfl
    | cons x rest ih =>
      cases hx : x.asObj? with
      | none =>
        rw [List.findSome?_cons, hx] at h
        rw [onFirst_cons hx, onFirst_cons hx, ih h]
      | some members =>
        obtain rfl := Json.eq_obj_of_asObj? hx
        exact congrArg (fun c => Json.obj c :: rest) (h members List.mem_cons_self)

/-- What commutes on containers commutes on a list of them, if one is done to all of them and the
other to the first. -/
theorem commute_map_onFirst (h : Function.Commute f m) :
    Function.Commute (List.map (Json.mapObject f)) (mapFirstContainer.onFirst m) := by
  intro items
  induction items with
  | nil => rfl
  | cons x rest ih =>
    cases hx : x.asObj? with
    | none =>
      have hfx : Json.mapObject f x = x := by cases x <;> first | rfl | cases hx
      rw [onFirst_cons hx, List.map_cons, ih, List.map_cons, hfx, onFirst_cons hx]
    | some members =>
      obtain rfl := Json.eq_obj_of_asObj? hx
      exact congrArg (fun c => Json.obj c :: rest.map _) (h members)

end Resource

namespace Registry

variable (registry : Registry)

theorem writes_putImage (name : Dict Json → String) :
    Writes "image" (fun members => (registry.image? (name members)).map Json.str)
      (fun members => registry.putImage (name members) members) where
  eq members := by
    rw [putImage]
    cases registry.image? (name members) <;> rfl

theorem writes_addPullSecrets : ∃ secrets? : List Json → Option Json,
    Writes "imagePullSecrets" (fun pod => secrets? (Json.itemsAt "imagePullSecrets" pod))
      registry.addPullSecrets := by
  refine ⟨fun items => if registry.imagePullSecrets.isEmpty then none else some (.arr
    (registry.imagePullSecrets.foldl (fun xs name => Json.addNew (.obj [("name", .str name)]) xs)
      items)), ⟨fun pod => ?_⟩⟩
  rw [addPullSecrets]
  split <;> rfl

theorem settles_addPullSecrets : Settles registry.addPullSecrets := by
  have hfold : (fun items => registry.imagePullSecrets.foldl
      (fun xs name => Json.addNew (.obj [("name", .str name)]) xs) items) = carryOut
      ((registry.imagePullSecrets.map fun name => Json.obj [("name", .str name)]).map Json.addNew) := by
    funext items
    rw [carryOut, List.foldl_map, List.foldl_map]
  have hitems : Settling
      ((registry.imagePullSecrets.map fun name => Json.obj [("name", .str name)]).map Json.addNew) :=
    Json.settling_addNew <| List.forall_mem_map.2 fun name _ => Json.same_refl <| by
      simp [Json.WellFormed, Json.WellFormedMembers, Table.Sorted]
  have hlist := (Json.traversal_withItems "imagePullSecrets").settles hitems.carryOut
  rw [← hfold] at hlist
  intro pod
  by_cases hnone : registry.imagePullSecrets.isEmpty = true
  · rw [addPullSecrets, if_pos hnone, addPullSecrets, if_pos hnone]
  · have hadd : ∀ pod, registry.addPullSecrets pod = Json.withItems "imagePullSecrets" _ pod :=
      fun pod => if_neg hnone
    rw [hadd, hadd]
    exact hlist pod

end Registry

namespace Transformer

/-! ## Mounts -/

section

variable {volume path env value volume' path' env' value' : String}

theorem named_mountPath (path volume : String) :
    (Json.obj [("mountPath", .str path), ("name", .str volume)]).Named volume := rfl

theorem named_value (env value : String) :
    (Json.obj [("name", .str env), ("value", .str value)]).Named env := rfl

/-- A volume is mounted, then the variable is set. -/
def mountSteps (volume path env value : String) : List (Dict Json → Dict Json) := [
  withItems "volumeMounts" (putNamed (.obj [("mountPath", .str path), ("name", .str volume)])),
  withItems "env" (putNamed (.obj [("name", .str env), ("value", .str value)]))]

theorem mount_eq : mount volume path env value = carryOut (mountSteps volume path env value) := rfl

theorem settling_mountSteps (volume path env value : String) :
    Settling (mountSteps volume path env value) where
  settles := List.forall_mem_cons.2
    ⟨(Json.traversal_withItems _).settles (Json.settles_putNamed (named_mountPath path volume)),
      List.forall_mem_singleton.2
        ((Json.traversal_withItems _).settles (Json.settles_putNamed (named_value env value)))⟩
  spares := List.pairwise_pair.2 (.of_commute (Json.commute_withItems (by decide) _ _))

theorem settles_mount : Settles (mount volume path env value) :=
  (settling_mountSteps volume path env value).carryOut

/-- Mounts of different volumes, told by different variables, spare each other. -/
theorem spares_mount (hvolume : volume ≠ volume') (henv : env ≠ env') :
    Spares (mount volume' path' env' value') (mount volume path env value) := by
  have hmounts : Spares
      (withItems "volumeMounts" (putNamed (.obj [("mountPath", .str path'), ("name", .str volume')])))
      (withItems "volumeMounts" (putNamed (.obj [("mountPath", .str path), ("name", .str volume)]))) :=
    (Json.traversal_withItems _).spares
      (Json.spares_putNamed (named_mountPath _ _) (named_mountPath _ _) hvolume)
  have henvs : Spares
      (withItems "env" (putNamed (.obj [("name", .str env'), ("value", .str value')])))
      (withItems "env" (putNamed (.obj [("name", .str env), ("value", .str value)]))) :=
    (Json.traversal_withItems _).spares
      (Json.spares_putNamed (named_value _ _) (named_value _ _) henv)
  rw [mount_eq, mount_eq]
  refine (settling_mountSteps volume path env value).spares_of_forall ?_
  simp only [mountSteps, List.forall_mem_cons, List.not_mem_nil, false_imp_iff, implies_true,
    and_true]
  refine ⟨Settling.spares_carryOut ?_, Settling.spares_carryOut ?_⟩
  · simp only [List.forall_mem_cons, List.not_mem_nil, false_imp_iff, implies_true, and_true]
    exact ⟨hmounts, .of_commute (Json.commute_withItems (by decide) _ _)⟩
  · simp only [List.forall_mem_cons, List.not_mem_nil, false_imp_iff, implies_true, and_true]
    exact ⟨.of_commute (Json.commute_withItems (by decide) _ _), henvs⟩

/-- A change of a container that sets one entry by the container's name, or none. -/
def WritesByName (key : String) (f : Dict Json → Dict Json) : Prop :=
  ∃ v? : String → Option Json, Writes key (fun c => v? (Json.nameOf c)) f

/-- Mounting leaves the name of a container alone, so it commutes with what is set by the name. -/
theorem WritesByName.commute_mount {k : String} {f : Dict Json → Dict Json} (h : WritesByName k f)
    (hmounts : k ≠ "volumeMounts") (henv : k ≠ "env") :
    Function.Commute f (mount volume path env value) := by
  obtain ⟨v?, hf⟩ := h
  have hname : ∀ {key : String}, "name" ≠ key → ∀ x (c : Dict Json),
      v? (Json.nameOf (Table.put key x c)) = v? (Json.nameOf c) := fun hkey x c => by
    rw [Json.nameOf_put hkey]
  have hitems : ∀ {key : String}, key ≠ k → ∀ (g : List Json → List Json) x (c : Dict Json),
      some (Json.arr (g (Json.itemsAt key (Table.put k x c)))) = some (.arr (g (Json.itemsAt key c))) :=
    fun hkey g x c => by rw [Json.itemsAt_put hkey]
  exact (hf.commute (Json.writes_withItems "env" _) henv (hname (by decide))
    (hitems henv.symm _)).comp_right
    (hf.commute (Json.writes_withItems "volumeMounts" _) hmounts (hname (by decide))
      (hitems hmounts.symm _))

end

/-! ## Changes of containers -/

variable {i : Instance} {r : Resource}

theorem writesByName_putImage (registry : Registry) :
    WritesByName "image" fun c => registry.putImage (Json.nameOf c) c :=
  ⟨fun name => (registry.image? name).map .str, registry.writes_putImage Json.nameOf⟩

theorem writesByName_putCompute (overrides : Dict ComputeResources) :
    WritesByName "resources" (putCompute overrides) := by
  refine ⟨fun name => (overrides.lookup name).map ComputeResources.toJson, ⟨fun c => ?_⟩⟩
  rw [putCompute]
  dsimp only
  cases overrides.lookup (Json.nameOf c) <;> rfl

theorem WritesByName.settles {key : String} {f : Dict Json → Dict Json} (h : WritesByName key f)
    (hkey : "name" ≠ key) : Settles (List.map (Json.mapObject f)) := by
  obtain ⟨v?, hf⟩ := h
  exact Json.traversal_map.settles <| Json.traversal_mapObject.settles <|
    hf.settles fun x c => by rw [Json.nameOf_put hkey]

namespace ContainersChange

variable {f g : List Json → List Json}

theorem settles (h : ContainersChange i r f) : Settles f := by
  cases h with
  | images => exact (writesByName_putImage _).settles (by decide)
  | compute => exact (writesByName_putCompute _).settles (by decide)
  | certs => exact Resource.traversal_onFirst.settles settles_mount

/-- What is set in all containers are entries of different keys. -/
theorem commute_images_compute (registry : Registry) (overrides : Dict ComputeResources) :
    Function.Commute
      (List.map (Json.mapObject fun c => registry.putImage (Json.nameOf c) c))
      (List.map (Json.mapObject (putCompute overrides))) := by
  obtain ⟨image?, himage⟩ := writesByName_putImage registry
  obtain ⟨compute?, hcompute⟩ := writesByName_putCompute overrides
  refine Json.traversal_map.commute <| Json.traversal_mapObject.commute <|
    himage.commute hcompute (by decide) (fun x c => ?_) fun x c => ?_
  · rw [Json.nameOf_put (by decide)]
  · rw [Json.nameOf_put (by decide)]

theorem commute_map_certs {k : String} {f : Dict Json → Dict Json} (hf : WritesByName k f)
    (hmounts : k ≠ "volumeMounts") (henv : k ≠ "env") (volume path env value : String) :
    Function.Commute (List.map (Json.mapObject f))
      (mapFirstContainer.onFirst (mount volume path env value)) :=
  Resource.commute_map_onFirst (hf.commute_mount hmounts henv)

theorem spares (hf : ContainersChange i r f) (hg : ContainersChange i r g) : Spares g f := by
  have himages := writesByName_putImage i.spec.registry
  have hcompute := writesByName_putCompute i.spec.resources
  cases hf with
  | images =>
    cases hg with
    | images => exact .refl _
    | compute => exact .of_commute (commute_images_compute _ _)
    | certs => exact .of_commute (commute_map_certs himages (by decide) (by decide) _ _ _ _)
  | compute =>
    cases hg with
    | images => exact .of_commute (commute_images_compute _ _).symm
    | compute => exact .refl _
    | certs => exact .of_commute (commute_map_certs hcompute (by decide) (by decide) _ _ _ _)
  | certs _ hcerts =>
    cases hg with
    | images => exact .of_commute (commute_map_certs himages (by decide) (by decide) _ _ _ _).symm
    | compute => exact .of_commute (commute_map_certs hcompute (by decide) (by decide) _ _ _ _).symm
    | certs _ hcerts' =>
      obtain rfl := Option.some.inj (hcerts.symm.trans hcerts')
      exact .refl _

/-- The certificates of services are mounted beside those of the instance. -/
theorem spares_onFirst_mount {volume path env value : String} (h : ContainersChange i r f)
    (hvolume : ∀ c : CustomCerts, c.volume ≠ volume) (henv : "SSL_CERT_DIR" ≠ env) :
    Spares (mapFirstContainer.onFirst (mount volume path env value)) f := by
  cases h with
  | images =>
    exact .of_commute (commute_map_certs (writesByName_putImage _) (by decide) (by decide) _ _ _ _)
  | compute =>
    exact .of_commute (commute_map_certs (writesByName_putCompute _) (by decide) (by decide) _ _ _ _)
  | certs => exact Resource.traversal_onFirst.spares (spares_mount (hvolume _) henv)

end ContainersChange

/-! ## Changes of pods -/

theorem hasServiceCerts_iff {pod : Dict Json} : hasServiceCerts pod = true ↔
    ∃ x ∈ Json.itemsAt "volumes" pod, x.Named serviceCertsVolume := by
  simp [hasServiceCerts, Json.Named]

theorem hasServiceCerts_mountServiceCerts (pod : Dict Json) :
    hasServiceCerts (mountServiceCerts pod) = true := by
  rw [mountServiceCerts]
  split
  · next h => exact h
  · rw [hasServiceCerts_iff, onContainers, Json.itemsAt_adjust (by decide), addServiceCerts,
      Json.itemsAt_withItems]
    exact ⟨_, List.mem_append_right _ List.mem_cons_self, rfl⟩

theorem settles_mountServiceCerts : Settles mountServiceCerts := fun pod =>
  if_pos (hasServiceCerts_mountServiceCerts pod)

/-- A pod that has the certificates of services is left alone, so a change that does not take them
away spares them. -/
theorem spares_mountServiceCerts_of_keeps {f : Dict Json → Dict Json}
    (h : ∀ pod, hasServiceCerts pod = true → hasServiceCerts (f pod) = true) :
    Spares f mountServiceCerts := fun pod hpod =>
  if_pos (h pod (hpod ▸ hasServiceCerts_mountServiceCerts pod))

/-- They are mounted by two changes, and spare what these two spare. -/
theorem spares_mountServiceCerts {f : Dict Json → Dict Json} (hadd : Spares addServiceCerts f)
    (hmount : ∀ path env value, env ≠ "SSL_CERT_DIR" → Spares (onContainers
      (mapFirstContainer.onFirst (mount serviceCertsVolume path env value))) f) :
    Spares mountServiceCerts f := by
  intro pod hpod
  rw [mountServiceCerts]
  split
  · exact hpod
  · exact hmount _ _ _ (by decide) _ (hadd _ hpod)

/-- The names of the volumes with certificates of the instance begin otherwise. -/
theorem volume_ne_serviceCertsVolume (c : CustomCerts) : c.volume ≠ serviceCertsVolume := by
  intro h
  have hchars : ("custom-certs-" ++ c.name).toList = "service-ca".toList := congrArg String.toList h
  simp at hchars

theorem named_volume {c : CustomCerts} {source : String × Json} (h : c.source? = some source) :
    (Json.object [("name", .str c.volume), source]).Named c.volume := by
  obtain ⟨known, -, rfl⟩ := Option.map_eq_some_iff.1 h
  rw [Json.Named, Json.getStr?, Json.get?]
  cases known <;> simp [Json.object, Table.ofEntries, Table.overlay, Table.lookup_put, Json.asObj?,
    Json.asStr?]

namespace PodChange

variable {f g : Dict Json → Dict Json}

theorem settles (h : PodChange i r f) : Settles f := by
  cases h with
  | containers h => exact Json.traversal_onContainers.settles h.settles
  | pullSecrets => exact Registry.settles_addPullSecrets _
  | certs _ _ hsource =>
    exact (Json.traversal_withItems _).settles (Json.settles_putNamed (named_volume hsource))
  | serviceCerts => exact settles_mountServiceCerts

theorem commute_containers_pullSecrets (f : List Json → List Json) (registry : Registry) :
    Function.Commute (onContainers f) registry.addPullSecrets := by
  obtain ⟨secrets?, hsecrets⟩ := registry.writes_addPullSecrets
  exact Json.commute_onContainers hsecrets (by decide) f fun pod => by
    rw [Json.itemsAt_adjust (by decide)]

theorem commute_volumes_pullSecrets (f : List Json → List Json) (registry : Registry) :
    Function.Commute (withItems "volumes" f) registry.addPullSecrets := by
  obtain ⟨secrets?, hsecrets⟩ := registry.writes_addPullSecrets
  refine (Json.writes_withItems "volumes" f).commute hsecrets (by decide) (fun x pod => ?_)
    fun x pod => ?_
  · rw [Json.itemsAt_put (by decide)]
  · rw [Json.itemsAt_put (by decide)]

/-- Certificates of services stay in a pod. -/
theorem keeps_serviceCerts (h : PodChange i r f) {pod : Dict Json}
    (hpod : hasServiceCerts pod = true) : hasServiceCerts (f pod) = true := by
  rw [hasServiceCerts_iff] at hpod
  cases h with
  | containers =>
    rwa [hasServiceCerts_iff, onContainers, Json.itemsAt_adjust (by decide)]
  | pullSecrets =>
    obtain ⟨secrets?, hsecrets⟩ := i.spec.registry.writes_addPullSecrets
    rw [hasServiceCerts_iff, Json.itemsAt_of_writes hsecrets (by decide)]
    exact hpod
  | certs _ _ hsource =>
    rw [hasServiceCerts_iff, Json.itemsAt_withItems]
    exact Json.exists_named_putNamed (named_volume hsource) (volume_ne_serviceCertsVolume _) hpod
  | serviceCerts => exact hasServiceCerts_mountServiceCerts pod

/-- Certificates of services come behind what is in a pod. -/
theorem spares_serviceCerts (h : PodChange i r f) : Spares mountServiceCerts f := by
  cases h with
  | containers h =>
    refine spares_mountServiceCerts
      (.of_commute (Json.commute_onContainers_withItems (by decide) _ _)) fun path env value henv => ?_
    exact Json.traversal_onContainers.spares
      (h.spares_onFirst_mount volume_ne_serviceCertsVolume henv.symm)
  | pullSecrets =>
    refine spares_mountServiceCerts (.of_commute (commute_volumes_pullSecrets _ _).symm)
      fun path env value _ => .of_commute (commute_containers_pullSecrets _ _).symm
  | certs _ _ hsource =>
    refine spares_mountServiceCerts ?_ fun path env value _ =>
      .of_commute (Json.commute_onContainers_withItems (by decide) _ _).symm
    exact (Json.traversal_withItems "volumes").spares fun items hitems =>
      Json.putNamed_append (named_volume hsource) _ hitems
  | serviceCerts => exact .refl _

/-- **Changes of a pod spare each other.** -/
theorem spares (hf : PodChange i r f) (hg : PodChange i r g) : Spares g f := by
  have hbefore := hf.spares_serviceCerts
  have hbehind := spares_mountServiceCerts_of_keeps fun _ => hg.keeps_serviceCerts
  cases hf with
  | containers hf =>
    cases hg with
    | containers hg => exact Json.traversal_onContainers.spares (hf.spares hg)
    | pullSecrets => exact .of_commute (commute_containers_pullSecrets _ _)
    | certs => exact .of_commute (Json.commute_onContainers_withItems (by decide) _ _)
    | serviceCerts => exact hbefore
  | pullSecrets =>
    cases hg with
    | containers => exact .of_commute (commute_containers_pullSecrets _ _).symm
    | pullSecrets => exact .refl _
    | certs => exact .of_commute (commute_volumes_pullSecrets _ _).symm
    | serviceCerts => exact hbefore
  | certs _ hcerts hsource =>
    cases hg with
    | containers => exact .of_commute (Json.commute_onContainers_withItems (by decide) _ _).symm
    | pullSecrets => exact .of_commute (commute_volumes_pullSecrets _ _)
    | certs _ hcerts' hsource' =>
      obtain rfl := Option.some.inj (hcerts.symm.trans hcerts')
      obtain rfl := Option.some.inj (hsource.symm.trans hsource')
      exact .refl _
    | serviceCerts => exact hbefore
  | serviceCerts => exact hbehind

end PodChange

end Transformer

end ReleaseKeeper
