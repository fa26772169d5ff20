import Mathlib.Data.List.Forall2
import ReleaseKeeper.Platform.Minikube
import ReleaseKeeper.Platform.OpenShift
import ReleaseKeeper.Proofs.Readers
import ReleaseKeeper.Proofs.Resource.Identity
import ReleaseKeeper.Proofs.Table
import ReleaseKeeper.Transform.Builtin

/-!
# What the transformers leave alone

A resource `Keeps` another's identity if API version, kind and all metadata but the owners are the
same; moved into a namespace it still is `Alike`, of the same API version, kind and name. A pipeline
gives a resource its owner, moves it, and then changes members beside API version, kind and metadata
only (`Pipeline.apply_eq_ok`, `Transformer.Aside`), in the transformers of the instance (`Later`) and
in those of platforms (`PlatformTransformer`). Moving depends on kind and metadata alone
(`Keeps.moveTo`), so a whole pipeline comes to the identity that moving comes to by itself
(`Pipeline.keeps_apply`).

The same steps keep members in order (`Resource.Ordered`), as far down as a merge looks for identity
and tag.
-/
namespace ReleaseKeeper

open Json (objectAt)

namespace Json

theorem lookup_objectAt_put {key j : String} {x : Json} (members : Dict Json) (h : j ≠ key) :
    objectAt j (Table.put key x members) = objectAt j members := by
  simp [objectAt, Table.lookup_put, h]

theorem objectAt_congr {key : String} {a b : Dict Json} (h : a.lookup key = b.lookup key) :
    objectAt key a = objectAt key b := by
  rw [objectAt, h, objectAt]

end Json

namespace Resource

/-- The members of a resource whose change would make it another one, or another's. -/
def headKeys : List String := ["apiVersion", "kind", "metadata"]

/-- The same API version, kind and metadata, the owners apart. -/
structure Keeps (r out : Resource) : Prop where
  apiVersion : out.members.lookup "apiVersion" = r.members.lookup "apiVersion"
  kind : out.members.lookup "kind" = r.members.lookup "kind"
  metadata : ∀ key, key ≠ "ownerReferences" → out.metadata.lookup key = r.metadata.lookup key

/-- A change that keeps the identity, and members in order. -/
structure Gentle (r out : Resource) : Prop where
  keeps : r.Keeps out
  ordered : r.Ordered → out.Ordered

/-- A change beside API version, kind and metadata that keeps the order of the members. -/
structure Aside (r out : Resource) : Prop where
  head : ∀ key ∈ headKeys, out.members.lookup key = r.members.lookup key
  sorted : Table.Sorted r.members → Table.Sorted out.members

variable {r out : Resource}

/-! ## What identity consists of -/

theorem Keeps.refl (r : Resource) : r.Keeps r := ⟨rfl, rfl, fun _ _ => rfl⟩

theorem Keeps.trans {a b c : Resource} (h : a.Keeps b) (h' : b.Keeps c) : a.Keeps c where
  apiVersion := h'.apiVersion.trans h.apiVersion
  kind := h'.kind.trans h.kind
  metadata key hkey := (h'.metadata key hkey).trans (h.metadata key hkey)

theorem Gentle.refl (r : Resource) : r.Gentle r := ⟨.refl r, id⟩

theorem Keeps.kind_eq (h : r.Keeps out) : out.kind = r.kind := by
  rw [Resource.kind, Resource.kind, textAt?_singleton, textAt?_singleton, h.kind]

theorem Keeps.apiVersion_eq (h : r.Keeps out) : out.apiVersion = r.apiVersion := by
  rw [Resource.apiVersion, Resource.apiVersion, textAt?_singleton, textAt?_singleton, h.apiVersion]

theorem Keeps.textAt?_metadata (h : r.Keeps out) {key : String} (hkey : key ≠ "ownerReferences") :
    out.textAt? ["metadata", key] = r.textAt? ["metadata", key] := by
  have hmeta := h.metadata key hkey
  rw [Resource.textAt?_metadata, Resource.textAt?_metadata]
  exact congrArg (·.bind Json.asStr?) hmeta

theorem Keeps.name_eq (h : r.Keeps out) : out.name = r.name := by
  rw [name, name, h.textAt?_metadata (by decide)]

theorem Keeps.key_eq (h : r.Keeps out) : out.key = r.key := by
  refine key_congr h.apiVersion_eq h.kind_eq ?_ h.name_eq
  rw [namespaceName, namespaceName, h.textAt?_metadata (by decide)]

theorem Keeps.valid (h : r.Keeps out) (hr : ofJson r.toJson = .ok r) : ofJson out.toJson = .ok out :=
  ofJson_toJson_congr h.apiVersion_eq h.kind_eq h.name_eq hr

/-! ## Changes of other members -/

theorem Aside.refl (r : Resource) : r.Aside r := ⟨fun _ _ => rfl, id⟩

theorem Aside.trans {a b c : Resource} (h : a.Aside b) (h' : b.Aside c) : a.Aside c where
  head key hkey := (h'.head key hkey).trans (h.head key hkey)
  sorted := h'.sorted ∘ h.sorted

theorem Aside.metadata_eq (h : r.Aside out) : out.metadata = r.metadata :=
  Json.objectAt_congr (h.head "metadata" (by decide))

/-- What leaves API version, kind and metadata alone is gentle. -/
theorem Aside.gentle (h : r.Aside out) : r.Gentle out where
  keeps := ⟨h.head _ (by decide), h.head _ (by decide), fun key _ => by rw [h.metadata_eq]⟩
  ordered hr := ⟨h.sorted hr.members, h.metadata_eq ▸ hr.metadata, h.metadata_eq ▸ hr.annotations⟩

theorem aside_put {key : String} (hkey : key ∉ headKeys) (x : Json) (r : Resource) :
    r.Aside (r.put key x) where
  head j hj := by
    have hne : j ≠ key := fun heq => hkey (heq ▸ hj)
    simp [Resource.put, Table.lookup_put, hne]
  sorted := Table.sorted_put

theorem aside_within {key : String} (hkey : key ∉ headKeys) (f : Dict Json → Dict Json)
    (r : Resource) : r.Aside (r.within key f) :=
  aside_put hkey _ r

theorem aside_erase {key : String} (hkey : key ∉ headKeys) (r : Resource) :
    r.Aside (r.erase key) where
  head j hj := by
    have hne : j ≠ key := fun heq => hkey (heq ▸ hj)
    simp [erase, Table.lookup_drop, hne]
  sorted := Table.sorted_drop

theorem aside_adjust {key : String} (hkey : key ∉ headKeys) (f : Json → Json) (r : Resource) :
    r.Aside ⟨Table.adjust key f r.members⟩ where
  head j hj := by
    have hne : j ≠ key := fun heq => hkey (heq ▸ hj)
    simp [Table.lookup_adjust, hne]
  sorted := Table.sorted_adjust

theorem aside_mapPodSpec (f : Dict Json → Dict Json) (r : Resource) : r.Aside (r.mapPodSpec f) :=
  aside_adjust (by decide) _ r

theorem aside_mapContainers (f : Dict Json → Dict Json) (r : Resource) :
    r.Aside (r.mapContainers f) :=
  aside_mapPodSpec _ r

theorem aside_mapFirstContainer (f : Dict Json → Dict Json) (r : Resource) :
    r.Aside (r.mapFirstContainer f) :=
  aside_mapPodSpec _ r

/-! ## Changes of the metadata -/

theorem setNamespace_eq (ns : String) (r : Resource) :
    r.setNamespace ns = r.within "metadata" (Table.put "namespace" (.str ns)) :=
  rfl

/-- Setting a member of the metadata other than the annotations keeps the order. -/
theorem Ordered.put_metadata {key : String} (h : r.Ordered) (hkey : "annotations" ≠ key)
    (f : Dict Json → Json) : (r.within "metadata" fun m => Table.put key (f m) m).Ordered := by
  have hmeta := metadata_within (fun m => Table.put key (f m) m) r
  refine ⟨Table.sorted_put h.members, ?_, ?_⟩
  · rw [hmeta]
    exact Table.sorted_put h.metadata
  · rw [hmeta, Json.lookup_objectAt_put _ hkey]
    exact h.annotations

/-! ## Resources that are alike -/

/-- The same API version, kind and name. -/
structure Alike (r x : Resource) : Prop where
  apiVersion : x.apiVersion = r.apiVersion
  kind : x.kind = r.kind
  name : x.name = r.name

theorem Alike.refl (r : Resource) : r.Alike r := ⟨rfl, rfl, rfl⟩

theorem Alike.trans {a b c : Resource} (h : a.Alike b) (h' : b.Alike c) : a.Alike c :=
  ⟨h'.apiVersion.trans h.apiVersion, h'.kind.trans h.kind, h'.name.trans h.name⟩

theorem Keeps.alike (h : r.Keeps out) : r.Alike out := ⟨h.apiVersion_eq, h.kind_eq, h.name_eq⟩

theorem Alike.hasName_eq (h : r.Alike out) (kind name : String) :
    out.hasName kind name = r.hasName kind name := by
  rw [hasName, hasName, h.kind, h.name]

theorem Alike.isController_eq (h : r.Alike out) : out.isController = r.isController :=
  h.hasName_eq _ _

theorem Alike.isClusterScoped_eq (h : r.Alike out) : out.isClusterScoped = r.isClusterScoped := by
  rw [isClusterScoped, isClusterScoped, h.kind]

theorem Alike.group_eq (h : r.Alike out) : out.group = r.group := by rw [group, group, h.apiVersion]

theorem kind_of_hasName {kind name : String} (h : r.hasName kind name = true) : r.kind = kind := by
  rw [hasName, Bool.and_eq_true, decide_eq_true_eq] at h
  exact h.1

theorem alike_within_metadata {f : Dict Json → Dict Json}
    (h : ∀ m, (f m).lookup "name" = m.lookup "name") (r : Resource) :
    r.Alike (r.within "metadata" f) := by
  refine ⟨?_, ?_, ?_⟩
  · rw [apiVersion, apiVersion, textAt?_singleton, textAt?_singleton,
      lookup_within_metadata _ _ (by decide)]
  · rw [kind, kind, textAt?_singleton, textAt?_singleton, lookup_within_metadata _ _ (by decide)]
  · have hmeta : (r.within "metadata" f).metadata.lookup "name" = r.metadata.lookup "name" := by
      rw [metadata_within, h]
    rw [name, name, textAt?_metadata, textAt?_metadata]
    exact congrArg (fun name? => (name?.bind Json.asStr?).getD "") hmeta

theorem alike_setNamespace (ns : String) (r : Resource) : r.Alike (r.setNamespace ns) :=
  alike_within_metadata (fun m => by rw [Table.lookup_put, if_neg (by decide)]) r

end Resource

namespace Transformer

open Resource

variable {r out : Resource} {ns : String}

/-! ## Moving into a namespace -/

theorem aside_moveReferences (ns : String) (r : Resource) : r.Aside (moveReferences ns r) := by
  unfold moveReferences
  split
  · exact aside_adjust (by decide) _ r
  · split
    · exact aside_adjust (by decide) _ r
    · split
      · exact aside_adjust (by decide) _ r
      · exact .refl r

theorem gentle_moveReferences (ns : String) (r : Resource) : r.Gentle (moveReferences ns r) :=
  (aside_moveReferences ns r).gentle

/-- Where a resource goes depends on its identity alone. -/
theorem Keeps.moveTo (h : r.Keeps out) : (moveTo ns r).Keeps (moveTo ns out) := by
  have hback : ∀ {a b : Resource}, a.Gentle b → b.Keeps a := fun hab =>
    ⟨hab.keeps.apiVersion.symm, hab.keeps.kind.symm, fun k hk => (hab.keeps.metadata k hk).symm⟩
  have hscoped : out.isClusterScoped = r.isClusterScoped := by
    rw [isClusterScoped, isClusterScoped, h.kind_eq]
  have hplaced : (if r.isClusterScoped then r else r.setNamespace ns).Keeps
      (if out.isClusterScoped then out else out.setNamespace ns) := by
    rw [hscoped]
    split
    · exact h
    · refine ⟨?_, ?_, fun key hkey => ?_⟩
      · rw [setNamespace_eq, setNamespace_eq, lookup_within_metadata _ _ (by decide),
          lookup_within_metadata _ _ (by decide), h.apiVersion]
      · rw [setNamespace_eq, setNamespace_eq, lookup_within_metadata _ _ (by decide),
          lookup_within_metadata _ _ (by decide), h.kind]
      · rw [setNamespace_eq, setNamespace_eq, metadata_within, metadata_within,
          Table.lookup_put, Table.lookup_put, h.metadata key hkey]
  exact ((hback (gentle_moveReferences ns _)).trans hplaced).trans (gentle_moveReferences ns _).keeps

theorem alike_moveTo (r : Resource) : r.Alike (moveTo ns r) := by
  rw [moveTo]
  split
  · exact (gentle_moveReferences ns r).keeps.alike
  · exact (alike_setNamespace ns r).trans (gentle_moveReferences ns _).keeps.alike

theorem kind_moveTo (r : Resource) : (moveTo ns r).kind = r.kind := (alike_moveTo r).kind

/-- What was moved still is a resource. -/
theorem valid_moveTo (h : ofJson r.toJson = .ok r) :
    ofJson (moveTo ns r).toJson = .ok (moveTo ns r) := by
  have halike : r.Alike (moveTo ns r) := alike_moveTo r
  exact ofJson_toJson_congr halike.apiVersion halike.kind halike.name h

theorem ordered_moveTo (h : r.Ordered) : (moveTo ns r).Ordered := by
  refine (gentle_moveReferences ns _).ordered ?_
  split
  · exact h
  · exact h.put_metadata (by decide) _

/-- Moving changes no member of the metadata but the namespace. -/
theorem lookup_metadata_moveTo {key : String} (h : key ≠ "namespace") (r : Resource) :
    (moveTo ns r).metadata.lookup key = r.metadata.lookup key := by
  rw [moveTo, (aside_moveReferences ns _).metadata_eq]
  split
  · rfl
  · rw [setNamespace_eq, metadata_within, Table.lookup_put, if_neg h]

/-- What has a namespace gets the one that it is moved into. -/
theorem lookup_namespace_moveTo (h : r.isClusterScoped = false) :
    (moveTo ns r).metadata.lookup "namespace" = some (.str ns) := by
  rw [moveTo, (aside_moveReferences ns _).metadata_eq, if_neg (by simp [h]), setNamespace_eq,
    metadata_within, Table.lookup_put, if_pos rfl]

/-- What lives outside of any namespace stays what it is. -/
theorem key_moveTo_of_isClusterScoped (ns : String) (h : r.isClusterScoped = true) :
    (moveTo ns r).key = r.key := by
  rw [moveTo, if_pos h]
  exact (gentle_moveReferences ns r).keeps.key_eq

/-! ## All other transformers -/

/-- A transformer that leaves API version, kind and metadata of everything alone. -/
def Aside (t : Transformer) : Prop := ∀ r out, t.apply r = .ok out → r.Aside out

theorem apply_eq_ok {t : Transformer} : t.apply r = .ok out ↔ t.change r = .ok out := mapError_eq_ok

theorem total_eq_ok {name : String} {f : Resource → Resource} :
    (total name f).apply r = .ok out ↔ f r = out := by
  rw [apply_eq_ok, total, Except.ok.injEq]

theorem aside_total {name : String} {f : Resource → Resource} (h : ∀ r : Resource, r.Aside (f r)) :
    (total name f).Aside := by
  intro r out hout
  obtain rfl := total_eq_ok.1 hout
  exact h r

/-- What the transformer of an instance with a uid is. -/
theorem owner_eq_ok {i : Instance} {t : Transformer} (h : owner i = .ok t) :
    ∃ reference, i.ownerReference? = some reference ∧ t = total "owner" fun r =>
      if ¬ i.canOwn ∨ r.isClusterScoped then r
      else r.within "metadata" (Json.withItems "ownerReferences" (putOwner reference)) := by
  rw [owner] at h
  split at h
  · cases h
  · next reference hreference => exact ⟨reference, hreference, (Except.ok.inj h).symm⟩

theorem gentle_owner {i : Instance} {t : Transformer} (h : owner i = .ok t)
    (hout : t.apply r = .ok out) : r.Gentle out := by
  obtain ⟨reference, -, rfl⟩ := owner_eq_ok h
  obtain rfl := total_eq_ok.1 hout
  split
  · exact .refl r
  · refine ⟨⟨lookup_within_metadata _ _ (by decide), lookup_within_metadata _ _ (by decide), ?_⟩,
      fun hr => hr.put_metadata (by decide) _⟩
    intro key hkey
    rw [metadata_within, Json.withItems, Table.lookup_put, if_neg hkey]

theorem aside_images (registry : Registry) : (images registry).Aside := by
  refine aside_total fun r => ?_
  split
  · exact (aside_mapContainers _ r).trans (aside_mapPodSpec _ _)
  · split
    · exact (aside_within (by decide) _ r).trans (aside_erase (by decide) _)
    · exact .refl r

theorem aside_computeResources (overrides : Dict ComputeResources) :
    (computeResources overrides).Aside := by
  refine aside_total fun r => ?_
  split
  · exact aside_mapContainers _ r
  · exact .refl r

theorem aside_gateways (i : Instance) : (gateways i).Aside := by
  refine aside_total fun r => ?_
  split
  · split
    · exact aside_within (by decide) _ r
    · exact .refl r
  · exact .refl r

theorem aside_putData (entries : Dict String) (r : Resource) : r.Aside (putData entries r) :=
  aside_within (by decide) _ r

theorem aside_configMaps (config : Dict (Dict String)) : (configMaps config).Aside := by
  refine aside_total fun r => ?_
  split
  · split
    · exact aside_putData _ r
    · exact .refl r
  · exact .refl r

theorem aside_customCerts (certs : Option CustomCerts) : (customCerts certs).Aside := by
  intro r out hout
  rw [apply_eq_ok, customCerts] at hout
  dsimp only at hout
  split at hout
  · obtain rfl := Except.ok.inj hout
    exact .refl r
  · split at hout
    · obtain rfl := Except.ok.inj hout
      exact .refl r
    · rw [configureCerts] at hout
      split at hout
      · cases hout
      · split at hout
        · cases hout
        · obtain rfl := Except.ok.inj hout
          exact (aside_mapPodSpec _ r).trans (aside_mapFirstContainer _ _)

theorem aside_ingressDomain (domain : String) : (ingressDomain domain).Aside := by
  refine aside_total fun r => ?_
  split
  · exact aside_putData _ r
  · exact .refl r

theorem aside_egress (name ranges : String) : (egress name ranges).Aside := by
  refine aside_total fun r => ?_
  split
  · exact aside_putData _ r
  · exact .refl r

theorem aside_serviceCerts : serviceCerts.Aside := by
  refine aside_total fun r => ?_
  split
  · exact .refl r
  · split
    · exact .refl r
    · exact (aside_mapPodSpec _ r).trans (aside_mapFirstContainer _ _)

end Transformer

/-- The transformers that platforms append, for any domain and any addresses. -/
inductive PlatformTransformer : Transformer → Prop
  | ingressDomain (domain : String) : PlatformTransformer (.ingressDomain domain)
  | egress (name ranges : String) : PlatformTransformer (.egress name ranges)
  | serviceCerts : PlatformTransformer .serviceCerts

theorem PlatformTransformer.aside {f : Transformer} (h : PlatformTransformer f) : f.Aside := by
  cases h with
  | ingressDomain domain => exact Transformer.aside_ingressDomain domain
  | egress name ranges => exact Transformer.aside_egress name ranges
  | serviceCerts => exact Transformer.aside_serviceCerts

namespace Transformer

/-- The transformers of an instance behind owner and namespace. -/
inductive Later (i : Instance) : Transformer → Prop
  | images : Later i (images i.spec.registry)
  | computeResources : Later i (computeResources i.spec.resources)
  | gateways : Later i (gateways i)
  | configMaps : Later i (configMaps i.spec.config)
  | customCerts : Later i (customCerts i.spec.customCerts)

theorem Later.aside {i : Instance} {t : Transformer} (h : Later i t) : t.Aside := by
  cases h with
  | images => exact aside_images _
  | computeResources => exact aside_computeResources _
  | gateways => exact aside_gateways i
  | configMaps => exact aside_configMaps _
  | customCerts => exact aside_customCerts _

end Transformer

/-! ## Pipelines -/

namespace Pipeline

open Resource Transformer

variable {i : Instance} {p : Pipeline} {extra : List Transformer} {r out : Resource}

theorem apply_cons_eq_ok {t : Transformer} : Pipeline.apply (t :: p) r = .ok out ↔
    ∃ next, t.apply r = .ok next ∧ p.apply next = .ok out := by
  rw [apply, List.foldlM_cons]
  cases hr : t.apply r with
  | error e => exact ⟨nofun, fun ⟨_, h, _⟩ => nomatch h⟩
  | ok next => exact ⟨fun h => ⟨next, rfl, h⟩, fun ⟨_, h, hrest⟩ => by cases h; exact hrest⟩

theorem aside_apply : ∀ {p : Pipeline} {r : Resource}, (∀ t ∈ p, t.Aside) →
    p.apply r = .ok out → r.Aside out
  | [], r, _, h => by
    obtain rfl : r = out := Except.ok.inj h
    exact .refl r
  | t :: rest, r, hp, h => by
    obtain ⟨ht, hrest⟩ := List.forall_mem_cons.1 hp
    obtain ⟨next, hr, hnext⟩ := apply_cons_eq_ok.1 h
    exact (ht r next hr).trans (aside_apply hrest hnext)

/-- What an instance's pipeline consists of: an owner, the move, and the later transformers. -/
theorem builtin_eq_ok (h : builtin i = .ok p) :
    ∃ owner rest, p = owner :: inNamespace i.targetNamespace :: rest ∧
      Transformer.owner i = .ok owner ∧ ∀ t ∈ rest, Later i t := by
  rw [builtin] at h
  cases ho : Transformer.owner i with
  | error e => rw [ho] at h; cases h
  | ok owner =>
    rw [ho] at h
    obtain rfl := Except.ok.inj h
    refine ⟨owner, _, rfl, rfl, ?_⟩
    simp only [List.forall_mem_cons, List.not_mem_nil, false_imp_iff, implies_true, and_true]
    exact ⟨.images, .computeResources, .gateways, .configMaps, .customCerts⟩

/-- **A pipeline gives an owner, moves, and then leaves the head alone.** -/
theorem apply_eq_ok (hi : builtin i = .ok p) (hextra : ∀ t ∈ extra, t.Aside)
    (h : Pipeline.apply (p ++ extra) r = .ok out) :
    ∃ owner owned, Transformer.owner i = .ok owner ∧ owner.apply r = .ok owned ∧
      (moveTo i.targetNamespace owned).Aside out := by
  obtain ⟨owner, rest, rfl, howner, hrest⟩ := builtin_eq_ok hi
  obtain ⟨owned, hr, hmoved⟩ := apply_cons_eq_ok.1 h
  obtain ⟨_, ⟨⟩, hback⟩ := apply_cons_eq_ok.1 hmoved
  exact ⟨owner, owned, howner, hr, aside_apply
    (List.forall_mem_append.2 ⟨fun t ht => (hrest t ht).aside, hextra⟩) hback⟩

/-- **A pipeline comes to the identity that moving comes to**, whatever else it changes, and keeps
members in order. -/
theorem keeps_apply (hi : builtin i = .ok p) (hextra : ∀ t ∈ extra, t.Aside)
    (h : Pipeline.apply (p ++ extra) r = .ok out) :
    (moveTo i.targetNamespace r).Keeps out ∧ (r.Ordered → out.Ordered) := by
  obtain ⟨owner, owned, howner, hr, haside⟩ := apply_eq_ok hi hextra h
  have howned := gentle_owner howner hr
  exact ⟨(Keeps.moveTo howned.keeps).trans haside.gentle.keeps,
    fun h => haside.gentle.ordered (ordered_moveTo (howned.ordered h))⟩

/-- A manifest is transformed resource by resource. -/
theorem run_eq_ok {m n : Manifest} :
    p.run m = .ok n ↔ List.Forall₂ (fun r out => p.apply r = .ok out) m n :=
  mapM_eq_ok_iff

/-- What a manifest is transformed to comes from its resources. -/
theorem exists_of_mem_run {m n : Manifest} (h : p.run m = .ok n) :
    ∀ out ∈ n, ∃ r ∈ m, p.apply r = .ok out :=
  fun _ => exists_mem_of_forall₂ (run_eq_ok.1 h).flip

end Pipeline

end ReleaseKeeper
