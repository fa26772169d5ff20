import ReleaseKeeper.Proofs.Cluster.Tags
import ReleaseKeeper.Proofs.Transform.Identity

/-!
# The owner of what is installed

An owner is one item of a list in the metadata, told by its uid. A pipeline makes an instance the
owner of every namespaced resource that is installed into the instance's own namespace
(`Pipeline.isOwnedBy_apply`), by one reference behind those that are there, and of nothing else: a
reference never leads into another namespace (`Pipeline.references_within_namespace`). A merge
replaces the list of owners whole, so behind an application the object has the owners that were
applied, whoever owned it before (`Cluster.isOwnedBy_applied`).
-/
namespace ReleaseKeeper

namespace Json

/-- Whether a reference is to the owner with a uid. -/
def refersTo (uid : String) (x : Json) : Bool := x.getStr? "uid" = some uid

theorem refersTo_eq (uid : String) (x : Json) :
    (x.get? "uid" != some (.str uid)) = !x.refersTo uid := by
  rw [bne, beq_some_str]
  rfl

variable {x y : Json}

theorem getStr?_of_same (key : String) (h : x.same y = true) : x.getStr? key = y.getStr? key := by
  have hkey : SameOption ((x.get? key).bind some) ((y.get? key).bind some) := same_at? [key] h
  simp only [Option.bind_fun_some] at hkey
  rw [getStr?, getStr?]
  revert hkey
  generalize x.get? key = u, y.get? key = v
  rintro (huv | _)
  · exact asStr?_of_same huv
  · rfl

theorem getStr?_of_sameItems (key : String) : ∀ {xs ys : List Json}, sameItems xs ys = true →
    xs.map (getStr? key) = ys.map (getStr? key)
  | [], [], _ => rfl
  | x :: xs, y :: ys, h => by
    rw [sameItems, Bool.and_eq_true] at h
    rw [List.map_cons, List.map_cons, getStr?_of_same key h.1, getStr?_of_sameItems key h.2]

theorem same_arr {items : List Json} (h : x.same (.arr items) = true) :
    ∃ live, x = .arr live ∧ sameItems live items = true := by
  cases x with
  | arr live => exact ⟨live, rfl, h⟩
  | _ => simp [same] at h

theorem itemsAt_of_lookup {key : String} {members : Dict Json} {items : List Json}
    (h : members.lookup key = some (.arr items)) : itemsAt key members = items := by
  simp [itemsAt, h, asArr?]

/-- A merge replaces a list, if it is not the same already. -/
theorem getStr?_itemsAt_merged {desired live : Dict Json} {key : String} {items : List Json}
    (hd : (desired.map (·.1)).Nodup) (hw : desired.lookup key = some (.arr items)) (j : String) :
    (itemsAt key (mergeMembers desired live).2).map (getStr? j) = items.map (getStr? j) := by
  have hmerged : (mergeMembers desired live).2.lookup key =
      memberAfter key (desired.lookup key) (live.lookup key) := lookup_merged hd live
  rw [hw] at hmerged
  have hwhole : Whole key (.arr items) (live.lookup key) := .inr (.inl rfl)
  obtain hplaced | ⟨x, -, hsame, hkept⟩ := memberAfter_whole hwhole
  · rw [itemsAt_of_lookup (hmerged.trans hplaced)]
  · obtain ⟨kept, rfl, hsame⟩ := same_arr hsame
    rw [itemsAt_of_lookup (hmerged.trans hkept), getStr?_of_sameItems j hsame]

end Json

namespace Resource

variable {r out live : Resource} {i : Instance}

/-- The references to the owners; what is no list has none. -/
def references (r : Resource) : List Json := Json.itemsAt "ownerReferences" r.metadata

/-- The uids of the owners, `none` for a reference without one. -/
def owners (r : Resource) : List (Option String) :=
  (Json.itemsAt "ownerReferences" r.metadata).map (Json.getStr? "uid")

/-- Whether an instance is among the owners. -/
def isOwnedBy (r : Resource) (i : Instance) : Bool :=
  i.metadata.uid.isSome && r.owners.contains i.metadata.uid

theorem isOwnedBy_congr (h : out.owners = r.owners) : out.isOwnedBy i = r.isOwnedBy i := by
  rw [isOwnedBy, isOwnedBy, h]

theorem owners_congr
    (h : out.metadata.lookup "ownerReferences" = r.metadata.lookup "ownerReferences") :
    out.owners = r.owners := by
  rw [owners, owners, Json.itemsAt, Json.itemsAt, h]

theorem owners_tag (r : Resource) : r.tag.owners = r.owners := by
  refine owners_congr ?_
  rw [tag, setAnnotation, metadata_within, Json.lookup_withObject_ne _ _ (by decide)]

theorem owners_stamp (version : Nat) (r : Resource) : (Cluster.stamp version r).owners = r.owners := by
  refine owners_congr ?_
  rw [lookup_metadata_stamp, if_neg (by decide), if_neg (by decide)]

/-- What is owned has a list of owners. -/
theorem exists_references (h : r.isOwnedBy i = true) :
    ∃ references, r.metadata.lookup "ownerReferences" = some (.arr references) := by
  have howners : r.owners ≠ [] := by
    intro hnone
    simp [isOwnedBy, hnone] at h
  rw [owners, Json.itemsAt] at howners
  cases hx : r.metadata.lookup "ownerReferences" with
  | none => simp [hx] at howners
  | some x =>
    cases x with
    | arr references => exact ⟨references, rfl⟩
    | _ => simp [hx, Json.asArr?] at howners

/-- A merge sets the owners that are desired. -/
theorem isOwnedBy_mergeInto (hr : r.Proper) (hkey : live.key = r.key) (h : r.isOwnedBy i = true) :
    (r.mergeInto live).2.isOwnedBy i = true := by
  obtain ⟨references, hreferences⟩ := exists_references h
  rw [← h]
  refine isOwnedBy_congr ?_
  rw [owners, metadata_mergeInto hr.ordered hr.name_ne hkey,
    Json.getStr?_itemsAt_merged (Table.keys_nodup hr.ordered.metadata) hreferences, owners,
    Json.itemsAt_of_lookup hreferences]

end Resource

namespace Transformer

variable {i : Instance} {t : Transformer} {r out : Resource}

theorem ownerReference?_eq_some {reference : OwnerReference}
    (h : i.ownerReference? = some reference) :
    i.metadata.uid = some reference.uid ∧ reference.toJson.refersTo reference.uid = true ∧
      reference.toJson.get? "controller" = some (.bool true) := by
  rw [Instance.ownerReference?] at h
  split at h
  · next name uid _ huid =>
    obtain rfl := Option.some.inj h
    exact ⟨huid, decide_eq_true rfl, rfl⟩
  · cases h

/-- A namespaced resource gets the reference behind those to other owners, if its namespace is the
instance's own; all others are left as they are. -/
theorem references_owner (h : owner i = .ok t) (hout : t.apply r = .ok out) :
    ∃ reference, i.ownerReference? = some reference ∧
      if i.canOwn = true ∧ r.isClusterScoped = false then
        out.references = r.references.filter (fun x => !x.refersTo reference.uid) ++
          [reference.toJson]
      else out = r := by
  obtain ⟨reference, hreference, rfl⟩ := owner_eq_ok h
  obtain rfl := total_eq_ok.1 hout
  refine ⟨reference, hreference, ?_⟩
  split
  · next howned =>
    rw [if_neg (by simp [howned]), Resource.references, Resource.metadata_within, Json.withItems,
      Json.itemsAt_of_lookup (by rw [Table.lookup_put, if_pos rfl]), putOwner]
    simp only [Json.refersTo_eq]
    rfl
  · next hother =>
    refine if_pos ?_
    by_contra hnone
    rw [not_or, not_not, Bool.not_eq_true] at hnone
    exact hother hnone

/-- A namespaced resource gets the instance as an owner, if its namespace is the instance's own. -/
theorem isOwnedBy_owner (h : owner i = .ok t) (hout : t.apply r = .ok out)
    (hown : i.canOwn = true) (hscoped : r.isClusterScoped = false) : out.isOwnedBy i = true := by
  obtain ⟨reference, hreference, hreferences⟩ := references_owner h hout
  obtain ⟨huid, hrefers, -⟩ := ownerReference?_eq_some hreference
  rw [if_pos ⟨hown, hscoped⟩] at hreferences
  have howners : out.owners = out.references.map (Json.getStr? "uid") := rfl
  have htold : reference.toJson.getStr? "uid" = some reference.uid := of_decide_eq_true hrefers
  rw [Resource.isOwnedBy, howners, hreferences, huid]
  simp [htold]

end Transformer

namespace Pipeline

open Transformer

variable {i : Instance} {p : Pipeline} {extra : List Transformer} {r out : Resource}

/-- **What is installed into an instance's own namespace belongs to the instance.** -/
theorem isOwnedBy_apply (hi : builtin i = .ok p) (hextra : ∀ t ∈ extra, t.Aside)
    (h : Pipeline.apply (p ++ extra) r = .ok out) (hown : i.canOwn = true)
    (hscoped : r.isClusterScoped = false) : out.isOwnedBy i = true := by
  obtain ⟨owner, owned, howner, hr, haside⟩ := apply_eq_ok hi hextra h
  rw [← isOwnedBy_owner howner hr hown hscoped]
  refine Resource.isOwnedBy_congr (Resource.owners_congr ?_)
  rw [haside.metadata_eq, lookup_metadata_moveTo (by decide)]

/-- The references to owners are those that the first transformer makes of them, and what has a
namespace gets the one that is installed into. -/
theorem references_apply (hi : builtin i = .ok p) (hextra : ∀ t ∈ extra, t.Aside)
    (h : Pipeline.apply (p ++ extra) r = .ok out) :
    ∃ reference, i.ownerReference? = some reference ∧
      if i.canOwn = true ∧ r.isClusterScoped = false then
        out.references = r.references.filter (fun x => !x.refersTo reference.uid) ++
            [reference.toJson] ∧
          out.metadata.lookup "namespace" = some (.str i.targetNamespace)
      else out.metadata.lookup "ownerReferences" = r.metadata.lookup "ownerReferences" := by
  obtain ⟨owner, owned, howner, hr, haside⟩ := apply_eq_ok hi hextra h
  obtain ⟨reference, hreference, howned⟩ := references_owner howner hr
  refine ⟨reference, hreference, ?_⟩
  have hlist : out.metadata.lookup "ownerReferences" = owned.metadata.lookup "ownerReferences" := by
    rw [haside.metadata_eq, lookup_metadata_moveTo (by decide)]
  split
  · next hown =>
    rw [if_pos hown] at howned
    refine ⟨?_, ?_⟩
    · rw [← howned, Resource.references, Resource.references, Json.itemsAt, Json.itemsAt, hlist]
    · rw [haside.metadata_eq]
      refine lookup_namespace_moveTo ?_
      rw [Resource.isClusterScoped, (gentle_owner howner hr).keeps.kind_eq]
      exact hown.2
  · next hother =>
    rw [if_neg hother] at howned
    rw [hlist, howned]

/-- **References to an owner never lead into another namespace.** A resource that lives in a
namespace refers to the instance once, behind all other references and as its controller, if the
release is installed into the instance's own namespace, which then is the resource's. Any other
resource is left with the references that it has. -/
theorem references_within_namespace (hi : builtin i = .ok p) (hextra : ∀ t ∈ extra, t.Aside)
    (h : Pipeline.apply (p ++ extra) r = .ok out) :
    ∃ reference, i.ownerReference? = some reference ∧ i.metadata.uid = some reference.uid ∧
      reference.toJson.refersTo reference.uid = true ∧
      reference.toJson.get? "controller" = some (.bool true) ∧
      let refers := Json.refersTo reference.uid
      let owned := r.isClusterScoped = false ∧ i.metadata.namespaceName = some i.targetNamespace
      (owned → out.references = r.references.filter (fun x => !refers x) ++ [reference.toJson] ∧
        out.references.countP refers = 1) ∧
      (¬ owned → out.metadata.lookup "ownerReferences" = r.metadata.lookup "ownerReferences") ∧
      ((∀ x ∈ r.references, refers x = false) →
        out.references = r.references ++ (if owned then [reference.toJson] else []) ∧
        out.references.countP refers = (if owned then 1 else 0) ∧
        ((∃ x ∈ out.references, refers x = true) → ∃ ns, i.metadata.namespaceName = some ns ∧
          out.metadata.lookup "namespace" = some (.str ns))) := by
  obtain ⟨reference, hreference, hmade⟩ := references_apply hi hextra h
  obtain ⟨huid, hrefers, hcontroller⟩ := ownerReference?_eq_some hreference
  refine ⟨reference, hreference, huid, hrefers, hcontroller, ?_⟩
  intro refers owned
  by_cases hown : owned
  · rw [if_pos ⟨decide_eq_true hown.2, hown.1⟩] at hmade
    obtain ⟨hlist, hns⟩ := hmade
    have hone : out.references.countP refers = 1 := by
      have hothers : (r.references.filter fun x => !refers x).countP refers = 0 :=
        List.countP_eq_zero.2 fun x hx => by simpa using (List.mem_filter.1 hx).2
      rw [hlist, List.countP_append, hothers]
      simp [refers, hrefers]
    refine ⟨fun _ => ⟨hlist, hone⟩, fun hnot => absurd hown hnot, fun hforeign => ?_⟩
    have hkept : r.references.filter (fun x => !refers x) = r.references :=
      List.filter_eq_self.2 fun x hx => by rw [hforeign x hx]; rfl
    rw [if_pos hown, if_pos hown]
    exact ⟨by rw [hlist, hkept], hone, fun _ => ⟨_, hown.2, hns⟩⟩
  · rw [if_neg (fun hboth => hown ⟨hboth.2, of_decide_eq_true hboth.1⟩)] at hmade
    refine ⟨fun hyes => absurd hyes hown, fun _ => hmade, fun hforeign => ?_⟩
    have hsame : out.references = r.references := by
      rw [Resource.references, Resource.references, Json.itemsAt, Json.itemsAt, hmade]
    rw [if_neg hown, if_neg hown, List.append_nil, hsame]
    refine ⟨rfl, List.countP_eq_zero.2 fun x hx => by simp [hforeign x hx], ?_⟩
    rintro ⟨x, hx, hrefersto⟩
    rw [hforeign x hx] at hrefersto
    cases hrefersto

/-! ### A config map that was owned before -/

namespace Owned

def serving : Instance where
  metadata := { name := some "serving", namespaceName := some "n", uid := some "u" }
  spec := {}

def foreign : Json := .obj [("name", .str "other"), ("uid", .str "v")]

/-- A config map of another namespace, with references to the instance around a foreign one. -/
def config : Resource := ⟨[("apiVersion", .str "v1"), ("kind", .str "ConfigMap"),
  ("metadata", .obj [("name", .str "config-domain"), ("namespace", .str "m"),
    ("ownerReferences", .arr [.obj [("uid", .str "u")], foreign, .obj [("uid", .str "u")]])])]⟩

def reference : OwnerReference where
  apiVersion := "operator.knative.dev/v1alpha1"
  controller := some true
  kind := "KnativeServing"
  name := "serving"
  uid := "u"

end Owned

/-- The foreign reference stays, and one to the instance follows. -/
theorem references_within_namespace_again :
    ∃ p out, builtin Owned.serving = .ok p ∧
      Pipeline.apply (p ++ [Transformer.ingressDomain "apps.example.com"]) Owned.config = .ok out ∧
      out.references = [Owned.foreign, Owned.reference.toJson] ∧
      out.references.countP (Json.refersTo "u") = 1 := by
  obtain ⟨p, out, hp, hout⟩ : ∃ p out, builtin Owned.serving = .ok p ∧
      Pipeline.apply (p ++ [Transformer.ingressDomain "apps.example.com"]) Owned.config = .ok out :=
    ⟨_, _, rfl, rfl⟩
  obtain ⟨told, htold, -, -, -, howned, -⟩ := references_within_namespace hp
    (List.forall_mem_singleton.2 (Transformer.aside_ingressDomain _)) hout
  obtain rfl : Owned.reference = told := Option.some.inj htold
  obtain ⟨hlist, hone⟩ := howned ⟨by decide, by decide⟩
  exact ⟨p, out, hp, hout, hlist, hone⟩

end Pipeline

namespace Cluster

variable {c : Cluster} {r x : Resource} {i : Instance}

/-- **An applied object has the owner that was applied**, whoever owned it before. -/
theorem isOwnedBy_applied (hc : c.Filed) (hr : r.Proper) (h : r.isOwnedBy i = true)
    (hx : (c.applied r).object? r.key = some x) : x.isOwnedBy i = true := by
  obtain ⟨⟨live, hlive, hflag⟩, heq⟩ | ⟨write, y, hkey, heq, hy⟩ := applied_written hc hr
  · rw [heq, hlive] at hx
    obtain rfl := Option.some.inj hx
    rw [← Resource.mergeInto_of_unchanged hflag]
    exact Resource.isOwnedBy_mergeInto hr (hc _ _ hlive) h
  · rw [heq, object?_store, if_pos hkey.symm] at hx
    obtain rfl := Option.some.inj hx
    rw [Resource.isOwnedBy_congr (Resource.owners_stamp _ y)]
    obtain ⟨-, rfl⟩ | ⟨live, hlive, rfl⟩ := hy
    · rwa [Resource.isOwnedBy_congr (Resource.owners_tag r)]
    · exact Resource.isOwnedBy_mergeInto hr (hc _ _ hlive) h

end Cluster

end ReleaseKeeper
