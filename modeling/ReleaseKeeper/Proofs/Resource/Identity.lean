import ReleaseKeeper.Cluster.Basic
import ReleaseKeeper.Manifest.Apply
import ReleaseKeeper.Proofs.Json.Merge
import ReleaseKeeper.Proofs.Table

/-!
# What keeps the identity of a resource

An object is filed under the key that is read from its own members, so whatever is written back has
to be of the same key as what was read. Tagging and stamping touch the metadata beside name and
namespace only (`key_within`); a merge takes the identity from the desired resource, which the live
object has already (`key_mergeInto`).
-/
namespace ReleaseKeeper

namespace Json

theorem objectAt_withObject (key : String) (f : Dict Json → Dict Json) (members : Dict Json) :
    objectAt key (withObject key f members) = f (objectAt key members) := by
  simp [objectAt, withObject, Table.lookup_put, asObj?]

theorem withObject_withObject (key : String) (f g : Dict Json → Dict Json) (members : Dict Json) :
    withObject key g (withObject key f members) = withObject key (g ∘ f) members := by
  rw [withObject, objectAt_withObject, withObject, Table.put_put]
  rfl

theorem lookup_withObject_ne {key j : String} (f : Dict Json → Dict Json) (members : Dict Json)
    (h : j ≠ key) : (withObject key f members).lookup j = members.lookup j := by
  simp [withObject, Table.lookup_put, h]

theorem objectAt_of_lookup {key : String} {members m : Dict Json}
    (h : members.lookup key = some (.obj m)) : objectAt key members = m := by
  simp [objectAt, h, asObj?]

theorem lookup_objectAt (key j : String) (members : Dict Json) :
    (objectAt key members).lookup j = (members.lookup key).bind (·.get? j) := by
  rw [objectAt]
  cases members.lookup key with
  | none => rfl
  | some x => cases x <;> rfl

theorem asStr?_of_same {x y : Json} (h : x.same y = true) : x.asStr? = y.asStr? := by
  cases x <;> cases y <;> simp_all [same, asStr?]

/-- What becomes of a text: it is the desired one, or what it was where none is desired. -/
theorem text_memberAfter (key : String) (want? live? : Option Json) :
    (memberAfter key want? live?).bind asStr? = (want?.map asStr?).getD (live?.bind asStr?) := by
  cases want? with
  | none => rfl
  | some want =>
    by_cases hwhole : Whole key want live?
    · obtain hplaced | ⟨live, -, hsame, hkept⟩ := memberAfter_whole hwhole
      · rw [hplaced]
        rfl
      · rw [hkept]
        exact asStr?_of_same hsame
    · obtain ⟨hkey, d, l, rfl, rfl⟩ := not_whole hwhole
      rw [memberAfter, mergeMember_obj _ _ hkey]
      split <;> rfl

/-- A merge sets the texts that are desired and keeps the others. -/
theorem text_merged {desired live : Dict Json} (hd : (desired.map (·.1)).Nodup) (key : String) :
    ((mergeMembers desired live).2.lookup key).bind asStr? =
      match desired.lookup key with
      | none => (live.lookup key).bind asStr?
      | some want => want.asStr? := by
  rw [lookup_merged hd, text_memberAfter]
  cases desired.lookup key <;> rfl

/-- The objects inside of a value are well-formed. -/
theorem WellFormed.objectAt {members : Dict Json} (h : (Json.obj members).WellFormed) (key : String) :
    (Json.obj (Json.objectAt key members)).WellFormed := by
  have hempty : (Json.obj []).WellFormed := by
    simp only [WellFormed, WellFormedMembers, and_true]
    exact List.Pairwise.nil
  rw [Json.objectAt]
  cases hx : members.lookup key with
  | none => exact hempty
  | some x =>
    cases x with
    | obj m => exact h.lookup hx
    | _ => exact hempty

theorem WellFormed.sorted {members : Dict Json} (h : (Json.obj members).WellFormed) :
    Table.Sorted members := by
  simp only [WellFormed] at h
  exact h.1

end Json

namespace Resource

def metadata (r : Resource) : Dict Json := Json.objectAt "metadata" r.members

/-- No key stands twice among the members, in the metadata and in the annotations. -/
structure Ordered (r : Resource) : Prop where
  members : Table.Sorted r.members
  metadata : Table.Sorted r.metadata
  annotations : Table.Sorted (Json.objectAt "annotations" r.metadata)

theorem metadata_within (f : Dict Json → Dict Json) (r : Resource) :
    (r.within "metadata" f).metadata = f r.metadata :=
  Json.objectAt_withObject _ _ _

theorem lookup_within_metadata (f : Dict Json → Dict Json) (r : Resource) {key : String}
    (h : key ≠ "metadata") : (r.within "metadata" f).members.lookup key = r.members.lookup key :=
  Json.lookup_withObject_ne _ _ h

theorem Ordered.of_wellFormed {r : Resource} (h : r.toJson.WellFormed) : r.Ordered :=
  ⟨Json.WellFormed.sorted h, (h.objectAt _).sorted, ((h.objectAt _).objectAt _).sorted⟩

theorem textAt?_singleton (r : Resource) (key : String) :
    r.textAt? [key] = (r.members.lookup key).bind Json.asStr? := by
  simp [textAt?, valueAt?, Json.get?, Json.asObj?]

theorem textAt?_metadata (r : Resource) (key : String) :
    r.textAt? ["metadata", key] = ((Json.objectAt "metadata" r.members).lookup key).bind Json.asStr? := by
  simp [textAt?, valueAt?, Json.lookup_objectAt, Json.get?, Json.asObj?]

/-- A resource that has a name has metadata. -/
theorem metadata_of_name {r : Resource} (h : r.name ≠ "") :
    ∃ m, r.members.lookup "metadata" = some (.obj m) := by
  simp only [name, textAt?_metadata, Json.objectAt] at h
  cases hm : r.members.lookup "metadata" with
  | none => simp [hm] at h
  | some x =>
    cases x with
    | obj m => exact ⟨m, rfl⟩
    | _ => simp [hm, Json.asObj?] at h

theorem lookup_metadata {r : Resource} (h : r.name ≠ "") :
    r.members.lookup "metadata" = some (.obj r.metadata) := by
  obtain ⟨fields, hfields⟩ := metadata_of_name h
  have hmeta : r.metadata = fields := Json.objectAt_of_lookup hfields
  rw [hmeta, hfields]

/-- What is needed to be a resource are API version, kind and name. -/
theorem ofJson_toJson_iff {r : Resource} :
    ofJson r.toJson = .ok r ↔ r.apiVersion ≠ "" ∧ r.kind ≠ "" ∧ r.name ≠ "" := by
  simp only [toJson, ofJson]
  by_cases hhead : r.apiVersion = "" ∨ r.kind = ""
  · rw [if_pos hhead]
    refine ⟨fun h => (by cases h), fun ⟨hapi, hkind, _⟩ => ?_⟩
    exact (hhead.elim hapi hkind).elim
  · rw [if_neg hhead]
    rw [not_or] at hhead
    by_cases hname : r.name = "" <;> simp [hhead, hname]

theorem ofJson_toJson_congr {r r' : Resource} (hapi : r'.apiVersion = r.apiVersion)
    (hkind : r'.kind = r.kind) (hname : r'.name = r.name) (h : ofJson r.toJson = .ok r) :
    ofJson r'.toJson = .ok r' := by
  rw [ofJson_toJson_iff] at h ⊢
  rwa [hapi, hkind, hname]

/-- The identity is four texts. -/
theorem key_eq_iff {r r' : Resource} : r'.key = r.key ↔ r'.apiVersion = r.apiVersion ∧
    r'.kind = r.kind ∧ r'.namespaceName = r.namespaceName ∧ r'.name = r.name := by
  rw [key, key, ResourceKey.mk.injEq]

theorem key_congr {r r' : Resource} (hapi : r'.apiVersion = r.apiVersion) (hkind : r'.kind = r.kind)
    (hns : r'.namespaceName = r.namespaceName) (hname : r'.name = r.name) : r'.key = r.key :=
  key_eq_iff.2 ⟨hapi, hkind, hns, hname⟩

theorem key_within {f : Dict Json → Dict Json} (r : Resource)
    (hname : ∀ m, (f m).lookup "name" = m.lookup "name")
    (hns : ∀ m, (f m).lookup "namespace" = m.lookup "namespace") :
    (r.within "metadata" f).key = r.key := by
  have htop : ∀ j, j ≠ "metadata" → (r.within "metadata" f).textAt? [j] = r.textAt? [j] := by
    intro j hj
    rw [textAt?_singleton, textAt?_singleton, lookup_within_metadata _ _ hj]
  have hmeta : Json.objectAt "metadata" (r.within "metadata" f).members =
      f (Json.objectAt "metadata" r.members) := Json.objectAt_withObject _ _ _
  refine key_congr ?_ ?_ ?_ ?_
  · rw [apiVersion, apiVersion, htop _ (by decide)]
  · rw [kind, kind, htop _ (by decide)]
  · rw [namespaceName, namespaceName, textAt?_metadata, textAt?_metadata, hmeta, hns]
  · rw [name, name, textAt?_metadata, textAt?_metadata, hmeta, hname]

theorem key_tag (r : Resource) : r.tag.key = r.key := by
  refine key_within r (fun m => ?_) (fun m => ?_)
  · exact Json.lookup_withObject_ne _ _ (by decide)
  · exact Json.lookup_withObject_ne _ _ (by decide)

theorem key_stamp (version : Nat) (r : Resource) : (Cluster.stamp version r).key = r.key := by
  refine key_within r (fun m => ?_) (fun m => ?_)
  · dsimp only
    split <;> simp [Table.lookup_put]
  · dsimp only
    split <;> simp [Table.lookup_put]

/-- The stamp sets the version, and a uid where there is none. -/
theorem lookup_metadata_stamp (version : Nat) (r : Resource) (key : String) :
    (Cluster.stamp version r).metadata.lookup key =
      if key = "resourceVersion" then some (.str (toString version))
      else if key = "uid" then some ((r.metadata.lookup "uid").getD (.str s!"uid-{version}"))
      else r.metadata.lookup key := by
  have huid : "uid" ≠ "resourceVersion" := by decide
  rw [Cluster.stamp, metadata_within]
  dsimp only
  rw [Table.lookup_put, if_neg huid]
  cases h : r.metadata.lookup "uid" with
  | none =>
    rw [if_neg (by simp), Table.lookup_put, Table.lookup_put]
    split
    · next hkey => rw [hkey, if_neg huid]; rfl
    · rfl
  | some uid =>
    rw [if_pos (by simp), Table.lookup_put]
    split
    · rfl
    · split
      · next hkey => rw [hkey, h]; rfl
      · rfl

/-- Where nothing is to be merged, the merge comes to the live object. -/
theorem mergeInto_of_unchanged {r live : Resource} (h : (r.mergeInto live).1 = false) :
    (r.mergeInto live).2 = live :=
  congrArg Resource.mk (Json.mergeMembers_of_unchanged h)

/-- Where both have names, the metadata is merged. -/
theorem metadata_mergeInto_of_names {r live : Resource} (hr : r.Ordered) (hname : r.name ≠ "")
    (hlive : live.name ≠ "") :
    (r.mergeInto live).2.metadata = (Json.mergeMembers r.metadata live.metadata).2 := by
  exact Json.objectAt_of_lookup (Json.lookup_merged_obj (Table.keys_nodup hr.members) (by decide)
    (lookup_metadata hname) (lookup_metadata hlive))

theorem metadata_mergeInto {r live : Resource} (hr : r.Ordered) (hname : r.name ≠ "")
    (hkey : live.key = r.key) :
    (r.mergeInto live).2.metadata = (Json.mergeMembers r.metadata live.metadata).2 := by
  have hlive : live.name = r.name := congrArg ResourceKey.name hkey
  exact metadata_mergeInto_of_names hr hname (hlive ▸ hname)

/-- A text of the result is the desired one, or the live one where none is desired. -/
theorem textAt?_mergeInto {r : Resource} (hr : r.Ordered) (live : Resource) (j : String) :
    (r.mergeInto live).2.textAt? [j] = r.textAt? [j] ∨
      r.textAt? [j] = none ∧ (r.mergeInto live).2.textAt? [j] = live.textAt? [j] := by
  have hmerged : (r.mergeInto live).2.textAt? [j] = _ :=
    (textAt?_singleton _ j).trans (Json.text_merged (Table.keys_nodup hr.members) j)
  rw [hmerged, textAt?_singleton, textAt?_singleton]
  cases r.members.lookup j with
  | none => exact .inr ⟨rfl, rfl⟩
  | some want => exact .inl rfl

theorem metadataText_mergeInto {r live : Resource} (hr : r.Ordered) (hname : r.name ≠ "")
    (hlive : live.name ≠ "") (j : String) :
    (r.mergeInto live).2.textAt? ["metadata", j] = r.textAt? ["metadata", j] ∨
      r.textAt? ["metadata", j] = none ∧
        (r.mergeInto live).2.textAt? ["metadata", j] = live.textAt? ["metadata", j] := by
  have htext : ∀ x : Resource, x.textAt? ["metadata", j] = (x.metadata.lookup j).bind Json.asStr? :=
    fun x => textAt?_metadata x j
  rw [htext, htext, htext, metadata_mergeInto_of_names hr hname hlive,
    Json.text_merged (Table.keys_nodup hr.metadata)]
  cases r.metadata.lookup j with
  | none => exact .inr ⟨rfl, rfl⟩
  | some want => exact .inl rfl

section
variable {r live : Resource} (hr : r.Ordered) (hname : r.name ≠ "") (hlive : live.name ≠ "")
include hr

theorem apiVersion_mergeInto : (r.mergeInto live).2.apiVersion = r.apiVersion ∨
    r.apiVersion = "" ∧ (r.mergeInto live).2.apiVersion = live.apiVersion := by
  obtain h | ⟨hnone, h⟩ := textAt?_mergeInto hr live "apiVersion"
  · exact .inl (by rw [apiVersion, h, apiVersion])
  · exact .inr ⟨by rw [apiVersion, hnone, Option.getD_none], by rw [apiVersion, h, apiVersion]⟩

theorem kind_mergeInto : (r.mergeInto live).2.kind = r.kind ∨
    r.kind = "" ∧ (r.mergeInto live).2.kind = live.kind := by
  obtain h | ⟨hnone, h⟩ := textAt?_mergeInto hr live "kind"
  · exact .inl (by rw [kind, h, kind])
  · exact .inr ⟨by rw [kind, hnone, Option.getD_none], by rw [kind, h, kind]⟩

include hname hlive

theorem namespaceName_mergeInto : (r.mergeInto live).2.namespaceName = r.namespaceName ∨
    r.namespaceName = none ∧ (r.mergeInto live).2.namespaceName = live.namespaceName := by
  obtain h | ⟨hnone, h⟩ := metadataText_mergeInto hr hname hlive "namespace"
  · exact .inl (by rw [namespaceName, h, namespaceName])
  · exact .inr ⟨by rw [namespaceName, hnone]; rfl, by rw [namespaceName, h, namespaceName]⟩

theorem name_mergeInto : (r.mergeInto live).2.name = r.name := by
  obtain h | ⟨hnone, -⟩ := metadataText_mergeInto hr hname hlive "name"
  · rw [name, h, name]
  · exact absurd (by rw [name, hnone, Option.getD_none]) hname

end

/-- **A merge keeps the identity** that the desired resource and the live object have in common. -/
theorem key_mergeInto {r live : Resource} (hr : r.Ordered) (hname : r.name ≠ "")
    (hkey : live.key = r.key) : (r.mergeInto live).2.key = r.key := by
  obtain ⟨hapi, hkind, hns, hlive⟩ := key_eq_iff.1 hkey
  have hlive : live.name ≠ "" := hlive ▸ hname
  refine key_congr ?_ ?_ ?_ (name_mergeInto hr hname hlive)
  · obtain h | ⟨-, h⟩ := @apiVersion_mergeInto r live hr
    · exact h
    · rw [h, hapi]
  · obtain h | ⟨-, h⟩ := @kind_mergeInto r live hr
    · exact h
    · rw [h, hkind]
  · obtain h | ⟨-, h⟩ := namespaceName_mergeInto hr hname hlive
    · exact h
    · rw [h, hns]

end Resource

end ReleaseKeeper
