import ReleaseKeeper.Proofs.Api.Objects
import ReleaseKeeper.Proofs.Manifest.Tagging
import ReleaseKeeper.Proofs.Metadata.Forms

/-!
# Resources that are received as they were sent

A resource is sent with its metadata in typed form, so it is received as it was exactly if the metadata is
of the forms in which it is written (`Resource.Plain`, `received_sent`). Nothing is merged into a live
object only if the resource is plain (`plain_of_unchanged`). If it is, what was made of it is plain as
well, so once it is stored there is nothing to merge into it any more (`unchanged_of_created`,
`unchanged_of_updated`).
-/
namespace ReleaseKeeper

open Typed Typed.Reader Json

/-- A resource whose metadata is of the forms in which metadata is written. -/
def Resource.Plain (r : Resource) : Prop := Formed Metadata.forms r.metadata

namespace Api.Client

variable {r live : Resource} {x object : Json} {m : Metadata} {fields members : Dict Json}

/-- An object whose metadata is an object is read if its metadata is. -/
theorem readObject_iff (hfields : members.lookup "metadata" = some (.obj fields)) :
    readObject (.obj members) = .ok object ↔
      ∃ m, Metadata.ofJson (.obj fields) = .ok m ∧
        object = .obj (Table.put "metadata" m.toJson members) := by
  constructor
  · intro h
    obtain ⟨m?, hfield, hend⟩ := bind_eq_ok.1 h
    rw [field?, hfields] at hfield
    obtain ⟨m, hread, rfl⟩ := map_eq_ok.1 hfield
    exact ⟨m, hread, (Except.ok.inj hend).symm⟩
  · rintro ⟨m, hread, rfl⟩
    rw [readObject, field?_eq_some hfields hread]
    rfl

/-- The texts of metadata in typed form. -/
theorem metadata_put (m : Metadata) (members : Dict Json) :
    Resource.metadata ⟨Table.put "metadata" m.toJson members⟩ = keptMembers m.members :=
  objectAt_of_lookup (by rw [Table.lookup_put, if_pos rfl]; rfl)

/-- **A resource keeps its identity** as its metadata takes on typed form. -/
theorem key_readObject (hread : Metadata.ofJson (.obj r.metadata) = .ok m) :
    Resource.key ⟨Table.put "metadata" m.toJson r.members⟩ = r.key := by
  obtain ⟨-, -, -, -, -, -, -, -, -, hname, hnamespace, -⟩ := Metadata.ofJson_obj_iff.1 hread
  have htop : ∀ j, j ≠ "metadata" →
      Resource.textAt? ⟨Table.put "metadata" m.toJson r.members⟩ [j] = r.textAt? [j] := by
    intro j hj
    rw [Resource.textAt?_singleton, Resource.textAt?_singleton, Table.lookup_put, if_neg hj]
  have hmeta : ∀ {j : String} {s? : Option String}, known? r.metadata j text = .ok s? →
      (m.members.lookup j).join = s?.map .str →
      Resource.textAt? ⟨Table.put "metadata" m.toJson r.members⟩ ["metadata", j] =
        r.textAt? ["metadata", j] := by
    intro j s? hknown hmember
    rw [Resource.textAt?_metadata, Resource.textAt?_metadata]
    change ((Resource.metadata ⟨Table.put "metadata" m.toJson r.members⟩).lookup j).bind asStr? =
      (r.metadata.lookup j).bind asStr?
    rw [metadata_put, lookup_keptMembers m.members_nodup, hmember, ← text_of_known? hknown]
    cases s? <;> rfl
  refine Resource.key_congr ?_ ?_ ?_ ?_
  · rw [Resource.apiVersion, Resource.apiVersion, htop _ (by decide)]
  · rw [Resource.kind, Resource.kind, htop _ (by decide)]
  · rw [Resource.namespaceName, Resource.namespaceName,
      hmeta hnamespace (by simp [Metadata.members, List.lookup_cons])]
  · rw [Resource.name, Resource.name, hmeta hname (by simp [Metadata.members, List.lookup_cons])]

/-- What is read of a resource is a resource. -/
theorem received_put (hvalid : Resource.ofJson r.toJson = .ok r)
    (hread : Metadata.ofJson (.obj r.metadata) = .ok m) :
    received (.obj (Table.put "metadata" m.toJson r.members)) =
      .ok ⟨Table.put "metadata" m.toJson r.members⟩ := by
  obtain ⟨hapi, hkind, -, hname⟩ := Resource.key_eq_iff.1 (key_readObject hread)
  exact Resource.ofJson_toJson_congr hapi hkind hname hvalid

/-- A plain resource stays as it is. -/
theorem put_of_plain (hsorted : Table.Sorted r.members) (hname : r.name ≠ "") (hplain : r.Plain)
    (hread : Metadata.ofJson (.obj r.metadata) = .ok m) :
    Table.put "metadata" m.toJson r.members = r.members := by
  rw [(Metadata.retains _ _ hread).2 ⟨_, rfl, hplain⟩]
  exact Table.put_of_lookup hsorted (Resource.lookup_metadata hname)

/-- What was read is plain. -/
theorem plain_of_readObject (h : readObject x = .ok live.toJson) : live.Plain := by
  obtain ⟨members, m, -, hobject, hstorable, -⟩ := readObject_eq_ok h
  obtain ⟨live⟩ := live
  obtain rfl := Json.obj.inj hobject
  rw [Resource.Plain, metadata_put]
  exact Metadata.formed_members hstorable

/-- **Nothing is merged into what was read only if the resource is plain.** -/
theorem plain_of_unchanged (hwf : r.toJson.WellFormed) (hname : r.name ≠ "")
    (hlive : readObject x = .ok live.toJson) (h : (r.mergeInto live).1 = false) : r.Plain := by
  have hfields := Resource.lookup_metadata hname
  obtain ⟨l, hl, hmerged⟩ := merge_settled_obj hwf h (by decide) hfields
  have hplain : Formed Metadata.forms live.metadata := plain_of_readObject hlive
  rw [show live.metadata = l from objectAt_of_lookup hl] at hplain
  exact Formed.of_settled Metadata.mergeable_forms (hwf.lookup hfields) hmerged hplain

/-- **A resource is received as it was sent exactly if it is plain.** -/
theorem received_sent (hwf : r.toJson.WellFormed) (hvalid : Resource.ofJson r.toJson = .ok r)
    (hsent : sent r = .ok object) :
    ∃ r', received object = .ok r' ∧ ((r' == r) = true ↔ r.Plain) := by
  obtain ⟨-, -, hname⟩ := Resource.ofJson_toJson_iff.1 hvalid
  have hfields := Resource.lookup_metadata hname
  obtain ⟨m, hread, rfl⟩ := (readObject_iff hfields).1 (sent_iff.1 hsent)
  refine ⟨_, received_put hvalid hread, fun h => ?_, fun h => ?_⟩
  · have hsame : sameMembers (Table.put "metadata" m.toJson r.members) r.members = true := h
    exact plain_of_unchanged hwf hname (sent_iff.1 hsent) (merge_settled_same hwf hsame)
  · rw [put_of_plain (Json.WellFormed.sorted hwf) hname h hread]
    exact same_refl hwf

/-! ## What is stored of an application -/

theorem coarse_toJson (h : m.Storable) : m.coarse.toJson = m.toJson := by
  have hread := Metadata.ofJson_toJson h
  exact (Metadata.retains _ _ hread).2 ⟨_, rfl, Metadata.formed_members h⟩

/-- What was read once is read again as it is. -/
theorem readObject_readObject (h : readObject x = .ok object) : readObject object = .ok object := by
  obtain ⟨members, m, -, rfl, hstorable, -⟩ := readObject_eq_ok h
  have hfields : (Table.put "metadata" m.toJson members).lookup "metadata" =
      some (.obj (keptMembers m.members)) := by
    rw [Table.lookup_put, if_pos rfl]
    rfl
  refine (readObject_iff hfields).2 ⟨m.coarse, Metadata.ofJson_toJson hstorable, ?_⟩
  rw [coarse_toJson hstorable, Table.put_put]

/-- What is merged into a plain resource already is so once that has been read. -/
theorem settled_of_plain {stored : Resource} (hwf : r.toJson.WellFormed)
    (hfields : stored.members.lookup "metadata" = some (.obj stored.metadata)) (hplain : stored.Plain)
    (hread : readObject stored.toJson = .ok live.toJson) (h : (r.mergeInto stored).1 = false) :
    (r.mergeInto live).1 = false := by
  obtain ⟨m, hm, hobject⟩ := (readObject_iff hfields).1 hread
  obtain ⟨live⟩ := live
  obtain rfl := Json.obj.inj hobject
  refine merge_settled_put hwf h fun want hw => ?_
  have hsettled := (merge_settled_iff hwf.keys_nodup).1 h "metadata" want hw
  rwa [hfields, ← (Metadata.retains _ _ hm).2 ⟨_, rfl, hplain⟩] at hsettled

theorem key_of_readObject (hname : r.name ≠ "") (hread : readObject r.toJson = .ok live.toJson) :
    live.key = r.key := by
  obtain ⟨m, hm, hobject⟩ := (readObject_iff (Resource.lookup_metadata hname)).1 hread
  obtain ⟨live⟩ := live
  obtain rfl := Json.obj.inj hobject
  exact key_readObject hm

theorem name_tag (r : Resource) : r.tag.name = r.name := congrArg ResourceKey.name r.key_tag

theorem plain_tag (h : r.Plain) : r.tag.Plain := by
  rw [Resource.Plain, Resource.metadata_tag]
  refine Formed.put h (by decide) fun f hf hkey => ?_
  have hform : Metadata.forms.lookup f.1 = some f.2 := Table.lookup_of_mem (by decide) hf
  rw [hkey] at hform
  have hgiven : Optional Given = f.2 := Option.some.inj hform
  rw [← hgiven]
  rintro _ ⟨⟩
  rfl

/-- The tag is read with the object. -/
theorem isTagged_of_tag (hname : r.name ≠ "") (hread : readObject r.tag.toJson = .ok live.toJson) :
    live.isTagged = true := by
  have hfields := Resource.lookup_metadata (r := r.tag) (by rwa [name_tag])
  obtain ⟨m, hm, hobject⟩ := (readObject_iff hfields).1 hread
  obtain ⟨live⟩ := live
  obtain rfl := Json.obj.inj hobject
  obtain ⟨hannotations, -⟩ := Metadata.ofJson_obj_iff.1 hm
  have hgiven : Optional Given (r.tag.metadata.lookup "annotations") := by
    rw [Resource.metadata_tag, withObject, Table.lookup_put, if_pos rfl]
    rintro _ ⟨⟩
    rfl
  have hkept := (retains_texts.known? not_given_null hannotations).2 hgiven
  have hlookup : (keptMembers m.members).lookup "annotations" = r.tag.metadata.lookup "annotations" := by
    rw [lookup_keptMembers m.members_nodup, ← hkept]
    simp [Metadata.members]
  refine (Resource.isTagged_congr ?_).trans (Resource.isTagged_tag r)
  rw [metadata_put, objectAt, hlookup, objectAt]

/-- **There is nothing to merge into what was created** exactly if the resource is plain and keeps its
tag. -/
theorem unchanged_of_created (hwf : r.toJson.WellFormed) (hvalid : Resource.ofJson r.toJson = .ok r)
    (hread : readObject r.tag.toJson = .ok live.toJson) :
    (r.mergeInto live).1 = false ↔ r.Plain ∧ r.KeepsTag := by
  obtain ⟨-, -, hname⟩ := Resource.ofJson_toJson_iff.1 hvalid
  have hname' : r.tag.name ≠ "" := by rwa [name_tag]
  constructor
  · intro h
    refine ⟨plain_of_unchanged hwf hname hread h, ?_⟩
    have hkey : live.key = r.key := (key_of_readObject hname' hread).trans r.key_tag
    have htagged := Resource.isTagged_mergeInto ⟨.of_wellFormed hwf, hvalid⟩ hkey
    rw [Resource.mergeInto_of_unchanged h, isTagged_of_tag hname hread] at htagged
    exact Resource.keepsTag_iff.2 htagged.symm
  · rintro ⟨hplain, hkeeps⟩
    exact settled_of_plain hwf (Resource.lookup_metadata hname') (plain_tag hplain) hread
      (Resource.settled_tag_of_agrees hwf hname hkeeps)

/-- **There is nothing to merge into what was merged before** exactly if the resource is plain. -/
theorem unchanged_of_updated {old : Resource} (hwf : r.toJson.WellFormed)
    (hvalid : Resource.ofJson r.toJson = .ok r) (hold : readObject x = .ok old.toJson)
    (hnamed : old.name ≠ "") (hread : readObject (r.mergeInto old).2.toJson = .ok live.toJson) :
    (r.mergeInto live).1 = false ↔ r.Plain := by
  obtain ⟨-, -, hname⟩ := Resource.ofJson_toJson_iff.1 hvalid
  have hordered := Resource.Ordered.of_wellFormed hwf
  refine ⟨plain_of_unchanged hwf hname hread, fun hplain => ?_⟩
  have hname' : (r.mergeInto old).2.name ≠ "" := by
    rwa [Resource.name_mergeInto hordered hname hnamed]
  have hmerged : (r.mergeInto old).2.Plain := by
    rw [Resource.Plain, Resource.metadata_mergeInto_of_names hordered hname hnamed]
    exact Formed.merged Metadata.mergeable_forms hplain (plain_of_readObject hold)
  exact settled_of_plain hwf (Resource.lookup_metadata hname') hmerged hread
    (Resource.settled_merged hwf _)

end Api.Client

end ReleaseKeeper
