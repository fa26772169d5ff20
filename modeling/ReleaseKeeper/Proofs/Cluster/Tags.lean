import ReleaseKeeper.Proofs.Cluster.Applied

/-!
# Which objects of a cluster are tagged

The tag of an object is one text of its annotations. The server's stamp leaves the annotations
alone; what a merge makes of the tag depends on what the desired resource says of it
(`Resource.tagAfter`, `isTagged_mergeInto`), and a resource that desires no tag leaves it as it was.
`Cluster.mark` tells of every key whether there is an object and whether it is tagged: applying a
resource makes a tagged object where there was none, and merges into the tag where there was one
(`mark_applied`), so a release that desires no tags leaves all other marks as they are
(`mark_foldl_applied`).
-/
namespace ReleaseKeeper

open Json (objectAt)

namespace Json

theorem isSome_asObj?_of_same {x y : Json} (h : x.same y = true) :
    x.asObj?.isSome = y.asObj?.isSome := by
  cases x <;> cases y <;> simp_all [same, asObj?]

/-- Where no object is desired, there is none. -/
theorem asObj?_memberAfter {key : String} {want : Json} (live? : Option Json)
    (hwant : want.asObj? = none) : (memberAfter key (some want) live?).bind asObj? = none := by
  obtain hplaced | ⟨live, -, hsame, hkept⟩ := memberAfter_whole (.inr (.inl hwant))
  · rw [hplaced]
    exact hwant
  · -- the live value is kept as it is the desired one, and then it is no object either
    have hobjects := isSome_asObj?_of_same hsame
    rw [hwant] at hobjects
    rw [hkept]
    simpa using hobjects

/-- What a desired value says of a text inside of it: nothing, or that it is some text or none. An
object that lacks the text says nothing, and what is no object says that there is none. -/
def tells (j : String) : Option Json → Option (Option String)
  | none => none
  | some want => match want.asObj? with
    | none => some none
    | some members => (members.lookup j).map asStr?

/-- A merge sets a text inside as it is desired, or leaves it. -/
theorem text_objectAt_merged {desired live : Dict Json} {key : String} (j : String)
    (hd : (desired.map (·.1)).Nodup) (hkey : key ≠ payloadKey)
    (hinner : ((objectAt key desired).map (·.1)).Nodup) :
    ((objectAt key (mergeMembers desired live).2).lookup j).bind asStr? =
      (tells j (desired.lookup key)).getD (((objectAt key live).lookup j).bind asStr?) := by
  rw [objectAt, lookup_merged hd]
  cases hw : desired.lookup key with
  | none => rfl
  | some want =>
    cases hobj : want.asObj? with
    | none =>
      rw [asObj?_memberAfter _ hobj, tells, hobj]
      rfl
    | some d =>
      obtain rfl : want = .obj d := by cases want <;> simp_all [asObj?]
      rw [objectAt_of_lookup hw] at hinner
      obtain ⟨m, hm, hlookup⟩ := memberAfter_obj hinner hkey (live.lookup key)
      rw [hm]
      change (m.lookup j).bind asStr? = ((d.lookup j).map asStr?).getD _
      rw [hlookup, text_memberAfter, lookup_objectAt]

end Json

namespace Resource

variable {r live : Resource}

theorem annotation?_eq (r : Resource) (key : String) :
    r.annotation? key = ((objectAt "annotations" r.metadata).lookup key).bind Json.asStr? := by
  simp [annotation?, textAt?, valueAt?, metadata, Json.lookup_objectAt, Json.get?, Json.asObj?,
    Option.bind_assoc]

theorem isTagged_congr (h : (objectAt "annotations" r.metadata).lookup createdByKey =
    (objectAt "annotations" live.metadata).lookup createdByKey) : r.isTagged = live.isTagged := by
  rw [isTagged, isTagged, annotation?_eq, annotation?_eq, h]

theorem metadata_tag (r : Resource) : r.tag.metadata =
    Json.withObject "annotations" (Table.put createdByKey (.str createdByValue)) r.metadata :=
  metadata_within _ r

theorem isTagged_tag (r : Resource) : r.tag.isTagged = true := by
  rw [isTagged, annotation?_eq, metadata_tag, Json.objectAt_withObject, Table.lookup_put, if_pos rfl]
  rfl

theorem isTagged_stamp (version : Nat) (r : Resource) :
    (Cluster.stamp version r).isTagged = r.isTagged := by
  refine isTagged_congr ?_
  rw [objectAt, lookup_metadata_stamp, if_neg (by decide), if_neg (by decide), objectAt]

/-- The tag that merging a resource leaves of an object, by what the object was before: as it was,
unless the desired annotations say something of it. -/
def tagAfter (r : Resource) (tagged : Bool) : Bool :=
  match Json.tells createdByKey (r.metadata.lookup "annotations") with
  | none => tagged
  | some text? => text? = some createdByValue

/-- **What a merge makes of the tag** depends on the tag of the live object and on what is desired. -/
theorem isTagged_mergeInto (hr : r.Proper) (hkey : live.key = r.key) :
    (r.mergeInto live).2.isTagged = r.tagAfter live.isTagged := by
  rw [isTagged, isTagged, annotation?_eq, annotation?_eq, tagAfter,
    metadata_mergeInto hr.ordered hr.name_ne hkey,
    Json.text_objectAt_merged createdByKey (Table.keys_nodup hr.ordered.metadata) (by decide)
      (Table.keys_nodup hr.ordered.annotations)]
  cases Json.tells createdByKey (r.metadata.lookup "annotations") <;> rfl

/-- A resource that desires no tag leaves the tag as it was. -/
theorem Installable.tagAfter (hr : r.Installable) (tagged : Bool) : r.tagAfter tagged = tagged := by
  obtain ⟨m, hm⟩ := metadata_of_name hr.proper.name_ne
  have hmeta : r.metadata = m := Json.objectAt_of_lookup hm
  rw [Resource.tagAfter, hmeta]
  cases hw : m.lookup "annotations" with
  | none => rfl
  | some want =>
    obtain ⟨annotations, rfl, habsent⟩ := hr.untagged want (by rw [valueAt?_metadata hm, hw])
    simp [Json.tells, Json.asObj?, habsent]

end Resource

namespace Cluster

variable {c c' : Cluster} {r : Resource} {key : ResourceKey}

/-- Whether there is an object under a key, and whether it is tagged. -/
def mark (c : Cluster) (key : ResourceKey) : Option Bool := (c.object? key).map Resource.isTagged

theorem mark_eq_some_iff {b : Bool} :
    c.mark key = some b ↔ ∃ r, c.object? key = some r ∧ r.isTagged = b := by
  rw [mark, Option.map_eq_some_iff]

theorem isSome_mark : (c.mark key).isSome = (c.object? key).isSome := Option.isSome_map

theorem mark_store (write : Write) (x : Resource) :
    (c.store write x).mark key = if key = x.key then some x.isTagged else c.mark key := by
  rw [mark, object?_store]
  split
  · rw [Option.map_some, Resource.isTagged_stamp]
  · rfl

/-- **An applied resource is tagged if it was absent**, else what it says of the tag counts; no other
mark changes. -/
theorem mark_applied (hc : c.Filed) (hr : r.Proper) :
    (c.applied r).mark key =
      if key = r.key then some ((c.mark key).elim true r.tagAfter) else c.mark key := by
  obtain ⟨⟨live, hlive, hflag⟩, heq⟩ | ⟨write, x, hkey, heq, hx⟩ := applied_written hc hr
  · have htag := Resource.isTagged_mergeInto hr (hc _ _ hlive)
    rw [Resource.mergeInto_of_unchanged hflag] at htag
    rw [heq]
    split
    · next h =>
      rw [h, mark, hlive, Option.map_some, Option.elim_some, ← htag]
    · rfl
  · rw [heq, mark_store, hkey]
    split
    · next h =>
      rw [h]
      obtain ⟨habsent, rfl⟩ | ⟨live, hlive, rfl⟩ := hx
      · rw [mark, habsent, Resource.isTagged_tag]
        rfl
      · rw [mark, hlive, Resource.isTagged_mergeInto hr (hc _ _ hlive)]
        rfl
    · rfl

/-- What applying a release makes of the marks. -/
theorem mark_foldl_applied : ∀ {m : Manifest} {c : Cluster}, c.Filed → (∀ r ∈ m, r.Installable) →
    (m.foldl applied c).mark key =
      if key ∈ m.map Resource.key then some ((c.mark key).getD true) else c.mark key
  | [], c, _, _ => by simp
  | r :: rest, c, hc, hm => by
    obtain ⟨hr, hrest⟩ := List.forall_mem_cons.1 hm
    have hkept : (c.mark key).elim true r.tagAfter = (c.mark key).getD true := by
      cases c.mark key with
      | none => rfl
      | some tagged => exact hr.tagAfter tagged
    rw [List.foldl_cons, mark_foldl_applied (filed_applied hc hr.proper) hrest,
      mark_applied hc hr.proper, hkept, List.map_cons]
    by_cases hkey : key = r.key <;> by_cases hin : key ∈ rest.map Resource.key <;>
      simp [hkey, hin]

end Cluster

end ReleaseKeeper
