import ReleaseKeeper.Proofs.Resource.Identity

/-!
# What applying a resource makes of a cluster

`Cluster.applied` is the cluster after a resource was applied to it, as a function of the two. It
holds all that the resource asks for (`holds_applied`), and every other object is what it was
(`object?_applied_of_ne`). Folded over resources of different keys it is what a release comes to
(`holds_foldl_applied`).

The server's stamp and the operator's tag must not be among what is desired: else every merge would
change them back.
-/
namespace ReleaseKeeper

/-- A resource that a release can hold, whose members have an order. -/
structure Resource.Proper (r : Resource) : Prop where
  ordered : r.Ordered
  valid : Resource.ofJson r.toJson = .ok r

/-- A resource that can be merged into what it was created as: it is one that a release can hold,
and desires neither a version nor a tag. -/
structure Resource.Applicable (r : Resource) : Prop where
  wellFormed : r.toJson.WellFormed
  valid : Resource.ofJson r.toJson = .ok r
  unversioned : r.valueAt? ["metadata", "resourceVersion"] = none
  untagged : ∀ x, r.valueAt? ["metadata", "annotations"] = some x →
    ∃ annotations, x = .obj annotations ∧ annotations.lookup createdByKey = none

/-- A resource that a release can hold, whose members have an order, and that desires no tag. -/
structure Resource.Installable (r : Resource) : Prop where
  ordered : r.Ordered
  valid : Resource.ofJson r.toJson = .ok r
  untagged : ∀ x, r.valueAt? ["metadata", "annotations"] = some x →
    ∃ annotations, x = .obj annotations ∧ annotations.lookup createdByKey = none

theorem Resource.Applicable.installable {r : Resource} (h : r.Applicable) : r.Installable :=
  ⟨.of_wellFormed h.wellFormed, h.valid, h.untagged⟩

theorem Resource.Installable.proper {r : Resource} (h : r.Installable) : r.Proper :=
  ⟨h.ordered, h.valid⟩

theorem Resource.Applicable.proper {r : Resource} (h : r.Applicable) : r.Proper :=
  h.installable.proper

/-- The resources of a release can all be merged, and are told apart by their keys. -/
structure Manifest.Applicable (m : Manifest) : Prop where
  keys_nodup : (m.map Resource.key).Nodup
  each : ∀ r ∈ m, r.Applicable

namespace Cluster

/-- Every object is stored under its own key. -/
def Filed (c : Cluster) : Prop := ∀ key r, c.object? key = some r → r.key = key

/-- The cluster has an object under the key of the resource that there is nothing to merge into. -/
def Holds (c : Cluster) (r : Resource) : Prop :=
  ∃ live, c.object? r.key = some live ∧ (r.mergeInto live).1 = false

/-- The cluster after a resource was applied. -/
def applied (c : Cluster) (r : Resource) : Cluster :=
  match c.object? r.key with
  | none => c.store (.create r.tag.key) r.tag
  | some live =>
    let merged := (r.mergeInto live).2
    if (r.mergeInto live).1 then c.store (.update merged.key) merged else c

end Cluster

namespace Resource

/-! ## Stamp and tag are not desired -/

variable {r : Resource}

theorem name_ne_of_valid (h : Resource.ofJson r.toJson = .ok r) : r.name ≠ "" := by
  simp only [toJson, ofJson] at h
  split at h
  · cases h
  · split at h
    · cases h
    · assumption

theorem Proper.name_ne (h : r.Proper) : r.name ≠ "" := name_ne_of_valid h.valid

theorem Applicable.name_ne (h : r.Applicable) : r.name ≠ "" := name_ne_of_valid h.valid

theorem valueAt?_metadata {m : Dict Json} (h : r.members.lookup "metadata" = some (.obj m))
    (key : String) : r.valueAt? ["metadata", key] = m.lookup key := by
  simp [valueAt?, Json.get?, Json.asObj?, h]

/-- The server's stamp changes nothing that is desired. -/
theorem settled_stamp {live : Resource} (hr : r.Applicable) (version : Nat)
    (h : (r.mergeInto live).1 = false) : (r.mergeInto (Cluster.stamp version live)).1 = false := by
  obtain ⟨m, hm⟩ := metadata_of_name hr.name_ne
  have hwf : (Json.obj m).WellFormed := hr.wellFormed.lookup hm
  obtain ⟨l, hl, hml⟩ := Json.merge_settled_obj hr.wellFormed h (by decide) hm
  have hversion : m.lookup "resourceVersion" = none := by
    rw [← valueAt?_metadata hm]
    exact hr.unversioned
  refine Json.merge_settled_put hr.wellFormed h ?_
  intro want hw
  obtain rfl : Json.obj m = want := by simpa [hm] using hw
  rw [Json.objectAt_of_lookup hl, Json.mergeMember_obj _ _ (by decide), if_neg]
  rw [Bool.not_eq_true]
  have hversioned : (Json.mergeMembers m
      (Table.put "resourceVersion" (.str (toString version)) l)).1 = false := by
    refine Json.merge_settled_put hwf hml ?_
    intro want hw
    rw [hversion] at hw
    cases hw
  dsimp only
  split
  · exact hversioned
  · next huid =>
    refine Json.merge_settled_put hwf hversioned ?_
    intro want hw
    obtain ⟨x, hx⟩ := Json.merge_settled_live hwf hversioned hw
    rw [hx] at huid
    exact absurd rfl huid

/-- The operator's tag changes nothing that is desired, unless annotations are desired that contradict
it. -/
theorem settled_tag_of_agrees (hwf : r.toJson.WellFormed) (hname : r.name ≠ "")
    (h : ∀ x, r.metadata.lookup "annotations" = some x → ∃ annotations, x = .obj annotations ∧
      ∀ y, annotations.lookup createdByKey = some y → y = .str createdByValue) :
    (r.mergeInto r.tag).1 = false := by
  obtain ⟨m, hm⟩ := metadata_of_name hname
  have hmeta : r.metadata = m := Json.objectAt_of_lookup hm
  have hwfm : (Json.obj m).WellFormed := hwf.lookup hm
  refine Json.merge_settled_put hwf (Json.merge_settled_self hwf) ?_
  intro want hw
  obtain rfl : Json.obj m = want := by simpa [hm] using hw
  rw [Json.objectAt_of_lookup hm, Json.mergeMember_obj _ _ (by decide), if_neg]
  rw [Bool.not_eq_true]
  refine Json.merge_settled_put hwfm (Json.merge_settled_self hwfm) ?_
  intro want hw
  obtain ⟨a, rfl, ha⟩ := h want (by rw [hmeta, hw])
  have hwfa : (Json.obj a).WellFormed := hwfm.lookup hw
  rw [Json.objectAt_of_lookup hw, Json.mergeMember_obj _ _ (by decide), if_neg]
  rw [Bool.not_eq_true]
  refine Json.merge_settled_put hwfa (Json.merge_settled_self hwfa) ?_
  intro want hw
  obtain rfl := ha want hw
  exact Json.mergeMember_same (hwfa.lookup hw) (Json.same_refl (hwfa.lookup hw))

theorem settled_tag (hr : r.Applicable) : (r.mergeInto r.tag).1 = false := by
  obtain ⟨m, hm⟩ := metadata_of_name hr.name_ne
  have hmeta : r.metadata = m := Json.objectAt_of_lookup hm
  refine settled_tag_of_agrees hr.wellFormed hr.name_ne fun x hx => ?_
  obtain ⟨a, rfl, ha⟩ := hr.untagged x (by rw [valueAt?_metadata hm, ← hmeta, hx])
  exact ⟨a, rfl, fun y hy => by cases ha.symm.trans hy⟩

/-- What was merged holds all that is desired. -/
theorem settled_merged (hwf : r.toJson.WellFormed) (live : Resource) :
    (r.mergeInto (r.mergeInto live).2).1 = false := by
  have h : Json.mergeMembers r.members (Json.mergeMembers r.members live.members).2 =
      (false, (Json.mergeMembers r.members live.members).2) := Json.mergeMembers_merged hwf
  exact congrArg Prod.fst h

end Resource

namespace Cluster

variable {c : Cluster} {r : Resource} {key : ResourceKey}

theorem object?_store (write : Write) (x : Resource) :
    (c.store write x).object? key =
      if key = x.key then some (stamp (c.version + 1) x) else c.object? key := by
  simp [object?, store, Table.lookup_put]

theorem filed_store (hc : c.Filed) (write : Write) (x : Resource) : (c.store write x).Filed := by
  intro key live h
  rw [object?_store] at h
  split at h
  · next hkey =>
    obtain rfl : stamp (c.version + 1) x = live := by simpa using h
    rw [Resource.key_stamp, hkey]
  · exact hc key live h

theorem mem_objects {x : Resource} (h : c.object? key = some x) : (key, x) ∈ c.objects := by
  obtain ⟨front, back, heq, -⟩ := List.lookup_eq_some_iff.1 h
  rw [heq]
  exact List.mem_append_right _ List.mem_cons_self

theorem filed_of_forall (h : ∀ e ∈ c.objects, e.2.key = e.1) : c.Filed :=
  fun _ _ hlive => h _ (mem_objects hlive)

/-! ## One resource -/

/-- An applied resource is stored under its own key: tagged if it was absent, else merged into what
was there, unless that holds it already. -/
theorem applied_written (hc : c.Filed) (hr : r.Proper) :
    (c.Holds r ∧ c.applied r = c) ∨
    ∃ write x, x.key = r.key ∧ c.applied r = c.store write x ∧
      (c.object? r.key = none ∧ x = r.tag ∨
        ∃ live, c.object? r.key = some live ∧ x = (r.mergeInto live).2) := by
  unfold applied
  cases hlive : c.object? r.key with
  | none => exact .inr ⟨_, r.tag, Resource.key_tag r, rfl, .inl ⟨rfl, rfl⟩⟩
  | some live =>
    cases hflag : (r.mergeInto live).1 with
    | false => exact .inl ⟨⟨live, hlive, hflag⟩, by simp [hflag]⟩
    | true =>
      have hkey := Resource.key_mergeInto hr.ordered hr.name_ne (hc _ _ hlive)
      exact .inr ⟨_, _, hkey, by simp only [hflag]; rfl, .inr ⟨live, rfl, rfl⟩⟩

/-- However an applied resource came to be stored, there is nothing to merge into it. -/
theorem applied_cases (hc : c.Filed) (hr : r.Applicable) :
    (c.Holds r ∧ c.applied r = c) ∨
    ∃ write x, x.key = r.key ∧ (r.mergeInto x).1 = false ∧ c.applied r = c.store write x := by
  obtain hheld | ⟨write, x, hkey, heq, ⟨-, rfl⟩ | ⟨live, -, rfl⟩⟩ := applied_written hc hr.proper
  · exact .inl hheld
  · exact .inr ⟨write, _, hkey, Resource.settled_tag hr, heq⟩
  · exact .inr ⟨write, _, hkey, Resource.settled_merged hr.wellFormed live, heq⟩

theorem filed_applied (hc : c.Filed) (hr : r.Proper) : (c.applied r).Filed := by
  obtain ⟨-, heq⟩ | ⟨write, x, -, heq, -⟩ := applied_written hc hr
  · rw [heq]; exact hc
  · rw [heq]; exact filed_store hc write x

theorem holds_applied (hc : c.Filed) (hr : r.Applicable) : (c.applied r).Holds r := by
  obtain ⟨hholds, heq⟩ | ⟨write, x, hkey, hx, heq⟩ := applied_cases hc hr
  · rw [heq]; exact hholds
  · rw [heq]
    exact ⟨_, by rw [object?_store, if_pos hkey.symm], Resource.settled_stamp hr _ hx⟩

theorem object?_applied_of_ne (hc : c.Filed) (hr : r.Proper) (h : key ≠ r.key) :
    (c.applied r).object? key = c.object? key := by
  obtain ⟨-, heq⟩ | ⟨write, x, hkey, heq, -⟩ := applied_written hc hr
  · rw [heq]
  · rw [heq, object?_store, hkey, if_neg h]

/-- Whether a cluster holds a resource depends on the object of its key. -/
theorem holds_congr {c' : Cluster} (h : c'.object? r.key = c.object? r.key) :
    c'.Holds r ↔ c.Holds r := by
  rw [Holds, Holds, h]

/-! ## A release -/

theorem filed_foldl_applied {rs : List Resource} (hc : c.Filed) (hrs : ∀ r ∈ rs, r.Proper) :
    (rs.foldl applied c).Filed := by
  induction rs generalizing c with
  | nil => exact hc
  | cons r rest ih =>
    obtain ⟨hr, hrest⟩ := List.forall_mem_cons.1 hrs
    exact ih (filed_applied hc hr) hrest

/-- Resources of other keys leave an object as it is. -/
theorem object?_foldl_applied_of_proper {rs : List Resource} (hc : c.Filed)
    (hrs : ∀ r ∈ rs, r.Proper) (hkey : key ∉ rs.map Resource.key) :
    (rs.foldl applied c).object? key = c.object? key := by
  induction rs generalizing c with
  | nil => rfl
  | cons r rest ih =>
    rw [List.map_cons, List.mem_cons, not_or] at hkey
    obtain ⟨hr, hrest⟩ := List.forall_mem_cons.1 hrs
    rw [List.foldl_cons, ih (filed_applied hc hr) hrest hkey.2]
    exact object?_applied_of_ne hc hr hkey.1

/-- Objects of other keys are what they were. -/
theorem object?_foldl_applied {m : Manifest} (hc : c.Filed) (hm : ∀ r ∈ m, r.Applicable)
    (hkey : key ∉ m.map Resource.key) : (m.foldl applied c).object? key = c.object? key :=
  object?_foldl_applied_of_proper hc (fun r hr => (hm r hr).proper) hkey

/-- **After a release was applied the cluster holds all of it.** -/
theorem holds_foldl_applied : ∀ {m : Manifest} {c : Cluster}, c.Filed → m.Applicable →
    ∀ r ∈ m, (m.foldl applied c).Holds r
  | r :: rest, c, hc, hm, r', hr' => by
    obtain ⟨hkeys, heach⟩ := hm
    rw [List.map_cons, List.nodup_cons] at hkeys
    obtain ⟨hr, hrest⟩ := List.forall_mem_cons.1 heach
    have hfiled := filed_applied hc hr.proper
    rw [List.foldl_cons]
    rcases List.mem_cons.1 hr' with rfl | hr'
    · rw [holds_congr (object?_foldl_applied hfiled hrest hkeys.1)]
      exact holds_applied hc hr
    · exact holds_foldl_applied hfiled ⟨hkeys.2, hrest⟩ r' hr'

end Cluster

end ReleaseKeeper
