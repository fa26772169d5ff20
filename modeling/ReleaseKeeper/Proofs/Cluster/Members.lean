import ReleaseKeeper.Proofs.Cluster.Applied

/-!
# What applying a resource makes of the members of an object

Tag and stamp go into the metadata, so every other member of an applied resource is what the merge
makes of it, where an object that was absent counts as one without members (`lookup_applied`).
-/
namespace ReleaseKeeper

namespace Resource

theorem foldlM_get? (path : List String) (x : Json) :
    path.foldlM (fun x key => x.get? key) x = x.at? path := by
  induction path generalizing x with
  | nil => rfl
  | cons key path ih =>
    rw [List.foldlM_cons, Json.at?]
    cases x.get? key with
    | none => rfl
    | some y => exact ih y

theorem valueAt?_cons (r : Resource) (key : String) (path : List String) :
    r.valueAt? (key :: path) = (r.members.lookup key).bind (Json.at? path) := by
  rw [valueAt?, foldlM_get?, Json.at?_obj]

theorem valueAt?_singleton (r : Resource) (key : String) :
    r.valueAt? [key] = r.members.lookup key := by
  rw [valueAt?_cons]
  cases r.members.lookup key <;> rfl

theorem lookup_stamp (version : Nat) (r : Resource) {key : String} (h : key ≠ "metadata") :
    (Cluster.stamp version r).members.lookup key = r.members.lookup key :=
  lookup_within_metadata _ r h

theorem lookup_tag (r : Resource) {key : String} (h : key ≠ "metadata") :
    r.tag.members.lookup key = r.members.lookup key :=
  lookup_within_metadata _ r h

end Resource

namespace Cluster

variable {c : Cluster} {r : Resource} {key : String}

def member? (c : Cluster) (id : ResourceKey) (key : String) : Option Json :=
  (c.object? id).bind (·.members.lookup key)

/-- **Every member of an applied resource but the metadata is what the merge makes of it.** -/
theorem lookup_applied (hc : c.Filed) (hr : r.Proper) : ∃ live,
    (c.applied r).object? r.key = some live ∧ ∀ key, key ≠ "metadata" →
      live.members.lookup key =
        Json.memberAfter key (r.members.lookup key) (c.member? r.key key) := by
  have hmerged : ∀ (live : Resource) (key : String), (r.mergeInto live).2.members.lookup key =
      Json.memberAfter key (r.members.lookup key) (live.members.lookup key) := fun live _ =>
    Json.lookup_merged (Table.keys_nodup hr.ordered.members) live.members
  obtain ⟨⟨live, hlive, hflag⟩, heq⟩ | ⟨write, x, hkey, heq, hx⟩ := applied_written hc hr
  · rw [heq]
    refine ⟨live, hlive, fun key _ => ?_⟩
    rw [member?, hlive, Option.bind_some, ← hmerged, Resource.mergeInto_of_unchanged hflag]
  · rw [heq, object?_store, if_pos hkey.symm]
    refine ⟨_, rfl, fun key hmeta => ?_⟩
    rw [Resource.lookup_stamp _ _ hmeta, member?]
    obtain ⟨habsent, rfl⟩ | ⟨live, hlive, rfl⟩ := hx
    · rw [habsent, Option.bind_none, Json.memberAfter_absent, Resource.lookup_tag _ hmeta]
    · rw [hlive, Option.bind_some, hmerged]

end Cluster

end ReleaseKeeper
