import ReleaseKeeper.Json.Patch
import ReleaseKeeper.Proofs.Json.Equality

/-!
# What a patch leaves

Each member of a patched object is decided by the members of its key alone (`lookup_patchMembers`).
A patch with members that are neither null nor objects sets those and keeps all others
(`lookup_patch_present`).
-/
namespace ReleaseKeeper.Json

/-- A change that is no object takes the place of what was there. -/
theorem patch_of_asObj?_eq_none {change : Json} (target : Json) (h : change.asObj? = none) :
    patch change target = change := by
  cases change with
  | obj changes => cases h
  | _ => rfl

theorem lookup_patchMembers {key : String} : ∀ {changes target : Dict Json},
    (changes.map (·.1)).Nodup →
    (patchMembers changes target).lookup key =
      match changes.lookup key with
      | none => target.lookup key
      | some change =>
        if change.isNull then none else some (patch change ((target.lookup key).getD .null))
  | [], _, _ => rfl
  | (k, change) :: rest, target, hn => by
    rw [List.map_cons, List.nodup_cons] at hn
    obtain ⟨hk, hn⟩ := hn
    rw [patchMembers, List.lookup_cons]
    by_cases hkey : key = k
    · subst hkey
      have hrest : rest.lookup key = none := Table.lookup_eq_none hk
      simp only [BEq.rfl]
      split
      · rw [lookup_patchMembers hn, hrest]
        simp [Table.lookup_drop]
      · rw [lookup_patchMembers hn, hrest]
        simp [Table.lookup_put]
    · simp only [beq_false_of_ne hkey]
      split
      · rw [lookup_patchMembers hn]
        simp [Table.lookup_drop, hkey]
      · rw [lookup_patchMembers hn]
        simp [Table.lookup_put, hkey]

/-! ## Objects of the members that are present -/

variable {members : List (String × Option Json)}

/-- The members that `present` keeps. -/
def keptMembers (members : List (String × Option Json)) : Dict Json :=
  members.filterMap fun (k, x?) => x?.map (k, ·)

theorem keys_keptMembers : ∀ members : List (String × Option Json),
    ((keptMembers members).map (·.1)).Sublist (members.map (·.1))
  | [] => .slnil
  | (_, none) :: rest => (keys_keptMembers rest).cons _
  | (_, some _) :: rest => (keys_keptMembers rest).cons_cons _

theorem lookup_keptMembers {key : String} : ∀ {members : List (String × Option Json)},
    (members.map (·.1)).Nodup → (keptMembers members).lookup key = (members.lookup key).join
  | [], _ => rfl
  | (k, x?) :: rest, hn => by
    rw [List.map_cons, List.nodup_cons] at hn
    obtain ⟨hk, hn⟩ := hn
    have hkept : keptMembers ((k, x?) :: rest) = (x?.map (k, ·)).toList ++ keptMembers rest := by
      cases x? <;> rfl
    rw [hkept, List.lookup_append, List.lookup_cons, lookup_keptMembers hn]
    by_cases hkey : key = k
    · subst hkey
      rw [Table.lookup_eq_none hk]
      cases x? <;> simp
    · cases x? <;> simp [List.lookup_cons, beq_false_of_ne hkey]

/-- What is present is set, and what is absent stays. -/
theorem lookup_patch_present {key : String} {target : Dict Json}
    (hn : (members.map (·.1)).Nodup)
    (hleaf : ∀ x, (members.lookup key).join = some x → x.isNull = false ∧ x.asObj? = none) :
    (patchMembers (keptMembers members) target).lookup key =
      (members.lookup key).join.or (target.lookup key) := by
  rw [lookup_patchMembers (hn.sublist (keys_keptMembers members)), lookup_keptMembers hn]
  cases hx : (members.lookup key).join with
  | none => rfl
  | some x =>
    obtain ⟨hnull, hleaf⟩ := hleaf x hx
    simp [hnull, patch_of_asObj?_eq_none _ hleaf]

end ReleaseKeeper.Json
