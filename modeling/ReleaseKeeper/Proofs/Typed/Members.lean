import ReleaseKeeper.Proofs.Json.Patch
import ReleaseKeeper.Proofs.Typed.Reader

/-!
# Fields of what was written member by member

An object that was written from members, those that are absent left out, is read field by field as
what the members hold. A patch of such members sets the fields that are present and keeps the others.
-/
namespace ReleaseKeeper

open Typed Typed.Reader Json

variable {x : Json} {α : Type} {members : List (String × Option Json)} {name : String}
  {read : Typed.Reader α} {write : α → Json} {y : α}

theorem field?_keptMembers_none (hn : (members.map (·.1)).Nodup)
    (h : (members.lookup name).join = none) : field? (keptMembers members) name read = .ok none :=
  field?_eq_none (by rw [lookup_keptMembers hn, h])

theorem field?_keptMembers_some (hn : (members.map (·.1)).Nodup)
    (h : (members.lookup name).join = some x) (hread : read x = .ok y) :
    field? (keptMembers members) name read = .ok (some y) :=
  field?_eq_some (by rw [lookup_keptMembers hn, h]) hread

/-- A text that is left out when it is empty. -/
theorem field?_nonemptyText {s : String} (hn : (members.map (·.1)).Nodup)
    (h : (members.lookup name).join = nonemptyText s) :
    ∃ s?, field? (keptMembers members) name text = .ok s? ∧ s?.getD "" = s := by
  rw [nonemptyText] at h
  split at h
  · next hempty => exact ⟨none, field?_keptMembers_none hn h, hempty.symm⟩
  · exact ⟨some s, field?_keptMembers_some hn h rfl, rfl⟩

/-- A list that is left out when it is empty. -/
theorem field?_nonemptyList {ys : List α} (hn : (members.map (·.1)).Nodup)
    (h : (members.lookup name).join = nonemptyList ys write)
    (hread : ∀ y ∈ ys, read (write y) = .ok y) :
    ∃ ys?, field? (keptMembers members) name (list read) = .ok ys? ∧ ys?.getD [] = ys := by
  cases ys with
  | nil => exact ⟨none, field?_keptMembers_none hn h, rfl⟩
  | cons y ys => exact ⟨some (y :: ys), field?_keptMembers_some hn h (items_map hread), rfl⟩

/-- A dictionary that is left out when it is empty. -/
theorem field?_nonemptyObject {ys : Dict α} (hn : (members.map (·.1)).Nodup)
    (h : (members.lookup name).join = nonemptyObject ys write)
    (hread : ∀ y, read (write y) = .ok y) :
    ∃ ys?, field? (keptMembers members) name (dict read) = .ok ys? ∧ ys?.getD [] = ys := by
  cases ys with
  | nil => exact ⟨none, field?_keptMembers_none hn h, rfl⟩
  | cons y ys => exact ⟨some (y :: ys), field?_keptMembers_some hn h (entries_map hread _), rfl⟩

/-- A field that may be absent. -/
theorem field?_optional {y? : Option α} (hn : (members.map (·.1)).Nodup)
    (h : (members.lookup name).join = y?.map write)
    (hread : ∀ y ∈ y?, (write y).isNull = false ∧ read (write y) = .ok y) :
    ∃ y??, field? (keptMembers members) name (option read) = .ok y?? ∧ y??.join = y? := by
  cases y? with
  | none => exact ⟨none, field?_keptMembers_none hn h, rfl⟩
  | some y =>
    obtain ⟨hnull, hy⟩ := hread y rfl
    exact ⟨some (some y), field?_keptMembers_some hn h (option_eq_some hnull hy), rfl⟩

/-- A patch keeps a field that it leaves out. -/
theorem field?_patch_none {fields : Dict Json} (hn : (members.map (·.1)).Nodup)
    (h : (members.lookup name).join = none) :
    field? (patchMembers (keptMembers members) fields) name read = field? fields name read := by
  refine field?_congr ?_
  rw [lookup_patch_present hn (by simp [h]), h, Option.none_or]

/-- A patch sets a field that it has. -/
theorem field?_patch_some {fields : Dict Json} (hn : (members.map (·.1)).Nodup)
    (h : (members.lookup name).join = some x) (hnull : x.isNull = false) (hobj : x.asObj? = none)
    (hread : read x = .ok y) :
    field? (patchMembers (keptMembers members) fields) name read = .ok (some y) := by
  refine field?_eq_some ?_ hread
  rw [lookup_patch_present hn (by simp [h, hnull, hobj]), h, Option.some_or]

/-- A patch sets an optional field, unless it leaves it out. -/
theorem field?_patch_option (write : α → Json) {fields : Dict Json} {new? : Option α}
    {old? : Option (Option α)} (hn : (members.map (·.1)).Nodup)
    (h : (members.lookup name).join = new?.map write)
    (hnew : ∀ y ∈ new?, (write y).isNull = false ∧ (write y).asObj? = none ∧
      read (write y) = .ok y)
    (hold : field? fields name (option read) = .ok old?) :
    ∃ y?, field? (patchMembers (keptMembers members) fields) name (option read) = .ok y? ∧
      new?.or old?.join = y?.join := by
  cases new? with
  | none => exact ⟨old?, (field?_patch_none hn h).trans hold, rfl⟩
  | some y =>
    obtain ⟨hnull, hobj, hread⟩ := hnew y rfl
    exact ⟨some (some y), field?_patch_some hn h hnull hobj (option_eq_some hnull hread), rfl⟩

end ReleaseKeeper
