import ReleaseKeeper.Json.Basic

/-!
# Equality of values, member by member and path by path

`Json.same` tells whether two values are the same JSON. On well-formed values it is reflexive, it is
symmetric on all of them, and equal values have equal values at the end of every path (`same_at?`).
`objInduction` is the induction over values that the merge follows: objects by their members,
everything else, lists included, as a whole. A value without floating point numbers is the same as
itself alone (`Exact`).
-/
namespace ReleaseKeeper

namespace Table

theorem keys_nodup {α : Type} {entries : Dict α} (h : Sorted entries) :
    (entries.map (·.1)).Nodup := by
  rw [List.Nodup, List.pairwise_map]
  refine List.Pairwise.imp ?_ h
  intro a b hab heq
  have hlt : a.1 < b.1 := by simpa [KeyOrder.before] using hab
  rw [heq] at hlt
  exact String.lt_irrefl b.1 hlt

theorem mem_of_lookup {α : Type} {entries : Dict α} {key : String} {x : α}
    (h : entries.lookup key = some x) : (key, x) ∈ entries := by
  obtain ⟨before, after, rfl, -⟩ := List.lookup_eq_some_iff.1 h
  simp

theorem lookup_eq_none {α : Type} {entries : Dict α} {key : String}
    (h : key ∉ entries.map (·.1)) : entries.lookup key = none := by
  rw [List.lookup_eq_none_iff]
  intro e he
  rw [bne_iff_ne]
  intro heq
  exact h (heq ▸ List.mem_map_of_mem he)

end Table

namespace Binary64

theorem same_refl {x : Binary64} (h : x.isFinite = true) : x.same x = true := by
  have hn : x.isNaN = false := by
    simp only [isFinite, bne_iff_ne] at h
    simp [isNaN, h]
  simp [same, hn]

theorem same_comm (x y : Binary64) : x.same y = y.same x := by
  simp only [same, Bool.or_comm x.isNaN, Bool.and_comm x.isZero, eq_comm]

end Binary64

namespace Json

/-! ## Induction over values -/

mutual

/-- A property of everything that is no object, which an object has if its members have it, holds of
every value. -/
theorem objInduction {P : Json → Prop} (other : ∀ x : Json, x.asObj? = none → P x)
    (obj : ∀ members : Dict Json, (∀ e ∈ members, P e.2) → P (.obj members)) : ∀ x : Json, P x
  | .null => other _ rfl
  | .bool _ => other _ rfl
  | .int _ => other _ rfl
  | .float _ => other _ rfl
  | .str _ => other _ rfl
  | .arr _ => other _ rfl
  | .obj members => obj members (memberInduction other obj members)

theorem memberInduction {P : Json → Prop} (other : ∀ x : Json, x.asObj? = none → P x)
    (obj : ∀ members : Dict Json, (∀ e ∈ members, P e.2) → P (.obj members)) :
    ∀ members : List (String × Json), ∀ e ∈ members, P e.2
  | [], e, he => by simp at he
  | (_, x) :: rest, e, he => by
    rcases List.mem_cons.1 he with rfl | h
    · exact objInduction other obj x
    · exact memberInduction other obj rest e h

end

/-! ## Well-formed members -/

theorem WellFormedMembers.of_mem : ∀ {members : List (String × Json)}, WellFormedMembers members →
    ∀ {e : String × Json}, e ∈ members → e.2.WellFormed
  | (_, _) :: _, h, e, he => by
    simp only [WellFormedMembers] at h
    rcases List.mem_cons.1 he with rfl | he
    · exact h.1
    · exact WellFormedMembers.of_mem h.2 he

theorem WellFormed.keys_nodup {members : Dict Json} (h : (Json.obj members).WellFormed) :
    (members.map (·.1)).Nodup := by
  simp only [WellFormed] at h
  exact Table.keys_nodup h.1

theorem WellFormed.lookup {members : Dict Json} (h : (Json.obj members).WellFormed) {key : String}
    {x : Json} (hx : members.lookup key = some x) : x.WellFormed := by
  simp only [WellFormed] at h
  exact h.2.of_mem (Table.mem_of_lookup hx)

/-! ## Reflexivity and symmetry -/

mutual

theorem same_refl : ∀ {x : Json}, x.WellFormed → x.same x = true
  | .null, _ => rfl
  | .bool _, _ => by simp [same]
  | .int _, _ => by simp [same]
  | .float _, h => by
    simp only [WellFormed] at h
    rw [same]
    exact Binary64.same_refl h
  | .str _, _ => by simp [same]
  | .arr items, h => by
    simp only [WellFormed] at h
    rw [same]
    exact sameItems_refl h
  | .obj members, h => by
    simp only [WellFormed] at h
    rw [same]
    exact sameMembers_refl h.2

theorem sameItems_refl : ∀ {items : List Json}, WellFormedItems items → sameItems items items = true
  | [], _ => rfl
  | x :: xs, h => by
    simp only [WellFormedItems] at h
    rw [sameItems, same_refl h.1, sameItems_refl h.2, Bool.and_self]

theorem sameMembers_refl : ∀ {members : List (String × Json)}, WellFormedMembers members →
    sameMembers members members = true
  | [], _ => rfl
  | (k, x) :: xs, h => by
    simp only [WellFormedMembers] at h
    simp [sameMembers, same_refl h.1, sameMembers_refl h.2]

end

mutual

theorem same_comm : ∀ x y : Json, x.same y = y.same x
  | .null, y => by cases y <;> rfl
  | .bool a, y => by cases y <;> simp [same, Bool.beq_comm]
  | .int a, y => by cases y <;> simp [same, Bool.beq_comm]
  | .float a, y => by cases y <;> simp [same, Binary64.same_comm]
  | .str a, y => by cases y <;> simp [same, Bool.beq_comm]
  | .arr a, y => by
    cases y with
    | arr b => exact sameItems_comm a b
    | _ => rfl
  | .obj a, y => by
    cases y with
    | obj b => exact sameMembers_comm a b
    | _ => rfl

theorem sameItems_comm : ∀ a b : List Json, sameItems a b = sameItems b a
  | [], [] => rfl
  | [], _ :: _ => rfl
  | _ :: _, [] => rfl
  | x :: xs, y :: ys => by rw [sameItems, sameItems, same_comm x y, sameItems_comm xs ys]

theorem sameMembers_comm : ∀ a b : List (String × Json), sameMembers a b = sameMembers b a
  | [], [] => rfl
  | [], _ :: _ => rfl
  | _ :: _, [] => rfl
  | (j, x) :: xs, (k, y) :: ys => by
    rw [sameMembers, sameMembers, same_comm x y, sameMembers_comm xs ys, Bool.beq_comm]

end

/-! ## Values at the end of a path -/

/-- The value at the end of a path of keys. -/
def at? : List String → Json → Option Json
  | [], x => some x
  | key :: path, x => (x.get? key).bind (at? path)

@[simp] theorem at?_nil (x : Json) : x.at? [] = some x := rfl

@[simp] theorem at?_obj (members : Dict Json) (key : String) (path : List String) :
    (Json.obj members).at? (key :: path) = (members.lookup key).bind (at? path) := rfl

/-- Two values, or none on either side. -/
abbrev SameOption : Option Json → Option Json → Prop := Option.Rel fun x y => x.same y = true

theorem same_lookup : ∀ {a b : List (String × Json)}, sameMembers a b = true → ∀ key : String,
    SameOption (a.lookup key) (b.lookup key)
  | [], [], _, _ => .none
  | (j, x) :: xs, (k, y) :: ys, h, key => by
    simp only [sameMembers, Bool.and_eq_true, beq_iff_eq] at h
    obtain ⟨⟨rfl, hxy⟩, hrest⟩ := h
    rw [List.lookup_cons, List.lookup_cons]
    cases key == j with
    | true => exact .some hxy
    | false => exact same_lookup hrest key

theorem eq_obj_of_asObj? {x : Json} {members : Dict Json} (h : x.asObj? = some members) :
    x = .obj members := by
  cases x <;> cases h
  rfl

/-- A value that is the same as an object is an object. -/
theorem same_obj {x : Json} {members : Dict Json} (h : x.same (.obj members) = true) :
    ∃ live, x = .obj live ∧ sameMembers live members = true := by
  cases x with
  | obj live => exact ⟨live, rfl, h⟩
  | _ => simp [same] at h

theorem same_at? (path : List String) {x y : Json} (h : x.same y = true) :
    SameOption (x.at? path) (y.at? path) := by
  induction path generalizing x y with
  | nil => exact .some h
  | cons key path ih =>
    cases hy : y.asObj? with
    | none =>
      have hx : x.asObj? = none := by cases x <;> cases y <;> simp_all [asObj?, same]
      simp only [at?, get?, hx, hy, Option.bind_none]
      exact .none
    | some b =>
      obtain rfl := eq_obj_of_asObj? hy
      obtain ⟨a, rfl, hab⟩ := same_obj h
      rw [at?_obj, at?_obj]
      have hkey := same_lookup hab key
      revert hkey
      generalize a.lookup key = u, b.lookup key = v
      rintro (huv | _)
      · exact ih huv
      · exact .none

/-! ## Values that are the same as themselves alone -/

/-- Only the value itself is the same as it. -/
def Exact (y : Json) : Prop := ∀ x : Json, x.same y = true → x = y

theorem exact_str (s : String) : (str s).Exact := by
  intro x h
  cases x <;> simp_all [same]

theorem beq_some_str (x? : Option Json) (s : String) :
    (x? == some (.str s)) = decide (x?.bind asStr? = some s) := by
  rw [Bool.eq_iff_iff, decide_eq_true_iff]
  cases x? with
  | none => exact ⟨nofun, nofun⟩
  | some x =>
    change x.same (.str s) = true ↔ x.asStr? = some s
    cases x <;> simp [same, asStr?]

theorem exact_int (n : Int) : (int n).Exact := by
  intro x h
  cases x <;> simp_all [same]

theorem eq_of_sameItems : ∀ {xs ys : List Json}, (∀ y ∈ ys, y.Exact) → sameItems xs ys = true →
    xs = ys
  | [], [], _, _ => rfl
  | [], _ :: _, _, h => by cases h
  | _ :: _, [], _, h => by cases h
  | x :: xs, y :: ys, hys, h => by
    obtain ⟨hy, hys⟩ := List.forall_mem_cons.1 hys
    rw [sameItems, Bool.and_eq_true] at h
    rw [hy x h.1, eq_of_sameItems hys h.2]

theorem eq_of_sameMembers : ∀ {xs ys : List (String × Json)}, (∀ e ∈ ys, e.2.Exact) →
    sameMembers xs ys = true → xs = ys
  | [], [], _, _ => rfl
  | [], _ :: _, _, h => by cases h
  | _ :: _, [], _, h => by cases h
  | (j, x) :: xs, (k, y) :: ys, hys, h => by
    simp only [sameMembers, Bool.and_eq_true, beq_iff_eq] at h
    obtain ⟨⟨rfl, hxy⟩, hrest⟩ := h
    obtain ⟨hy, hys⟩ := List.forall_mem_cons.1 hys
    rw [hy x hxy, eq_of_sameMembers hys hrest]

theorem exact_arr {items : List Json} (h : ∀ y ∈ items, y.Exact) : (arr items).Exact := by
  intro x hx
  cases x with
  | arr live => exact congrArg arr (eq_of_sameItems h hx)
  | _ => cases hx

theorem exact_obj {members : List (String × Json)} (h : ∀ e ∈ members, e.2.Exact) :
    (obj members).Exact := by
  intro x hx
  obtain ⟨live, rfl, hsame⟩ := same_obj hx
  exact congrArg obj (eq_of_sameMembers h hsame)

theorem exact_present {members : List (String × Option Json)}
    (h : ∀ e ∈ members, ∀ x ∈ e.2, x.Exact) : (present members).Exact := by
  refine exact_obj fun e he => ?_
  obtain ⟨⟨k, x?⟩, hmem, hx⟩ := List.mem_filterMap.1 he
  obtain ⟨x, hsome, rfl⟩ := Option.map_eq_some_iff.1 hx
  exact h _ hmem x hsome

theorem exact_nonemptyText (s : String) : ∀ x ∈ nonemptyText s, x.Exact := by
  intro x hx
  rw [nonemptyText] at hx
  split at hx
  · cases hx
  · obtain rfl := Option.some.inj hx
    exact exact_str s

theorem exact_ofTexts (texts : Dict String) : (ofTexts texts).Exact := by
  refine exact_obj fun e he => ?_
  obtain ⟨entry, -, rfl⟩ := List.mem_map.1 he
  exact exact_str entry.2

end Json

end ReleaseKeeper
