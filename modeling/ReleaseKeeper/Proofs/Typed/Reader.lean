import ReleaseKeeper.Proofs.Readers
import ReleaseKeeper.Typed.Reader

/-!
# Reading fields, lists and records

A field is read from the member of its name alone, so two objects that agree there are read alike.
A list that was written item by item is read item by item (`items_map`), and what holds of all that
a reader answers with holds of all items (`forall_mem_of_items`) and of the fields of a record
however it was given (`of_record`).
-/
namespace ReleaseKeeper.Typed

variable {α β : Type} {fields other : Dict Json} {name : String} {read : Reader α} {x : Json}
  {y : α}

theorem field?_eq_none (h : fields.lookup name = none) : field? fields name read = .ok none := by
  rw [field?, h]

theorem field?_eq_some (h : fields.lookup name = some x) (hread : read x = .ok y) :
    field? fields name read = .ok (some y) := by
  rw [field?, h]
  simp only [hread]
  rfl

theorem field?_congr (h : fields.lookup name = other.lookup name) :
    field? fields name read = field? other name read := by
  rw [field?, field?, h]

/-- A field that is there was read from its member. -/
theorem of_field?_eq_some (h : field? fields name read = .ok (some y)) :
    ∃ x, fields.lookup name = some x ∧ read x = .ok y := by
  rw [field?] at h
  cases hx : fields.lookup name with
  | none => rw [hx] at h; cases h
  | some x =>
    rw [hx] at h
    obtain ⟨_, hread, ⟨⟩⟩ := map_eq_ok.1 h
    exact ⟨x, rfl, hread⟩

/-- A field that is not given under its second name. -/
theorem aliased?_of_lookup_eq_none {other : String} (h : fields.lookup other = none) :
    aliased? fields other name read = field? fields name read := by
  rw [aliased?, field?_eq_none h]
  rfl

/-- A field that is given under its second name. -/
theorem aliased?_of_lookup_eq_some {other : String} (h : fields.lookup other = some x)
    (hname : fields.lookup name = none) :
    aliased? fields other name read = (read x).map some := by
  rw [aliased?, field?, h]
  cases hread : read x with
  | error e =>
    simp only [hread]
    rfl
  | ok y =>
    simp only [hread, hname]
    rfl

/-- What was read under either of two names was read from some value. -/
theorem of_aliased?_eq_some {other : String} (h : aliased? fields other name read = .ok (some y)) :
    ∃ x, read x = .ok y := by
  obtain ⟨y?, hother, h⟩ := bind_eq_ok.1 h
  cases y? with
  | none =>
    obtain ⟨x, -, hread⟩ := of_field?_eq_some h
    exact ⟨x, hread⟩
  | some z =>
    obtain ⟨x, -, hread⟩ := of_field?_eq_some hother
    dsimp only at h
    split at h
    · cases h
    · obtain rfl := Option.some.inj (Except.ok.inj h)
      exact ⟨x, hread⟩

theorem orMissing_eq_ok {y? : Option α} :
    orMissing name y? = .ok y ↔ y? = some y := by
  cases y? <;> simp [orMissing]

namespace Reader

theorem option_eq_some (hnull : x.isNull = false) (hread : read x = .ok y) :
    option read x = .ok (some y) := by
  cases x with
  | null => cases hnull
  | _ => exact map_eq_ok.2 ⟨y, hread, rfl⟩

theorem of_option_eq_some (h : option read x = .ok (some y)) : read x = .ok y := by
  cases x with
  | null => cases h
  | _ =>
    obtain ⟨_, hread, ⟨⟩⟩ := map_eq_ok.1 h
    exact hread

/-- Items that were written are read as what each of them is read as. -/
theorem items_written {write : α → Json} {f : α → β} {read : Reader β} : ∀ {ys : List α},
    (∀ y ∈ ys, read (write y) = .ok (f y)) → items read (ys.map write) = .ok (ys.map f)
  | [], _ => rfl
  | y :: ys, h => by
    obtain ⟨hy, hys⟩ := List.forall_mem_cons.1 h
    rw [List.map_cons, items, hy, items_written hys]
    rfl

theorem items_map {write : α → Json} {ys : List α} (h : ∀ y ∈ ys, read (write y) = .ok y) :
    items read (ys.map write) = .ok ys := by
  have hitems : items read (ys.map write) = .ok (ys.map id) := items_written h
  rwa [List.map_id] at hitems

theorem entries_map {write : α → Json} (hread : ∀ y, read (write y) = .ok y) :
    ∀ ys : Dict α, entries read (ys.map fun e => (e.1, write e.2)) = .ok ys
  | [] => rfl
  | (k, y) :: ys => by
    rw [List.map_cons, entries, hread, entries_map hread ys]
    rfl

theorem forall_mem_of_items {P : α → Prop} (hread : ∀ x y, read x = .ok y → P y) :
    ∀ {xs : List Json} {ys : List α}, items read xs = .ok ys → ∀ y ∈ ys, P y
  | [], _, h => by
    obtain rfl := Except.ok.inj h
    simp
  | x :: xs, _, h => by
    obtain ⟨y, hy, hrest⟩ := bind_eq_ok.1 h
    obtain ⟨ys, hys, hend⟩ := bind_eq_ok.1 hrest
    obtain rfl := Except.ok.inj hend
    exact List.forall_mem_cons.2 ⟨hread x y hy, forall_mem_of_items hread hys⟩

theorem forall_mem_of_list {P : α → Prop} (hread : ∀ x y, read x = .ok y → P y) {ys : List α}
    (h : list read x = .ok ys) : ∀ y ∈ ys, P y := by
  cases x with
  | arr xs => exact forall_mem_of_items hread h
  | _ => cases h

theorem of_intWithin {low high n : Int} {expected : String}
    (h : intWithin low high expected x = .ok n) : low ≤ n ∧ n ≤ high := by
  cases x with
  | int m =>
    rw [intWithin] at h
    split at h
    · next hbounds =>
      obtain rfl := Except.ok.inj h
      exact hbounds
    · cases h
  | _ => cases h

theorem nat32_natCast {n : Nat} (h : n ≤ 4294967295) : nat32 (.int n) = .ok n := by
  have hbounds : (0 : Int) ≤ n ∧ (n : Int) ≤ 4294967295 := by omega
  rw [nat32, intWithin, if_pos hbounds]
  rfl

theorem of_nat32 {n : Nat} (h : nat32 x = .ok n) : n ≤ 4294967295 := by
  obtain ⟨m, hm, rfl⟩ := map_eq_ok.1 h
  have hbounds := of_intWithin hm
  omega

end Reader

theorem gives_next? {P : α → Prop} (hread : ∀ x y, read x = .ok y → P y) :
    Gives (Listed.next? read) fun y? => ∀ y ∈ y?, P y := by
  refine gives_bind (gives_any get) fun l _ => ?_
  split
  · exact gives_bind (gives_any _) fun _ _ => gives_pure (by simp)
  · refine gives_bind (gives_lift (hread _)) fun y hy => ?_
    exact gives_bind (gives_any _) fun _ _ => gives_pure (by simpa using hy)

theorem gives_next {P : α → Prop} (hread : ∀ x y, read x = .ok y → P y) :
    Gives (Listed.next read) P := by
  refine gives_bind (gives_any get) fun l _ => gives_bind (gives_next? hread) fun y? hy => ?_
  cases y? with
  | none => rintro _ _ _ ⟨⟩
  | some y => exact gives_pure (hy y rfl)

theorem gives_nextOr {P : α → Prop} {absent : α} (habsent : P absent)
    (hread : ∀ x y, read x = .ok y → P y) : Gives (Listed.nextOr absent read) P := by
  refine gives_bind (gives_next? hread) fun y? hy => ?_
  cases y? with
  | none => exact gives_pure habsent
  | some y => exact gives_pure (hy y rfl)

/-- What holds of a record read by names and of one read in order holds of every record read. -/
theorem of_record {P : α → Prop} {size : Nat} {named : Dict Json → Except Fault α}
    {listed : Listed α} (hnamed : ∀ fields y, named fields = .ok y → P y) (hlisted : Gives listed P)
    (h : record name size named listed x = .ok y) : P y := by
  cases x with
  | obj fields => exact hnamed fields y h
  | arr xs =>
    obtain ⟨⟨z, l⟩, hrun, hend⟩ := bind_eq_ok.1 h
    dsimp only at hend
    split at hend
    · obtain rfl := Except.ok.inj hend
      exact hlisted _ _ _ hrun
    · cases hend
  | _ => cases h

end ReleaseKeeper.Typed
