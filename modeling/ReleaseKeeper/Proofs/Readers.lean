import Mathlib.Data.List.Forall2

/-!
# Readers and their answers

A reader takes from a state and answers, or fails. What it does on one state is told by an equation
on its run, and such equations chain (`run_bind`); what holds of all its answers, whatever it takes
from, is told by `Gives`, which goes through a reader step by step (`gives_bind`).

Readings of several things one after another give one answer for each (`mapM_eq_ok_iff`), or fail as
the first of them that fails (`mapM_eq_error_iff`).
-/
namespace ReleaseKeeper

variable {σ ε α β : Type}

/-- What was computed in two steps was computed in each. -/
theorem bind_eq_ok {x : Except ε α} {f : α → Except ε β} {b : β} :
    (x >>= f) = .ok b ↔ ∃ a, x = .ok a ∧ f a = .ok b := by
  cases x <;> simp [bind, Except.bind]

/-- What failed in two steps failed in the first one, or in the second one after it. -/
theorem bind_eq_error {x : Except ε α} {f : α → Except ε β} {e : ε} :
    (x >>= f) = .error e ↔ x = .error e ∨ ∃ a, x = .ok a ∧ f a = .error e := by
  cases x <;> simp [bind, Except.bind]

theorem map_eq_ok {x : Except ε α} {f : α → β} {b : β} :
    x.map f = .ok b ↔ ∃ a, x = .ok a ∧ f a = b := by
  cases x <;> simp [Except.map]

theorem map_eq_error {x : Except ε α} {f : α → β} {e : ε} : x.map f = .error e ↔ x = .error e := by
  cases x <;> simp [Except.map]

theorem mapError_eq_ok {ε' : Type} {x : Except ε α} {f : ε → ε'} {a : α} :
    x.mapError f = .ok a ↔ x = .ok a := by
  cases x with
  | error e => exact ⟨fun h => (by cases h), fun h => (by cases h)⟩
  | ok y => exact ⟨fun h => congrArg _ (Except.ok.inj h), fun h => congrArg _ (Except.ok.inj h)⟩

theorem mapError_eq_error {ε' : Type} {x : Except ε α} {f : ε → ε'} {e : ε'} :
    x.mapError f = .error e ↔ ∃ e', x = .error e' ∧ f e' = e := by
  cases x with
  | error e' =>
    constructor
    · exact fun h => ⟨e', rfl, Except.error.inj h⟩
    · rintro ⟨e', ⟨⟩, rfl⟩
      rfl
  | ok y =>
    constructor
    · rintro ⟨⟩
    · rintro ⟨_, ⟨⟩, -⟩

/-! ## Results one after another -/

section

variable {γ : Type} {f : α → Except ε β}

theorem exists_mem_of_forall₂ {R : α → β → Prop} {xs : List α} {ys : List β}
    (h : List.Forall₂ R xs ys) {x : α} (hx : x ∈ xs) : ∃ y ∈ ys, R x y := by
  obtain ⟨i, hi, rfl⟩ := List.getElem_of_mem hx
  exact ⟨_, List.getElem_mem (h.length_eq ▸ hi), h.get hi _⟩

/-- What goes item by item in two steps goes item by item at once. -/
theorem exists_forall₂_iff {R : α → β → Prop} {S : β → γ → Prop} :
    ∀ {xs : List α} {zs : List γ}, (∃ ys, List.Forall₂ R xs ys ∧ List.Forall₂ S ys zs) ↔
      List.Forall₂ (fun x z => ∃ y, R x y ∧ S y z) xs zs
  | [], zs => by simp
  | x :: xs, zs => by
    rw [List.forall₂_cons_left_iff]
    constructor
    · rintro ⟨_, hxs, hzs⟩
      obtain ⟨y, ys, hy, hys, rfl⟩ := List.forall₂_cons_left_iff.1 hxs
      obtain ⟨z, rest, hz, hrest, rfl⟩ := List.forall₂_cons_left_iff.1 hzs
      exact ⟨z, rest, ⟨y, hy, hz⟩, exists_forall₂_iff.1 ⟨ys, hys, hrest⟩, rfl⟩
    · rintro ⟨z, zs, ⟨y, hy, hz⟩, hzs, rfl⟩
      obtain ⟨ys, hys, hzs⟩ := exists_forall₂_iff.2 hzs
      exact ⟨y :: ys, .cons hy hys, .cons hz hzs⟩

theorem mapM_eq_ok_iff : ∀ {xs : List α} {ys : List β},
    xs.mapM f = .ok ys ↔ List.Forall₂ (fun x y => f x = .ok y) xs ys
  | [], ys => by
    rw [List.mapM_nil, List.forall₂_nil_left_iff]
    exact ⟨fun h => (Except.ok.inj h).symm, fun h => congrArg _ h.symm⟩
  | x :: xs, ys => by
    rw [List.mapM_cons, List.forall₂_cons_left_iff]
    simp only [bind_eq_ok, mapM_eq_ok_iff]
    constructor
    · rintro ⟨y, hy, rest, hrest, hend⟩
      exact ⟨y, rest, hy, hrest, (Except.ok.inj hend).symm⟩
    · rintro ⟨y, rest, hy, hrest, rfl⟩
      exact ⟨y, hy, rest, hrest, rfl⟩

/-- A place in a list that all places before it lead to is the first one, or is one of the others. -/
theorem exists_place_cons {P Q : α → Prop} {x : α} {xs : List α} :
    (∃ before y after, x :: xs = before ++ y :: after ∧ (∀ z ∈ before, P z) ∧ Q y) ↔
      Q x ∨ P x ∧ ∃ before y after, xs = before ++ y :: after ∧ (∀ z ∈ before, P z) ∧ Q y := by
  constructor
  · rintro ⟨before, y, after, hxs, hbefore, hy⟩
    cases before with
    | nil =>
      obtain ⟨rfl, -⟩ := List.cons.inj hxs
      exact .inl hy
    | cons z before =>
      obtain ⟨rfl, rfl⟩ := List.cons.inj hxs
      obtain ⟨hx, hbefore⟩ := List.forall_mem_cons.1 hbefore
      exact .inr ⟨hx, before, y, after, rfl, hbefore, hy⟩
  · rintro (hx | ⟨hx, before, y, after, rfl, hbefore, hy⟩)
    · exact ⟨[], x, xs, rfl, by simp, hx⟩
    · exact ⟨x :: before, y, after, rfl, List.forall_mem_cons.2 ⟨hx, hbefore⟩, hy⟩

/-- What fails is the first one that does. -/
theorem mapM_eq_error_iff {e : ε} : ∀ {xs : List α}, xs.mapM f = .error e ↔
    ∃ before x after, xs = before ++ x :: after ∧ (∀ y ∈ before, ∃ z, f y = .ok z) ∧ f x = .error e
  | [] => by
    constructor
    · rintro ⟨⟩
    · rintro ⟨before, x, after, hxs, -⟩
      cases before <;> cases hxs
  | x :: xs => by
    rw [List.mapM_cons, exists_place_cons, ← mapM_eq_error_iff, bind_eq_error]
    refine or_congr .rfl ?_
    constructor
    · rintro ⟨y, hy, h⟩
      obtain hrest | ⟨_, -, ⟨⟩⟩ := bind_eq_error.1 h
      exact ⟨⟨y, hy⟩, hrest⟩
    · rintro ⟨⟨y, hy⟩, hrest⟩
      exact ⟨y, hy, bind_eq_error.2 (.inl hrest)⟩

end

/-! ## What a reader gives -/

/-- Whatever a reader takes from, its answer has a property. -/
def Gives (r : StateT σ (Except ε) α) (P : α → Prop) : Prop :=
  ∀ s x s', r.run s = .ok (x, s') → P x

variable {r : StateT σ (Except ε) α} {f : α → StateT σ (Except ε) β} {s s' : σ} {x : α}
  {P : α → Prop} {Q : β → Prop}

theorem run_bind (h : r.run s = .ok (x, s')) : (r >>= f).run s = (f x).run s' := by
  rw [StateT.run_bind, h]
  rfl

theorem gives_any (r : StateT σ (Except ε) α) : Gives r fun _ => True := fun _ _ _ _ => trivial

theorem gives_pure (h : P x) : Gives (pure x : StateT σ (Except ε) α) P := by
  intro s y s' hrun
  obtain ⟨rfl, -⟩ := Prod.mk.inj (Except.ok.inj hrun)
  exact h

theorem gives_bind (hr : Gives r P) (hf : ∀ x, P x → Gives (f x) Q) : Gives (r >>= f) Q := by
  intro s y s' h
  rw [StateT.run_bind] at h
  obtain ⟨⟨x, s₁⟩, hrun, hnext⟩ := bind_eq_ok.1 h
  exact hf x (hr _ _ _ hrun) _ _ _ hnext

/-- What is computed without the state answers with what is computed. -/
theorem gives_lift {e : Except ε α} (h : ∀ x, e = .ok x → P x) :
    Gives (liftM e : StateT σ (Except ε) α) P := by
  intro s y s' hrun
  obtain ⟨x, rfl, hend⟩ := bind_eq_ok.1 hrun
  obtain ⟨rfl, -⟩ := Prod.mk.inj (Except.ok.inj hend)
  exact h _ rfl

end ReleaseKeeper
