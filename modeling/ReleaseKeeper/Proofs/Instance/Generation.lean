import ReleaseKeeper.Instance.Generation
import ReleaseKeeper.Proofs.Table

/-!
# What is seen after many requests

Requests to observe and to forget follow one another, for any instances. What is seen of an instance
afterwards is the greatest of the generations that were accepted for it since it was forgotten
(`last?_seenAfter`); as a generation is accepted only if none of these is greater, that is also the
last of them. So `observe_eq_error_iff` and `observe_ok`, which tell of one request what it is
answered and what it changes, tell of every request what it is answered after any others.
-/
namespace ReleaseKeeper.Generations

/-- A request to take notice of a generation, or to forget an instance. -/
inductive Request where
  | observe (key : String) (generation : Int)
  | forget (key : String)
deriving DecidableEq, Repr

/-- What is seen after a request; a generation that is refused leaves it as it was. -/
def after (seen : Generations) : Request → Generations
  | .observe key generation =>
    match seen.observe key generation with
    | .ok (_, seen') => seen'
    | .error _ => seen
  | .forget key => seen.forget key

/-- What is seen after requests, of which the last one comes first. -/
def seenAfter : List Request → Generations
  | [] => []
  | request :: earlier => (seenAfter earlier).after request

/-- The generations that were accepted for a key since it was forgotten, the last one first. -/
def accepted (key : String) : List Request → List Int
  | [] => []
  | .observe j generation :: earlier =>
    if j = key ∧ ((seenAfter earlier).observe j generation).toBool then
      generation :: accepted key earlier
    else accepted key earlier
  | .forget j :: earlier => if j = key then [] else accepted key earlier

variable {key : String} {generation : Int} {seen seen' : Generations}

/-! ## One request -/

/-- A generation is refused exactly if a greater one was seen last. -/
theorem observe_eq_error_iff {e : Error} : seen.observe key generation = .error e ↔
    ∃ last, seen.last? key = some last ∧ generation < last ∧
      e = .staleGeneration key generation last := by
  rw [observe]
  cases hlast : seen.last? key with
  | none => simp [compare, bind, Except.bind, pure, Except.pure]
  | some last =>
    by_cases hstale : generation < last
    · simp [compare, hstale, bind, Except.bind, eq_comm]
    · simp [compare, hstale, bind, Except.bind, pure, Except.pure]

/-- What accepting a generation records and answers. -/
theorem observe_ok {change : GenerationChange}
    (h : seen.observe key generation = .ok (change, seen')) :
    seen' = Table.put key generation seen ∧
      (∀ last, seen.last? key = some last → last ≤ generation) ∧
      (change = .resync ↔ seen.last? key = some generation) ∧
      (change = .creation ↔ seen.last? key = none ∧ generation ≤ 1) := by
  rw [observe] at h
  cases hlast : seen.last? key with
  | none =>
    simp only [hlast, compare, bind, Except.bind, pure, Except.pure, Except.ok.injEq,
      Prod.mk.injEq] at h
    obtain ⟨rfl, rfl⟩ := h
    by_cases hfirst : generation ≤ 1 <;> simp [hfirst]
  | some last =>
    by_cases hstale : generation < last
    · simp [hlast, compare, hstale, bind, Except.bind] at h
    · simp only [hlast, compare, hstale, if_false, bind, Except.bind, pure, Except.pure,
        Except.ok.injEq, Prod.mk.injEq] at h
      obtain ⟨rfl, rfl⟩ := h
      have hle : last ≤ generation := Int.not_lt.1 hstale
      by_cases hsame : generation = last <;> simp [hsame, hle, eq_comm]

/-- An accepted generation is seen, of its own instance only. -/
theorem last?_observe_ok {change : GenerationChange}
    (h : seen.observe key generation = .ok (change, seen')) (j : String) :
    seen'.last? j = if j = key then some generation else seen.last? j := by
  rw [(observe_ok h).1]
  exact Table.lookup_put key j generation seen

/-- A generation that was seen is seen again. -/
theorem observe_again {change : GenerationChange}
    (h : seen.observe key generation = .ok (change, seen')) :
    seen'.observe key generation = .ok (.resync, seen') := by
  have hlast := last?_observe_ok h key
  rw [if_pos rfl] at hlast
  obtain ⟨rfl, -⟩ := observe_ok h
  rw [observe, hlast, compare, if_neg (Int.lt_irrefl _), if_pos rfl, Table.put_put]
  rfl

theorem last?_forget (j : String) :
    (seen.forget key).last? j = if j = key then none else seen.last? j :=
  Table.lookup_drop key j seen

/-- A refused generation changes nothing. -/
theorem after_of_refused {e : Error} (h : seen.observe key generation = .error e) :
    seen.after (.observe key generation) = seen := by
  rw [after, h]

theorem after_of_accepted {change : GenerationChange}
    (h : seen.observe key generation = .ok (change, seen')) :
    seen.after (.observe key generation) = seen' := by
  rw [after, h]

/-! ## One request after another -/

theorem seenAfter_append (earlier : List Request) : ∀ later : List Request,
    seenAfter (later ++ earlier) = later.foldr (fun request seen => seen.after request)
      (seenAfter earlier)
  | [] => rfl
  | request :: later => congrArg (·.after request) (seenAfter_append earlier later)

/-- **What is seen last of an instance is the greatest generation that was accepted** since it was
forgotten. -/
theorem last?_seenAfter (key : String) :
    ∀ requests : List Request, (seenAfter requests).last? key = (accepted key requests).max?
  | [] => rfl
  | .forget j :: earlier => by
    rw [seenAfter, after, last?_forget, last?_seenAfter key earlier, accepted]
    by_cases hkey : key = j
    · simp [hkey]
    · simp [hkey, Ne.symm hkey]
  | .observe j generation :: earlier => by
    have ih := last?_seenAfter key earlier
    rw [seenAfter, accepted]
    cases hseen : (seenAfter earlier).observe j generation with
    | error e => rw [after_of_refused hseen, ih]; simp [Except.toBool]
    | ok found =>
      obtain ⟨change, seen'⟩ := found
      rw [after_of_accepted hseen, last?_observe_ok hseen]
      by_cases hkey : key = j
      · subst hkey
        -- no generation that was accepted before is greater than the one that is accepted now
        have hgreatest := (observe_ok hseen).2.1
        rw [ih] at hgreatest
        simp only [Except.toBool, and_self, if_true]
        rw [List.max?_cons]
        cases hmax : (accepted key earlier).max? with
        | none => rfl
        | some last => simp [Int.max_eq_left (hgreatest last hmax)]
      · simp [hkey, Ne.symm hkey, ih]

/-- A generation is refused exactly if a greater one was accepted since its instance was
forgotten. -/
theorem refused_iff {requests : List Request} :
    (∃ e, (seenAfter requests).observe key generation = .error e) ↔
      ∃ g ∈ accepted key requests, generation < g := by
  simp only [observe_eq_error_iff, last?_seenAfter]
  constructor
  · rintro ⟨-, last, hmax, hstale, -⟩
    exact ⟨last, List.max?_mem hmax, hstale⟩
  · rintro ⟨g, hg, hlt⟩
    cases hmax : (accepted key requests).max? with
    | none =>
      rw [List.max?_eq_none_iff.1 hmax] at hg
      cases hg
    | some last =>
      have hle := (List.max?_eq_some_iff.1 hmax).2 g hg
      exact ⟨_, last, rfl, Int.lt_of_lt_of_le hlt hle, rfl⟩

end ReleaseKeeper.Generations
