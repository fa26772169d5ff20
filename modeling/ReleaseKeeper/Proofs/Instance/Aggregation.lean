import ReleaseKeeper.Proofs.Instance.Conditions

/-!
# Conditions over a series of changes

Conditions are completed and marked again and again, in any order, at any time and from any list,
one with missing, foreign or duplicate conditions included. What carries over a series is one fact
for each change: the list only grows at its end (`Extends`), and after the first change that is no
mark of the summary the summary says what the dependents come to, whatever was there before
(`Coherent`). Completing leaves every condition but the summary, and does nothing the second time.

Together: `summary_follows_dependents`.
-/
namespace ReleaseKeeper.ConditionSet

/-- A change of the conditions of a set. -/
inductive Change where
  /-- Adds every missing condition as unknown. -/
  | complete
  /-- Marks a condition. -/
  | mark (type : String) (status : ConditionStatus) (reason message : String)

/-- Whether a change is a mark of a condition. -/
def Change.Marks (type : String) : Change → Prop
  | complete => False
  | mark other _ _ _ => other = type

/-- The conditions after a change. -/
def changed (set : ConditionSet) (now : Timestamp) (conditions : List Condition) :
    Change → List Condition
  | .complete => set.complete now conditions
  | .mark type status reason message => set.mark now type status reason message conditions

/-- The conditions after a series of changes, each at its time. -/
def after (set : ConditionSet) (conditions : List Condition) (changes : List (Timestamp × Change)) :
    List Condition :=
  changes.foldl (fun conditions c => set.changed c.1 conditions c.2) conditions

def types (conditions : List Condition) : List String := conditions.map (·.type)

/-- The conditions that were there are where they were, and a type is there twice only if it was. -/
structure Extends (before after : List Condition) : Prop where
  types : types before <+: types after
  nodup : (ConditionSet.types before).Nodup → (ConditionSet.types after).Nodup

variable {set : ConditionSet} {now : Timestamp} {conditions cs ds : List Condition}

/-! ## Lists that grow at their end -/

theorem Extends.refl (cs : List Condition) : Extends cs cs := ⟨List.prefix_rfl, id⟩

theorem Extends.trans {es : List Condition} (h : Extends cs ds) (h' : Extends ds es) :
    Extends cs es :=
  ⟨h.types.trans h'.types, h'.nodup ∘ h.nodup⟩

/-- Setting a condition adds its type at the end, unless it is there. -/
theorem types_upsert (type : String) (status : ConditionStatus) (reason message : String) :
    types (upsert now type status reason message cs) =
      if type ∈ types cs then types cs else types cs ++ [type] := by
  induction cs with
  | nil => simp [upsert, types]
  | cons c rest ih =>
    unfold upsert
    by_cases hc : c.type = type
    · simp [types, hc]
    · simp only [types] at ih
      simp only [types, hc, if_false, List.map_cons, ih, List.mem_cons, Ne.symm hc, false_or]
      by_cases hrest : type ∈ rest.map (·.type)
      · simp [hrest]
      · simp [hrest]

theorem extends_of_types (type : String)
    (h : types ds = if type ∈ types cs then types cs else types cs ++ [type]) : Extends cs ds := by
  by_cases hmem : type ∈ types cs
  · rw [if_pos hmem] at h
    constructor
    · exact ⟨[], by rw [h, List.append_nil]⟩
    · rw [h]
      exact id
  · rw [if_neg hmem] at h
    constructor
    · rw [h]
      exact List.prefix_append _ _
    · intro hnodup
      rw [h, List.nodup_append]
      refine ⟨hnodup, by simp, ?_⟩
      rintro a ha b hb rfl
      obtain rfl := List.mem_singleton.1 hb
      exact hmem ha

theorem extends_upsert (now : Timestamp) (type : String) (status : ConditionStatus)
    (reason message : String) (cs : List Condition) :
    Extends cs (upsert now type status reason message cs) :=
  extends_of_types type (types_upsert type status reason message)

theorem mem_types_iff {type : String} : type ∈ types cs ↔ ∃ c, condition? type cs = some c := by
  rw [← Option.isSome_iff_exists]
  simp [condition?, types]

theorem extends_ensure (now : Timestamp) (cs : List Condition) (type : String) :
    Extends cs (ensure now cs type) := by
  refine extends_of_types type ?_
  unfold ensure
  cases hc : condition? type cs with
  | none =>
    have hnot : type ∉ types cs := by simp [mem_types_iff, hc]
    rw [if_neg hnot]
    simp [types]
  | some c => rw [if_pos (mem_types_iff.2 ⟨c, hc⟩)]

theorem extends_changed (set : ConditionSet) (now : Timestamp) (cs : List Condition)
    (change : Change) : Extends cs (set.changed now cs change) := by
  have hfold : ∀ (types : List String) (cs : List Condition),
      Extends cs (types.foldl (ensure now) cs) := by
    intro types
    induction types with
    | nil => exact Extends.refl
    | cons type rest ih => exact fun cs => (extends_ensure now cs type).trans (ih _)
  cases change with
  | complete => exact (hfold _ cs).trans (extends_upsert now _ _ _ _ _)
  | mark type status reason message =>
    simp only [changed, mark]
    split
    · exact Extends.refl cs
    · exact (extends_upsert now _ _ _ _ cs).trans (extends_upsert now _ _ _ _ _)

theorem extends_after (set : ConditionSet) (changes : List (Timestamp × Change)) :
    ∀ conditions, Extends conditions (set.after conditions changes) := by
  induction changes with
  | nil => exact Extends.refl
  | cons c rest ih => exact fun cs => (extends_changed set c.1 cs c.2).trans (ih _)

/-! ## What completing leaves -/

theorem getElem?_upsert_of_ne {type : String} {c : Condition} (hne : c.type ≠ type)
    (status : ConditionStatus) (reason message : String) {i : Nat} (h : cs[i]? = some c) :
    (upsert now type status reason message cs)[i]? = some c := by
  induction cs generalizing i with
  | nil => simp at h
  | cons d rest ih =>
    unfold upsert
    cases i with
    | zero =>
      obtain rfl : d = c := by simpa using h
      simp [hne]
    | succ i =>
      have hrest : rest[i]? = some c := by simpa using h
      split
      · simpa using hrest
      · simpa using ih hrest

theorem getElem?_ensure {c : Condition} {type : String} {i : Nat} (h : cs[i]? = some c) :
    (ensure now cs type)[i]? = some c := by
  unfold ensure
  split
  · exact h
  · obtain ⟨hi, -⟩ := List.getElem?_eq_some_iff.1 h
    rw [List.getElem?_append_left hi, h]

/-- **Completing leaves every condition but the summary as it is.** -/
theorem getElem?_complete {c : Condition} (hne : c.type ≠ set.happy) {i : Nat}
    (h : cs[i]? = some c) : (set.complete now cs)[i]? = some c := by
  have hfold : ∀ (types : List String) {cs : List Condition}, cs[i]? = some c →
      (types.foldl (ensure now) cs)[i]? = some c := by
    intro types
    induction types with
    | nil => exact fun h => h
    | cons type rest ih => exact fun h => ih (getElem?_ensure h)
  exact getElem?_upsert_of_ne hne _ _ _ (hfold _ h)

/-! ## Completing twice -/

theorem ensure_of_mem {type : String} (h : type ∈ types cs) : ensure now cs type = cs := by
  obtain ⟨c, hc⟩ := mem_types_iff.1 h
  simp [ensure, hc]

theorem mem_types_ensure (now : Timestamp) (cs : List Condition) (type : String) :
    type ∈ types (ensure now cs type) := by
  unfold ensure
  cases hc : condition? type cs with
  | none => simp [types]
  | some c => exact mem_types_iff.2 ⟨c, hc⟩

theorem mem_types_complete {type : String} (h : type ∈ set.dependents) :
    type ∈ types (set.complete now cs) := by
  have hfold : ∀ {types : List String} {cs : List Condition}, type ∈ types →
      type ∈ ConditionSet.types (types.foldl (ensure now) cs) := by
    intro types
    induction types with
    | nil => simp
    | cons other rest ih =>
      intro cs hmem
      by_cases hrest : type ∈ rest
      · exact ih hrest
      · obtain rfl : type = other := by simpa [hrest] using hmem
        -- once it is there no later addition takes it away
        have hkept : ∀ (types : List String) {cs : List Condition},
            type ∈ ConditionSet.types cs → type ∈ ConditionSet.types (types.foldl (ensure now) cs) := by
          intro types
          induction types with
          | nil => exact fun h => h
          | cons other rest ih => exact fun h => ih ((extends_ensure now _ other).types.subset h)
        exact hkept rest (mem_types_ensure now cs type)
  exact (extends_upsert now _ _ _ _ _).types.subset (hfold h)

/-- **Completing what was completed changes nothing**, however much later. -/
theorem complete_complete (hset : set.happy ∉ set.dependents) (now later : Timestamp)
    (cs : List Condition) :
    set.complete later (set.complete now cs) = set.complete now cs := by
  have hfold : ∀ types : List String, (∀ type ∈ types, type ∈ ConditionSet.types (set.complete now cs)) →
      types.foldl (ensure later) (set.complete now cs) = set.complete now cs := by
    intro types
    induction types with
    | nil => exact fun _ => rfl
    | cons type rest ih =>
      intro h
      obtain ⟨htype, hrest⟩ := List.forall_mem_cons.1 h
      rw [List.foldl_cons, ensure_of_mem htype, ih hrest]
  calc set.complete later (set.complete now cs)
      = set.recompute later (set.dependents.foldl (ensure later) (set.complete now cs)) := rfl
    _ = set.recompute later (set.complete now cs) := by
        rw [hfold _ fun type htype => mem_types_complete htype]
    _ = set.complete now cs := (complete_coherent hset cs).recompute_self later

/-! ## A series of changes -/

/-- A change that is no mark of the summary makes the conditions coherent, whatever they were. -/
theorem changed_coherent (hset : set.happy ∉ set.dependents) {change : Change}
    (h : ¬ change.Marks set.happy) (now : Timestamp) (cs : List Condition) :
    set.Coherent (set.changed now cs change) := by
  cases change with
  | complete => exact complete_coherent hset cs
  | mark type status reason message => exact mark_coherent hset h status reason message cs

/-- A mark of the summary changes nothing. -/
theorem changed_of_marks {change : Change} (h : change.Marks set.happy) (now : Timestamp)
    (cs : List Condition) : set.changed now cs change = cs := by
  cases change with
  | complete => exact absurd h (by simp [Change.Marks])
  | mark type status reason message =>
    obtain rfl : type = set.happy := h
    simp [changed, mark]

/-- Coherent conditions stay so. -/
theorem Coherent.after (hset : set.happy ∉ set.dependents) {changes : List (Timestamp × Change)} :
    ∀ {conditions : List Condition}, set.Coherent conditions →
      set.Coherent (set.after conditions changes) := by
  induction changes with
  | nil => exact fun h => h
  | cons c rest ih =>
    intro conditions h
    by_cases hmarks : c.2.Marks set.happy
    · have hsame := changed_of_marks hmarks c.1 conditions
      exact ih (show set.Coherent (set.changed c.1 conditions c.2) by rwa [hsame])
    · exact ih (changed_coherent hset hmarks c.1 conditions)

theorem after_coherent (hset : set.happy ∉ set.dependents) {changes : List (Timestamp × Change)} :
    ∀ {conditions : List Condition}, (∃ c ∈ changes, ¬ c.2.Marks set.happy) →
      set.Coherent (set.after conditions changes) := by
  induction changes with
  | nil => simp
  | cons c rest ih =>
    intro conditions h
    by_cases hmarks : c.2.Marks set.happy
    · exact ih (by simpa [hmarks] using h)
    · exact (changed_coherent hset hmarks c.1 conditions).after hset

theorem after_of_marks {changes : List (Timestamp × Change)} :
    ∀ {conditions : List Condition}, (∀ c ∈ changes, c.2.Marks set.happy) →
      set.after conditions changes = conditions := by
  induction changes with
  | nil => exact fun _ => rfl
  | cons c rest ih =>
    intro conditions h
    obtain ⟨hmarks, hrest⟩ := List.forall_mem_cons.1 h
    exact (ih hrest).trans (changed_of_marks hmarks c.1 conditions)

/-- **The summary follows the dependents.** Whatever the conditions are and however they are changed:
as soon as one of the changes was no mark of the summary there is a summary, and it is false with
reason and message of the first dependent that is false, else unknown with those of the first that
is unknown or missing, else true. Marks of the summary change nothing. No condition is removed or
moved, and none comes to be there twice. Completing leaves every condition but the summary, and does
nothing where it was done. -/
theorem summary_follows_dependents (set : ConditionSet) (hset : set.happy ∉ set.dependents)
    (conditions : List Condition) (changes : List (Timestamp × Change)) :
    ((∃ c ∈ changes, ¬ c.2.Marks set.happy) →
      ∃ c, condition? set.happy (set.after conditions changes) = some c ∧
        (c.status, c.reason, c.message) =
          worst (set.dependents.map (known (set.after conditions changes)))) ∧
    ((∀ c ∈ changes, c.2.Marks set.happy) → set.after conditions changes = conditions) ∧
    (∀ now status reason message,
      set.mark now set.happy status reason message (set.after conditions changes) =
        set.after conditions changes) ∧
    types conditions <+: types (set.after conditions changes) ∧
    ((types conditions).Nodup → (types (set.after conditions changes)).Nodup) ∧
    ∀ now, (∀ (i : Nat) c, (set.after conditions changes)[i]? = some c → c.type ≠ set.happy →
        (set.complete now (set.after conditions changes))[i]? = some c) ∧
      ∀ later, set.complete later (set.complete now (set.after conditions changes)) =
        set.complete now (set.after conditions changes) := by
  have hextends := extends_after set changes conditions
  refine ⟨after_coherent hset, after_of_marks, ?_, hextends.types, hextends.nodup, ?_⟩
  · intro now status reason message
    simp [mark]
  · intro now
    refine ⟨?_, fun later => complete_complete hset now later _⟩
    intro i c h hne
    exact getElem?_complete hne h

/-- Two conditions of one type, a stale summary before them, and a mark of the summary that comes to
nothing: the first of the two counts. -/
theorem summary_follows_dependents_stale :
    let now : Timestamp := ⟨1970, 1, 1, 0, 0, 0, 0⟩
    let set : ConditionSet := ⟨"Ready", ["A", "B"]⟩
    let stale : List Condition := [
      { type := "Ready", status := .true, lastTransitionTime := now },
      { type := "A", status := .true, lastTransitionTime := now },
      { type := "A", status := .false, reason := "r", lastTransitionTime := now }]
    let changes : List (Timestamp × Change) := [
      (now, .mark "Ready" .false "x" "y"), (now, .mark "C" .true "" "")]
    set.happy ∉ set.dependents ∧ (∃ c ∈ changes, ¬ c.2.Marks set.happy) ∧
      (condition? "Ready" (set.after stale changes)).map (·.status) = some .unknown ∧
      types stale <+: types (set.after stale changes) := by
  intro now set stale changes
  have hset : set.happy ∉ set.dependents := by decide
  have hchanges : ∃ c ∈ changes, ¬ c.2.Marks set.happy := by
    refine ⟨_, List.mem_cons_of_mem _ (List.mem_cons_self), ?_⟩
    simp [Change.Marks, set]
  obtain ⟨hsummary, -, -, htypes, -⟩ := summary_follows_dependents set hset stale changes
  obtain ⟨c, hc, hview⟩ := hsummary hchanges
  refine ⟨hset, hchanges, ?_, htypes⟩
  have hworst : worst (set.dependents.map (known (set.after stale changes))) = (.unknown, "", "") := by
    decide
  rw [hworst] at hview
  rw [hc]
  exact congrArg (some ·.1) hview

end ReleaseKeeper.ConditionSet
