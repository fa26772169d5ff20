import Mathlib.Data.List.Induction
import ReleaseKeeper.Proofs.Instance.Aggregation

/-!
# When conditions change

The time of a condition says since when it has its status. A change of the conditions keeps the time
of every condition that keeps its status, and gives its own time to those that it adds or whose
status it changes (`Restamped`). A change sets up to two conditions, one after the other, but none
of them twice: what is marked is not the summary, and what is completed was not there. So along any
series the time of a condition is that of the last change that changed its status or added it
(`times_follow_statuses`).
-/
namespace ReleaseKeeper.ConditionSet

/-- The condition of a type before and after a change at a time. -/
inductive Restamped (now : Timestamp) : Option Condition → Option Condition → Prop
  | absent : Restamped now none none
  | added {c : Condition} (time : c.lastTransitionTime = now) : Restamped now none (some c)
  | kept {c c' : Condition} (status : c'.status = c.status)
    (time : c'.lastTransitionTime = c.lastTransitionTime) : Restamped now (some c) (some c')
  | moved {c c' : Condition} (status : c'.status ≠ c.status) (time : c'.lastTransitionTime = now) :
    Restamped now (some c) (some c')

/-- The type is marked, or it is a dependent that is missing and is completed. -/
def Change.Concerns (set : ConditionSet) (conditions : List Condition) (type : String) :
    Change → Prop
  | complete => type ∈ set.dependents ∧ condition? type conditions = none
  | mark other _ _ _ => type = other

/-- A change at a time stamps what it changes, and changes only what it concerns and the summary. -/
structure Stamps (set : ConditionSet) (now : Timestamp) (change : Change)
    (before after : List Condition) : Prop where
  times : ∀ type, Restamped now (condition? type before) (condition? type after)
  others : ∀ type, type ≠ set.happy → ¬ change.Concerns set before type →
    condition? type after = condition? type before

/-- The status of a condition after a series of changes, if it is there. -/
def statusAfter (set : ConditionSet) (conditions : List Condition)
    (changes : List (Timestamp × Change)) (type : String) : Option ConditionStatus :=
  (condition? type (set.after conditions changes)).map (·.status)

/-- The last change of a series that changed the status of a condition, or added it, was at a time. -/
def LastMoved (set : ConditionSet) (conditions : List Condition)
    (changes : List (Timestamp × Change)) (type : String) (time : Timestamp) : Prop :=
  ∃ earlier change later, changes = earlier ++ (time, change) :: later ∧
    set.statusAfter conditions (earlier ++ [(time, change)]) type ≠
      set.statusAfter conditions earlier type ∧
    ∀ front, front <+: later →
      set.statusAfter conditions (earlier ++ (time, change) :: front) type =
        set.statusAfter conditions (earlier ++ [(time, change)]) type

/-- No change of a series changed the status of a condition, or added it. -/
def NeverMoved (set : ConditionSet) (conditions : List Condition)
    (changes : List (Timestamp × Change)) (type : String) : Prop :=
  ∀ front, front <+: changes →
    set.statusAfter conditions front type = set.statusAfter conditions [] type

variable {set : ConditionSet} {now : Timestamp} {conditions : List Condition}

/-! ## One condition -/

theorem Restamped.refl (now : Timestamp) : ∀ c? : Option Condition, Restamped now c? c?
  | none => .absent
  | some _ => .kept rfl rfl

/-- What was added has the time of the change, whatever the change does to it then. -/
theorem Restamped.of_added {c? c'? : Option Condition} (h : Restamped now none c?)
    (h' : Restamped now c? c'?) : Restamped now none c'? := by
  cases h with
  | absent => exact h'
  | added time =>
    cases h' with
    | kept _ time' => exact .added (time'.trans time)
    | moved _ time' => exact .added time'

/-- What is there behind a change has its time if the status is another one than before. -/
theorem Restamped.of_some {c? : Option Condition} {c' : Condition} (h : Restamped now c? (some c')) :
    (c?.map (·.status) ≠ some c'.status ∧ c'.lastTransitionTime = now) ∨
      ∃ c, c? = some c ∧ c'.status = c.status ∧ c'.lastTransitionTime = c.lastTransitionTime := by
  cases h with
  | added time => exact .inl ⟨by simp, time⟩
  | kept status time => exact .inr ⟨_, rfl, status, time⟩
  | moved status time => exact .inl ⟨fun h => status (Option.some.inj h).symm, time⟩

/-- A condition that is set has the time of the change, unless it has that status already. -/
theorem restamped_upsert (now : Timestamp) (type : String) (status : ConditionStatus)
    (reason message : String) : ∀ conditions, Restamped now (condition? type conditions)
      (condition? type (upsert now type status reason message conditions))
  | [] => by
    obtain ⟨c, hc, -⟩ := condition?_upsert now type status reason message []
    have htime : c.lastTransitionTime = now := by
      simp only [condition?, upsert, List.find?_cons, decide_true] at hc
      rw [← Option.some.inj hc]
    rw [hc]
    exact .added htime
  | c :: rest => by
    rw [upsert]
    by_cases hc : c.type = type
    · by_cases hstatus : c.status = status
      · simp only [condition?, List.find?_cons, hc, hstatus, decide_true, if_true]
        exact .kept hstatus.symm rfl
      · simp only [condition?, List.find?_cons, hc, hstatus, decide_true, if_true, if_false]
        refine .moved ?_ rfl
        exact Ne.symm hstatus
    · have ih := restamped_upsert now type status reason message rest
      rw [if_neg hc]
      simpa only [condition?, List.find?_cons, hc, decide_false] using ih

theorem restamped_recompute (set : ConditionSet) (now : Timestamp) (conditions : List Condition)
    (type : String) :
    Restamped now (condition? type conditions) (condition? type (set.recompute now conditions)) := by
  rw [recompute]
  dsimp only
  by_cases htype : type = set.happy
  · rw [htype]
    exact restamped_upsert now _ _ _ _ conditions
  · rw [condition?_upsert_of_ne htype]
    exact .refl now _

theorem condition?_recompute_of_ne {type : String} (htype : type ≠ set.happy) :
    condition? type (set.recompute now conditions) = condition? type conditions :=
  condition?_upsert_of_ne htype _ _ _ conditions

/-- Where no type is there twice, the condition of a type is the only one. -/
theorem mem_iff_condition? {cs : List Condition} {c : Condition} (hcs : (types cs).Nodup) :
    c ∈ cs ↔ condition? c.type cs = some c := by
  refine ⟨fun hc => ?_, List.mem_of_find?_eq_some⟩
  induction cs with
  | nil => cases hc
  | cons d rest ih =>
    rw [types, List.map_cons, List.nodup_cons] at hcs
    obtain rfl | hmem := List.mem_cons.1 hc
    · exact List.find?_cons_of_pos (by simp)
    · have hne : d.type ≠ c.type := fun h => hcs.1 (h ▸ List.mem_map_of_mem hmem)
      exact (List.find?_cons_of_neg (by simpa using hne)).trans (ih hcs.2 hmem)

/-! ## What is missing -/

theorem condition?_ensure (now : Timestamp) (conditions : List Condition) (type other : String) :
    condition? other (ensure now conditions type) = (condition? other conditions).or
      (if other = type then some { type, status := .unknown, lastTransitionTime := now }
        else none) := by
  unfold ensure
  cases hc : condition? type conditions with
  | some c =>
    by_cases hother : other = type
    · simp [hother, hc]
    · simp [hother]
  | none =>
    simp only [condition?, List.find?_append, List.find?_cons, List.find?_nil]
    by_cases hother : other = type <;> simp [hother, Ne.symm]

/-- A missing condition is added if it is among the types, and nothing else is. -/
theorem condition?_foldl_ensure (now : Timestamp) (other : String) :
    ∀ (types : List String) (conditions : List Condition),
      condition? other (types.foldl (ensure now) conditions) = (condition? other conditions).or
        (if other ∈ types then some { type := other, status := .unknown, lastTransitionTime := now }
          else none)
  | [], conditions => by simp
  | type :: rest, conditions => by
    rw [List.foldl_cons, condition?_foldl_ensure now other rest, condition?_ensure, Option.or_assoc]
    by_cases htype : other = type
    · simp [htype]
    · simp [htype]

/-! ## One change -/

/-- **A change stamps what it changes.** -/
theorem stamps_changed (set : ConditionSet) (now : Timestamp) (change : Change)
    (conditions : List Condition) :
    set.Stamps now change conditions (set.changed now conditions change) := by
  cases change with
  | complete =>
    have hfold := fun type => condition?_foldl_ensure now type set.dependents conditions
    constructor
    · intro type
      have hsummary := restamped_recompute set now (set.dependents.foldl (ensure now) conditions) type
      cases hc : condition? type conditions with
      | some c =>
        rw [hfold, hc] at hsummary
        exact hsummary
      | none =>
        refine Restamped.of_added ?_ hsummary
        rw [hfold, hc]
        split
        · exact .added rfl
        · exact .absent
    · intro type htype hconcerns
      refine (condition?_recompute_of_ne htype).trans ?_
      rw [hfold]
      cases hc : condition? type conditions with
      | some c => rfl
      | none =>
        have hmissing : type ∉ set.dependents := fun h => hconcerns ⟨h, hc⟩
        rw [if_neg hmissing]
        rfl
  | mark marked status reason message =>
    simp only [changed, mark]
    split
    · exact ⟨fun type => .refl now _, fun _ _ _ => rfl⟩
    · next hmarked =>
      constructor
      · intro type
        -- the summary is not marked, so no condition is set twice
        by_cases htype : type = marked
        · rw [htype, condition?_recompute_of_ne hmarked]
          exact restamped_upsert now marked status reason message conditions
        · have hsummary := restamped_recompute set now
            (upsert now marked status reason message conditions) type
          rwa [condition?_upsert_of_ne htype] at hsummary
      · intro type htype hconcerns
        rw [condition?_recompute_of_ne htype, condition?_upsert_of_ne hconcerns]

/-! ## A series of changes -/

theorem after_concat (set : ConditionSet) (conditions : List Condition)
    (changes : List (Timestamp × Change)) (now : Timestamp) (change : Change) :
    set.after conditions (changes ++ [(now, change)]) =
      set.changed now (set.after conditions changes) change := by
  rw [after, after, List.foldl_append]
  rfl

section
variable {changes : List (Timestamp × Change)} {type : String} {time : Timestamp}
  {last : Timestamp × Change}

theorem LastMoved.concat (h : set.LastMoved conditions changes type time)
    (hsame : set.statusAfter conditions (changes ++ [last]) type =
      set.statusAfter conditions changes type) :
    set.LastMoved conditions (changes ++ [last]) type time := by
  obtain ⟨earlier, change, later, rfl, hmoved, hkept⟩ := h
  refine ⟨earlier, change, later ++ [last], by simp, hmoved, fun front hfront => ?_⟩
  obtain rfl | hfront := List.prefix_concat_iff.1 hfront
  · have hall := hsame.trans (hkept later List.prefix_rfl)
    rwa [List.append_assoc, List.cons_append] at hall
  · exact hkept front hfront

theorem NeverMoved.concat (h : set.NeverMoved conditions changes type)
    (hsame : set.statusAfter conditions (changes ++ [last]) type =
      set.statusAfter conditions changes type) :
    set.NeverMoved conditions (changes ++ [last]) type := by
  intro front hfront
  obtain rfl | hfront := List.prefix_concat_iff.1 hfront
  · exact hsame.trans (h changes List.prefix_rfl)
  · exact h front hfront

theorem lastMoved_concat {change : Change}
    (hmoved : set.statusAfter conditions (changes ++ [(time, change)]) type ≠
      set.statusAfter conditions changes type) :
    set.LastMoved conditions (changes ++ [(time, change)]) type time := by
  refine ⟨changes, change, [], rfl, hmoved, fun front hfront => ?_⟩
  rw [List.prefix_nil.1 hfront]

end

/-- **The time of a condition is that of the last change of its status.** -/
theorem time_after (set : ConditionSet) (conditions : List Condition) (type : String) (c : Condition)
    (changes : List (Timestamp × Change))
    (hc : condition? type (set.after conditions changes) = some c) :
    set.LastMoved conditions changes type c.lastTransitionTime ∨
      set.NeverMoved conditions changes type ∧ ∃ c₀, condition? type conditions = some c₀ ∧
        c.lastTransitionTime = c₀.lastTransitionTime := by
  induction changes using List.reverseRecOn generalizing c with
  | nil =>
    refine .inr ⟨fun front hfront => ?_, c, hc, rfl⟩
    rw [List.prefix_nil.1 hfront]
  | append_singleton changes last ih =>
    obtain ⟨now, change⟩ := last
    have hstamped := (stamps_changed set now change (set.after conditions changes)).times type
    rw [← after_concat, hc] at hstamped
    have hafter : set.statusAfter conditions (changes ++ [(now, change)]) type = some c.status := by
      rw [statusAfter, hc]
      rfl
    obtain ⟨hmoved, rfl⟩ | ⟨b, hb, hstatus, htime⟩ := hstamped.of_some
    · refine .inl (lastMoved_concat ?_)
      rw [hafter]
      exact hmoved.symm
    · have hsame : set.statusAfter conditions (changes ++ [(now, change)]) type =
          set.statusAfter conditions changes type := by
        rw [hafter, hstatus, statusAfter, hb]
        rfl
      rw [htime]
      exact (ih b hb).imp (fun h => h.concat hsame) fun ⟨h, hinitial⟩ => ⟨h.concat hsame, hinitial⟩

/-- **Times follow statuses.** Along any series of changes, each change keeps the time of every
condition that keeps its status, stamps what it adds and what it gives another status, and changes
nothing but what is marked or missing and the summary. So in the end a condition has the time of the
last change that changed its status or added it, or the time that it had. Where no type is there
twice to begin with, none is there twice in the end, so this is about all conditions. -/
theorem times_follow_statuses (set : ConditionSet) (conditions : List Condition)
    (changes : List (Timestamp × Change)) :
    (∀ earlier now change later, changes = earlier ++ (now, change) :: later →
      set.Stamps now change (set.after conditions earlier)
        (set.after conditions (earlier ++ [(now, change)]))) ∧
    (∀ type c, condition? type (set.after conditions changes) = some c →
      set.LastMoved conditions changes type c.lastTransitionTime ∨
        set.NeverMoved conditions changes type ∧ ∃ c₀, condition? type conditions = some c₀ ∧
          c.lastTransitionTime = c₀.lastTransitionTime) ∧
    ((types conditions).Nodup → (types (set.after conditions changes)).Nodup ∧
      ∀ c, c ∈ set.after conditions changes ↔
        condition? c.type (set.after conditions changes) = some c) := by
  refine ⟨fun earlier now change later _ => ?_, fun type c hc => time_after set conditions type c
    changes hc, fun hnodup => ?_⟩
  · rw [after_concat]
    exact stamps_changed set now change _
  · have hnodup' := (extends_after set changes conditions).nodup hnodup
    exact ⟨hnodup', fun c => mem_iff_condition? hnodup'⟩

/-- A condition turns false and true again, and then only its reason changes: it has the time at which
it turned true again. -/
theorem times_follow_statuses_flapping :
    let second (n : Nat) : Timestamp := ⟨1970, 1, 1, 0, 0, n, 0⟩
    let set : ConditionSet := ⟨"Ready", ["A", "B"]⟩
    let conditions : List Condition := [{ type := "A", status := .true, lastTransitionTime := second 0 }]
    let changes : List (Timestamp × Change) := [
      (second 1, .mark "A" .false "r" ""), (second 2, .complete), (second 3, .mark "A" .true "" ""),
      (second 4, .mark "A" .true "s" "")]
    (types conditions).Nodup ∧
      condition? "A" (set.after conditions changes) =
        some { type := "A", status := .true, reason := "s", lastTransitionTime := second 3 } ∧
      set.LastMoved conditions changes "A" (second 3) ∧
      (types (set.after conditions changes)).Nodup := by
  intro second set conditions changes
  have hnodup : (types conditions).Nodup := by decide
  have hfound : condition? "A" (set.after conditions changes) =
      some { type := "A", status := .true, reason := "s", lastTransitionTime := second 3 } := by decide
  obtain ⟨-, htimes, hkept⟩ := times_follow_statuses set conditions changes
  refine ⟨hnodup, hfound, ?_, (hkept hnodup).1⟩
  obtain hmoved | ⟨-, c₀, hinitial, htime⟩ := htimes "A" _ hfound
  · exact hmoved
  · obtain rfl : { type := "A", status := .true, lastTransitionTime := second 0 } = c₀ :=
      Option.some.inj hinitial
    exact absurd htime (by decide)

end ReleaseKeeper.ConditionSet
