import ReleaseKeeper.Instance.Status

/-!
# Conditions add up

A summary is the first false dependent, else the first unknown or missing one, else true
(`summary_eq_worst`). A list of conditions is coherent if its summary condition says just that.
Whatever the conditions were before, they are coherent after any of the dependents was marked and
after the missing ones were added (`mark_coherent`, `complete_coherent`); then all is well exactly
if every dependent is true (`Coherent.isHappy_iff`), and marking a condition as it is changes nothing
(`Coherent.mark_self`). No change gives a condition another time than one that was there or the
present (`times_mark`, `times_complete`).
-/
namespace ReleaseKeeper

namespace ConditionSet

/-- Status, reason and message of the first condition of a type, which is unknown if missing. -/
def known (conditions : List Condition) (type : String) : ConditionStatus × String × String :=
  match condition? type conditions with
  | some c => (c.status, c.reason, c.message)
  | none => (.unknown, "", "")

/-- The first that is false, else the first that is unknown, else that all is well. -/
def worst (views : List (ConditionStatus × String × String)) : ConditionStatus × String × String :=
  match views.find? (·.1 = .false) with
  | some view => view
  | none => (views.find? (·.1 = .unknown)).getD (.true, "", "")

/-- There is a summary condition, and it says what the dependents come to. -/
def Coherent (set : ConditionSet) (conditions : List Condition) : Prop :=
  ∃ c, condition? set.happy conditions = some c ∧
    (c.status, c.reason, c.message) = worst (set.dependents.map (known conditions))

variable {set : ConditionSet} {now : Timestamp} {conditions : List Condition}

/-! ## The summary -/

theorem worst_eq_false {views : List (ConditionStatus × String × String)} :
    (worst views).1 = .false ↔ ∃ view, views.find? (·.1 = .false) = some view := by
  rw [worst]
  cases hfalse : views.find? (·.1 = .false) with
  | some view => simpa using List.find?_some hfalse
  | none =>
    cases hunknown : views.find? (·.1 = .unknown) with
    | none => simp
    | some view =>
      have hview : view.1 = .unknown := by simpa using List.find?_some hunknown
      simp [hview]

theorem worst_eq_true (views : List (ConditionStatus × String × String)) :
    (worst views).1 = .true ↔ ∀ view ∈ views, view.1 = .true := by
  constructor
  · intro h view hview
    have hfalse : views.find? (·.1 = .false) = none := by
      rw [Option.eq_none_iff_forall_ne_some]
      intro other hother
      rw [worst_eq_false.2 ⟨other, hother⟩] at h
      cases h
    cases hunknown : views.find? (·.1 = .unknown) with
    | some other =>
      have hother : other.1 = .unknown := by simpa using List.find?_some hunknown
      simp [worst, hfalse, hunknown, hother] at h
    | none =>
      have hnotFalse := List.find?_eq_none.1 hfalse view hview
      have hnotUnknown := List.find?_eq_none.1 hunknown view hview
      cases hstatus : view.1 <;> simp_all
  · intro h
    have hfalse : views.find? (·.1 = .false) = none :=
      List.find?_eq_none.2 fun view hview => by simp [h view hview]
    have hunknown : views.find? (·.1 = .unknown) = none :=
      List.find?_eq_none.2 fun view hview => by simp [h view hview]
    simp [worst, hfalse, hunknown]

/-- An unknown view counts unless a false one comes later. -/
theorem worst_cons_unknown {view : ConditionStatus × String × String} (h : view.1 = .unknown)
    (views : List (ConditionStatus × String × String)) :
    worst (view :: views) = if (worst views).1 = .false then worst views else view := by
  cases hfalse : views.find? (·.1 = .false) with
  | some other =>
    rw [if_pos (worst_eq_false.2 ⟨other, hfalse⟩)]
    simp [worst, h, hfalse]
  | none =>
    have hnot : (worst views).1 ≠ .false := by simp [worst_eq_false, hfalse]
    rw [if_neg hnot]
    simp [worst, h, hfalse]

theorem summary_eq_worst (conditions : List Condition) :
    ∀ types, summary conditions types = worst (types.map (known conditions))
  | [] => rfl
  | type :: rest => by
    rw [summary, summary_eq_worst conditions rest, List.map_cons]
    cases hc : condition? type conditions with
    | none =>
      have hknown : known conditions type = (.unknown, "", "") := by rw [known, hc]
      rw [hknown, worst_cons_unknown rfl]
    | some c =>
      have hknown : known conditions type = (c.status, c.reason, c.message) := by rw [known, hc]
      rw [hknown]
      cases hstatus : c.status with
      | true => simp [worst, hstatus]
      | false => simp [worst, hstatus]
      | unknown => simp [worst_cons_unknown, hstatus]

/-! ## Setting a condition -/

theorem condition?_upsert (now : Timestamp) (type : String) (status : ConditionStatus)
    (reason message : String) :
    ∀ conditions, ∃ c, condition? type (upsert now type status reason message conditions) = some c ∧
      (c.status, c.reason, c.message) = (status, reason, message)
  | [] => ⟨⟨type, status, reason, message, now⟩, by simp [condition?, upsert], rfl⟩
  | c :: rest => by
    rw [upsert]
    split
    · next h => exact ⟨_, List.find?_cons_of_pos (by simpa using h), rfl⟩
    · next h =>
      obtain ⟨c', hc', hview⟩ := condition?_upsert now type status reason message rest
      refine ⟨c', ?_, hview⟩
      rw [← hc']
      simp [condition?, h]

theorem condition?_upsert_of_ne {type other : String} (h : other ≠ type) (status : ConditionStatus)
    (reason message : String) :
    ∀ conditions, condition? other (upsert now type status reason message conditions) =
      condition? other conditions
  | [] => by simp [condition?, upsert, Ne.symm h]
  | c :: rest => by
    have ih := condition?_upsert_of_ne h status reason message rest
    simp only [condition?] at ih
    rw [upsert]
    split
    · next hc =>
      have hne : c.type ≠ other := fun e => h (e ▸ hc)
      simp [condition?, hne]
    · simp only [condition?, List.find?_cons, ih]

theorem known_upsert_of_ne {type other : String} (h : other ≠ type) (status : ConditionStatus)
    (reason message : String) :
    known (upsert now type status reason message conditions) other = known conditions other := by
  rw [known, known, condition?_upsert_of_ne h]

/-- A missing condition is taken for unknown, so adding it as that changes nothing. -/
theorem known_ensure (type other : String) :
    known (ensure now conditions type) other = known conditions other := by
  rw [ensure]
  cases hc : condition? type conditions with
  | some c => rfl
  | none =>
    simp only [known, condition?, List.find?_append]
    cases ho : conditions.find? (·.type = other) with
    | some c => rfl
    | none => by_cases h : type = other <;> simp [h]

theorem known_foldl_ensure (other : String) :
    ∀ (types : List String) (conditions : List Condition),
      known (types.foldl (ensure now) conditions) other = known conditions other
  | [], _ => rfl
  | type :: rest, conditions => by
    rw [List.foldl_cons, known_foldl_ensure other rest, known_ensure]

/-! ## Marking a condition -/

/-- Marking a condition sets it. -/
theorem known_mark_self {type : String} (hhappy : type ≠ set.happy) (status : ConditionStatus)
    (reason message : String) :
    known (set.mark now type status reason message conditions) type = (status, reason, message) := by
  rw [mark, if_neg hhappy, recompute]
  dsimp only
  rw [known_upsert_of_ne hhappy, known]
  obtain ⟨c, hc, hview⟩ := condition?_upsert now type status reason message conditions
  rw [hc]
  exact hview

/-- Marking a condition leaves the others, but for the summary. -/
theorem known_mark_of_ne {type other : String} (hhappy : other ≠ set.happy) (hother : other ≠ type)
    (status : ConditionStatus) (reason message : String) :
    known (set.mark now type status reason message conditions) other = known conditions other := by
  rw [mark]
  split
  · rfl
  · rw [recompute]
    dsimp only
    rw [known_upsert_of_ne hhappy, known_upsert_of_ne hother]

/-- The condition itself is left as it is, with its time. -/
theorem condition?_mark_of_ne {type other : String} (hhappy : other ≠ set.happy)
    (hother : other ≠ type) (status : ConditionStatus) (reason message : String) :
    condition? other (set.mark now type status reason message conditions) =
      condition? other conditions := by
  rw [mark]
  split
  · rfl
  · rw [recompute]
    dsimp only
    rw [condition?_upsert_of_ne hhappy, condition?_upsert_of_ne hother]

/-! ## Coherence -/

section
variable (hset : set.happy ∉ set.dependents)
include hset

theorem recompute_coherent (conditions : List Condition) :
    set.Coherent (set.recompute now conditions) := by
  simp only [recompute]
  obtain ⟨c, hc, hview⟩ := condition?_upsert now set.happy
    (summary conditions set.dependents).1 (summary conditions set.dependents).2.1
    (summary conditions set.dependents).2.2 conditions
  refine ⟨c, hc, ?_⟩
  rw [hview, summary_eq_worst]
  refine congrArg worst (List.map_congr_left fun type htype => ?_)
  have hne : type ≠ set.happy := by
    rintro rfl
    exact hset htype
  exact (known_upsert_of_ne hne _ _ _).symm

/-- **Marking a dependent makes the conditions coherent**, whatever they were. -/
theorem mark_coherent {type : String} (htype : type ≠ set.happy) (status : ConditionStatus)
    (reason message : String) (conditions : List Condition) :
    set.Coherent (set.mark now type status reason message conditions) := by
  rw [mark, if_neg htype]
  exact recompute_coherent hset _

/-- Adding what is missing makes the conditions coherent. -/
theorem complete_coherent (conditions : List Condition) :
    set.Coherent (set.complete now conditions) :=
  recompute_coherent hset _

omit hset in
/-- Adding what is missing makes no condition hold or fail but the summary. -/
theorem known_complete {type : String} (htype : type ≠ set.happy) :
    known (set.complete now conditions) type = known conditions type := by
  simp only [complete, recompute]
  rw [known_upsert_of_ne htype, known_foldl_ensure]

end

/-- Where conditions are coherent all is well exactly if every dependent is true. -/
theorem Coherent.isHappy_iff (h : set.Coherent conditions) :
    set.isHappy conditions = true ↔
      ∀ type ∈ set.dependents, (known conditions type).1 = .true := by
  obtain ⟨c, hc, hview⟩ := h
  have hworst := worst_eq_true (set.dependents.map (known conditions))
  rw [← hview, List.forall_mem_map] at hworst
  rw [← hworst, isHappy, hc]
  simp

/-! ## Conditions that stay -/

/-- Setting a condition to what it is changes nothing. -/
theorem upsert_self (now : Timestamp) {type : String} {c : Condition} :
    ∀ {cs : List Condition}, condition? type cs = some c →
      upsert now type c.status c.reason c.message cs = cs
  | d :: rest, h => by
    rw [upsert]
    split
    · next hd =>
      obtain rfl : d = c := by simpa [condition?, hd] using h
      rw [if_pos rfl]
    · next hd =>
      have hrest : condition? type rest = some c := by simpa [condition?, hd] using h
      rw [upsert_self now hrest]

/-- The summary of coherent conditions is computed already. -/
theorem Coherent.recompute_self (now : Timestamp) (h : set.Coherent conditions) :
    set.recompute now conditions = conditions := by
  obtain ⟨c, hc, hview⟩ := h
  rw [← summary_eq_worst] at hview
  rw [recompute, ← hview]
  exact upsert_self now hc

/-- Marking a condition of coherent ones as it is changes nothing. -/
theorem Coherent.mark_self (now : Timestamp) (h : set.Coherent conditions) {type : String}
    {status : ConditionStatus} {reason message : String} (hstatus : status ≠ .unknown)
    (hknown : known conditions type = (status, reason, message)) :
    set.mark now type status reason message conditions = conditions := by
  rw [mark]
  split
  · rfl
  · cases hc : condition? type conditions with
    | none =>
      rw [known, hc] at hknown
      exact absurd (congrArg Prod.fst hknown).symm hstatus
    | some c =>
      rw [known, hc] at hknown
      obtain ⟨rfl, rfl, rfl⟩ : c.status = status ∧ c.reason = reason ∧ c.message = message := by
        simpa using hknown
      rw [upsert_self now hc, h.recompute_self]

/-! ## Times -/

section

variable {T : Timestamp → Prop}

/-- A condition has the time of a condition that was there, or the present one. -/
theorem times_upsert (hnow : T now) (type : String) (status : ConditionStatus)
    (reason message : String) : ∀ {cs : List Condition}, (∀ c ∈ cs, T c.lastTransitionTime) →
    ∀ c ∈ upsert now type status reason message cs, T c.lastTransitionTime
  | [], _ => by simpa [upsert] using hnow
  | c :: rest, h => by
    obtain ⟨hc, hrest⟩ := List.forall_mem_cons.1 h
    rw [upsert]
    split
    · refine List.forall_mem_cons.2 ⟨?_, hrest⟩
      dsimp only
      split
      · exact hc
      · exact hnow
    · exact List.forall_mem_cons.2 ⟨hc, times_upsert hnow type status reason message hrest⟩

variable {cs : List Condition} (set)

theorem times_recompute (hnow : T now) (h : ∀ c ∈ cs, T c.lastTransitionTime) :
    ∀ c ∈ set.recompute now cs, T c.lastTransitionTime :=
  times_upsert hnow _ _ _ _ h

theorem times_mark (hnow : T now) (h : ∀ c ∈ cs, T c.lastTransitionTime) (type : String)
    (status : ConditionStatus) (reason message : String) :
    ∀ c ∈ set.mark now type status reason message cs, T c.lastTransitionTime := by
  rw [mark]
  split
  · exact h
  · exact set.times_recompute hnow (times_upsert hnow _ _ _ _ h)

theorem times_ensure (hnow : T now) (h : ∀ c ∈ cs, T c.lastTransitionTime) (type : String) :
    ∀ c ∈ ensure now cs type, T c.lastTransitionTime := by
  rw [ensure]
  split
  · exact h
  · refine List.forall_mem_append.2 ⟨h, ?_⟩
    simpa using hnow

theorem times_complete (hnow : T now) (h : ∀ c ∈ cs, T c.lastTransitionTime) :
    ∀ c ∈ set.complete now cs, T c.lastTransitionTime := by
  have hfold : ∀ (types : List String) (cs : List Condition), (∀ c ∈ cs, T c.lastTransitionTime) →
      ∀ c ∈ types.foldl (ensure now) cs, T c.lastTransitionTime := by
    intro types
    induction types with
    | nil => exact fun _ h => h
    | cons type rest ih => exact fun cs h => ih _ (times_ensure hnow h type)
  exact set.times_recompute hnow (hfold _ _ h)

end

end ConditionSet

namespace InstanceStatus

open ConditionSet

variable {s : InstanceStatus} {now : Timestamp}

/-- The summary of a status says what its other conditions come to. -/
def Coherent (s : InstanceStatus) : Prop := servingConditions.Coherent s.conditions

theorem happy_not_mem : servingConditions.happy ∉ servingConditions.dependents := by decide

theorem complete_coherent (now : Timestamp) (s : InstanceStatus) : (s.complete now).Coherent :=
  ConditionSet.complete_coherent happy_not_mem _

theorem mark_coherent {type : String} (htype : type ≠ servingConditions.happy)
    (now : Timestamp) (status : ConditionStatus) (reason message : String) (s : InstanceStatus) :
    (s.mark now type status reason message).Coherent :=
  ConditionSet.mark_coherent happy_not_mem htype _ _ _ _

theorem holds_iff {type : String} :
    s.holds type = true ↔ (known s.conditions type).1 = .true := by
  rw [holds, condition?, known]
  cases ReleaseKeeper.condition? type s.conditions <;> simp

theorem holds_complete {type : String} (htype : type ≠ servingConditions.happy) :
    (s.complete now).holds type = s.holds type := by
  rw [Bool.eq_iff_iff, holds_iff, holds_iff]
  exact iff_of_eq (congrArg (·.1 = ConditionStatus.true) (known_complete htype))

/-- Adding the missing conditions does not make a release look installed. -/
theorem isDeploying_complete : (s.complete now).isDeploying = s.isDeploying := by
  rw [isDeploying, isDeploying, isInstalled, isInstalled, isAvailable, isAvailable,
    holds_complete (by decide), holds_complete (by decide)]

/-- A coherent status is ready exactly if the release is installed and available. -/
theorem Coherent.isReady_iff (h : s.Coherent) :
    s.isReady = true ↔ s.isInstalled = true ∧ s.isAvailable = true := by
  rw [isInstalled, isAvailable, holds_iff, holds_iff]
  exact (ConditionSet.Coherent.isHappy_iff h).trans (by simp [servingConditions])

end InstanceStatus

end ReleaseKeeper
