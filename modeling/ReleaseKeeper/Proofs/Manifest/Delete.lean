import ReleaseKeeper.Manifest.Delete
import ReleaseKeeper.Proofs.Manifest.Order
import ReleaseKeeper.Proofs.Program.Runs

/-!
# Deleting a release, whatever the calls are answered

Deleting a resource is one look at the object and, if it is found tagged, one deletion
(`delete_cases`, and `Attempt` for the calls alone). A phase attempts each of its resources, whatever
became of those before, and fails with the first obstacle among its calls (`runs_deleteEach`). Phases
follow one another up to the first that fails (`Phased`).
-/
namespace ReleaseKeeper.Manifest

open Operation

/-- Why something may still be there after a call. That a deletion finds it gone is no obstacle. -/
def obstacle? : (c : Call) × c.Answer → Option Error
  | ⟨.listInstances, .error e⟩ => some e
  | ⟨.get _, .error e⟩ => some e
  | ⟨.delete _, .error e⟩ => if e.isNotFound then none else some e
  | _ => none

/-- The first obstacle among some calls. -/
def firstObstacle? (t : Program.Trace Call Call.Answer) : Option Error := t.findSome? obstacle?

/-- The calls that attempt to delete a resource: the object is looked at, and deleted if it is
tagged. -/
inductive Attempt (r : Resource) : Program.Trace Call Call.Answer → Prop
  | unseen (e : Error) : Attempt r [⟨.get r.key, .error e⟩]
  | absent : Attempt r [⟨.get r.key, .ok none⟩]
  | foreign {live : Resource} (untagged : live.isTagged = false) :
    Attempt r [⟨.get r.key, .ok (some live)⟩]
  | tagged {live : Resource} (tagged : live.isTagged = true) (a : Except Error Unit) :
    Attempt r [⟨.get r.key, .ok (some live)⟩, ⟨.delete r.key, a⟩]

/-- The calls that attempt to delete some resources, each of them once and in order. -/
inductive Attempts : List Resource → Program.Trace Call Call.Answer → Prop
  | nil : Attempts [] []
  | cons {r : Resource} {rest : List Resource} {t t' : Program.Trace Call Call.Answer}
    (first : Attempt r t) (later : Attempts rest t') : Attempts (r :: rest) (t ++ t')

/-- The calls of phases one after another, up to the first with an obstacle, and that obstacle. -/
inductive Phased :
    List (List Resource) → Program.Trace Call Call.Answer → Option Error → Prop
  | done : Phased [] [] none
  | stopped {rs : List Resource} {rest : List (List Resource)} {e : Error}
    {t : Program.Trace Call Call.Answer} (attempts : Attempts rs t)
    (obstacle : firstObstacle? t = some e) : Phased (rs :: rest) t (some e)
  | passed {rs : List Resource} {rest : List (List Resource)} {e? : Option Error}
    {t t' : Program.Trace Call Call.Answer} (attempts : Attempts rs t)
    (clear : firstObstacle? t = none) (later : Phased rest t' e?) :
    Phased (rs :: rest) (t ++ t') e?

/-- An error, if there is one, as an outcome. -/
def outcome : Option Error → Except Error Unit
  | some e => .error e
  | none => .ok ()

variable {σ : Type} {world : Program.World Call Call.Answer σ} {s s' : σ}
  {t t' : Program.Trace Call Call.Answer} {r : Resource} {rs : List Resource}

/-! ## One resource -/

/-- What a deletion comes to. -/
def deletion : Except Error Unit → Except Error Deleted
  | .ok () => .ok .deleted
  | .error e => if e.isNotFound then .ok .absent else .error e

/-- What is done to delete a resource: one call that looks, and one that deletes if a tagged object
was found. -/
theorem delete_cases {x : Except Error Deleted} (h : Runs world (Manifest.delete r) s t x s') :
    (∃ e, t = [⟨.get r.key, .error e⟩] ∧ world s (.get r.key) (.error e) s' ∧ x = .error e) ∨
    (t = [⟨.get r.key, .ok none⟩] ∧ world s (.get r.key) (.ok none) s' ∧ x = .ok .absent) ∨
    (∃ live, t = [⟨.get r.key, .ok (some live)⟩] ∧ world s (.get r.key) (.ok (some live)) s' ∧
      live.isTagged = false ∧ x = .ok .skipped) ∨
    ∃ live s₁ a, t = [⟨.get r.key, .ok (some live)⟩, ⟨.delete r.key, a⟩] ∧
      world s (.get r.key) (.ok (some live)) s₁ ∧ live.isTagged = true ∧
      world s₁ (.delete r.key) a s' ∧ x = deletion a := by
  obtain ⟨e, rfl, answered, rfl⟩ | ⟨live?, s₁, t₁, rfl, answered, h⟩ := runs_ask_bind.1 h
  · exact .inl ⟨e, rfl, answered, rfl⟩
  · cases live? with
    | none =>
      obtain ⟨rfl, rfl, rfl⟩ := runs_pure.1 h
      exact .inr (.inl ⟨rfl, answered, rfl⟩)
    | some live =>
      refine .inr (.inr ?_)
      dsimp only at h
      split at h
      · next htag =>
        obtain ⟨rfl, rfl, rfl⟩ := runs_pure.1 h
        exact .inl ⟨live, rfl, answered, by simpa using htag, rfl⟩
      · next htag =>
        obtain ⟨a, s₂, t₂, rfl, deleted, hnext⟩ := runs_ask_outcome_bind.1 h
        refine .inr ⟨live, s₁, a, ?_⟩
        have hend : t₂ = [] ∧ x = deletion a ∧ s' = s₂ := by
          cases a with
          | ok _ => exact runs_pure.1 hnext
          | error e =>
            dsimp only [deletion] at hnext ⊢
            split at hnext
            · next hgone => rw [if_pos hgone]; exact runs_pure.1 hnext
            · next hthere => rw [if_neg hthere]; exact runs_throw.1 hnext
        obtain ⟨rfl, rfl, rfl⟩ := hend
        exact ⟨rfl, answered, by simpa using htag, deleted, rfl⟩

theorem obstacle?_deletion (key : ResourceKey) (a : Except Error Unit) :
    outcome (obstacle? ⟨.delete key, a⟩) = (deletion a).map fun _ => () := by
  cases a with
  | ok _ => rfl
  | error e =>
    simp only [obstacle?, deletion]
    split <;> rfl

/-- An attempt fails with its first obstacle. -/
theorem runs_delete {x : Except Error Deleted} (h : Runs world (Manifest.delete r) s t x s') :
    Attempt r t ∧ outcome (firstObstacle? t) = x.map fun _ => () := by
  obtain ⟨e, rfl, -, rfl⟩ | ⟨rfl, -, rfl⟩ | ⟨live, rfl, -, htag, rfl⟩ |
    ⟨live, s₁, a, rfl, -, htag, -, rfl⟩ := delete_cases h
  · exact ⟨.unseen e, rfl⟩
  · exact ⟨.absent, rfl⟩
  · exact ⟨.foreign htag, rfl⟩
  · refine ⟨.tagged htag a, ?_⟩
    rw [← obstacle?_deletion r.key a]
    refine congrArg outcome ?_
    exact List.findSome?_singleton

/-! ## One resource after another -/

theorem firstObstacle?_append :
    firstObstacle? (t ++ t') = (firstObstacle? t).or (firstObstacle? t') :=
  List.findSome?_append

/-- **Every resource is attempted**, and the first obstacle of all is told. -/
theorem runs_deleteEach : ∀ {rs : List Resource} {s s' : σ} {t : Program.Trace Call Call.Answer}
    {e? : Option Error}, Program.Runs world (deleteEach rs) s t e? s' →
    Attempts rs t ∧ e? = firstObstacle? t
  | [], s, s', t, e?, h => by
    obtain ⟨rfl, rfl, rfl⟩ := Program.runs_done_iff.1 h
    exact ⟨.nil, rfl⟩
  | r :: rest, s, s', t, e?, h => by
    obtain ⟨t₁, x, s₁, t₂, rfl, hr, h⟩ := Program.runs_bind_iff.1 h
    obtain ⟨t₃, later, s₂, t₄, rfl, hrest, hend⟩ := Program.runs_bind_iff.1 h
    obtain ⟨hattempt, hx⟩ := runs_delete hr
    obtain ⟨hattempts, rfl⟩ := runs_deleteEach hrest
    obtain ⟨rfl, rfl, rfl⟩ := Program.runs_done_iff.1 hend
    rw [List.append_nil, firstObstacle?_append]
    refine ⟨.cons hattempt hattempts, ?_⟩
    cases x with
    | error e =>
      cases hfirst : firstObstacle? t₁ with
      | none => rw [hfirst] at hx; cases hx
      | some e' =>
        rw [hfirst] at hx
        obtain rfl := Except.error.inj hx
        rfl
    | ok _ =>
      cases hfirst : firstObstacle? t₁ with
      | none => rfl
      | some e' => rw [hfirst] at hx; cases hx

/-! ## Phases -/

theorem runs_deletePhase {x : Except Error Unit} (h : Runs world (deletePhase rs) s t x s') :
    ∃ e?, Phased [rs] t e? ∧ x = outcome e? := by
  obtain ⟨e?, t₁, s₁, t₂, rfl, heach, hend⟩ := runs_lift_bind.1 h
  obtain ⟨hattempts, rfl⟩ := runs_deleteEach heach
  cases hfirst : firstObstacle? t₁ with
  | none =>
    rw [hfirst] at hend
    obtain ⟨rfl, rfl, rfl⟩ := runs_pure.1 hend
    exact ⟨none, .passed hattempts hfirst .done, rfl⟩
  | some e =>
    rw [hfirst] at hend
    obtain ⟨rfl, rfl, rfl⟩ := runs_throw.1 hend
    rw [List.append_nil]
    exact ⟨some e, .stopped hattempts hfirst, rfl⟩

variable {phases later : List (List Resource)} {e? : Option Error}

theorem Phased.append_none (h : Phased phases t none) (h' : Phased later t' e?) :
    Phased (phases ++ later) (t ++ t') e? := by
  generalize hnone : (none : Option Error) = x at h
  induction h with
  | done => exact h'
  | stopped => cases hnone
  | passed attempts clear _ ih =>
    rw [List.append_assoc]
    exact .passed attempts clear (ih hnone)

theorem Phased.append_some {e : Error} (h : Phased phases t (some e)) :
    Phased (phases ++ later) t (some e) := by
  generalize hsome : some e = x at h ⊢
  induction h with
  | done => cases hsome
  | stopped attempts obstacle => exact .stopped attempts obstacle
  | passed attempts clear _ ih => exact .passed attempts clear (ih hsome)

/-- A phase without resources makes no calls, at the end ... -/
theorem Phased.of_append_nil : ∀ {phases : List (List Resource)} {t : Program.Trace Call Call.Answer},
    Phased (phases ++ [[]]) t e? → Phased phases t e?
  | [], _, h => by
    cases h with
    | stopped attempts obstacle => cases attempts; cases obstacle
    | passed attempts _ later => cases attempts; exact later
  | _ :: _, _, h => by
    cases h with
    | stopped attempts obstacle => exact .stopped attempts obstacle
    | passed attempts clear later => exact .passed attempts clear later.of_append_nil

/-- ... and at the beginning. -/
theorem Phased.of_nil_cons (h : Phased ([] :: phases) t e?) : Phased phases t e? := by
  cases h with
  | stopped attempts obstacle =>
    cases attempts
    cases obstacle
  | passed attempts clear later =>
    cases attempts
    exact later

/-- Deletions that follow one another are those of their phases together. -/
theorem phased_bind {first second : Operation Unit} {x : Except Error Unit}
    (hfirst : ∀ {t y s₁}, Runs world first s t y s₁ → ∃ e?, Phased phases t e? ∧ y = outcome e?)
    (hsecond : ∀ {s₁ t y}, Runs world second s₁ t y s' →
      ∃ e?, Phased later t e? ∧ y = outcome e?)
    (h : Runs world (first >>= fun _ => second) s t x s') :
    ∃ e?, Phased (phases ++ later) t e? ∧ x = outcome e? := by
  obtain ⟨e, rfl, hrun⟩ | ⟨_, t₁, s₁, t₂, rfl, hrun, hnext⟩ := runs_bind.1 h
  · obtain ⟨e?, hphased, hx⟩ := hfirst hrun
    cases e? with
    | none => cases hx
    | some e' =>
      obtain rfl := Except.error.inj hx
      exact ⟨some e, hphased.append_some, rfl⟩
  · obtain ⟨e?, hphased, hx⟩ := hfirst hrun
    cases e? with
    | some e' => cases hx
    | none =>
      obtain ⟨e?, hlater, rfl⟩ := hsecond hnext
      exact ⟨e?, hphased.append_none hlater, rfl⟩

theorem runs_deleteAll {m : Manifest} {x : Except Error Unit}
    (h : Runs world (deleteAll m) s t x s') :
    ∃ e?, Phased [m.deleteOrder.filter fun r => !r.isAccessControl,
      m.deleteOrder.filter Resource.isAccessControl] t e? ∧ x = outcome e? :=
  phased_bind runs_deletePhase runs_deletePhase h

/-- Of permissions alone, as of what is not a permission, only one phase has to be deleted. -/
theorem runs_deleteAll_pure {m : Manifest} {b : Bool} (hm : ∀ r ∈ m, r.isAccessControl = b)
    {x : Except Error Unit} (h : Runs world (deleteAll m) s t x s') :
    ∃ e?, Phased [m.applyOrder.reverse] t e? ∧ x = outcome e? := by
  obtain ⟨e?, hphased, rfl⟩ := runs_deleteAll h
  have hall : ∀ r ∈ m.applyOrder.reverse, r.isAccessControl = b :=
    fun r hr => hm r (mem_applyOrder.1 (List.mem_reverse.1 hr))
  refine ⟨e?, ?_, rfl⟩
  cases b with
  | false =>
    have hnone : m.applyOrder.reverse.filter Resource.isAccessControl = [] :=
      List.filter_eq_nil_iff.2 fun r hr => by simp [hall r hr]
    have hself : (m.applyOrder.reverse.filter fun r => !r.isAccessControl) = m.applyOrder.reverse :=
      List.filter_eq_self.2 fun r hr => by simp [hall r hr]
    simp only [deleteOrder, hnone, hself, List.append_nil] at hphased
    exact hphased.of_append_nil
  | true =>
    have hself : m.applyOrder.reverse.filter Resource.isAccessControl = m.applyOrder.reverse :=
      List.filter_eq_self.2 fun r hr => by simp [hall r hr]
    have hnone : (m.applyOrder.reverse.filter fun r => !r.isAccessControl) = [] :=
      List.filter_eq_nil_iff.2 fun r hr => by simp [hall r hr]
    simp only [deleteOrder, hnone, hself, List.nil_append] at hphased
    exact hphased.of_nil_cons

/-! ## What follows for the calls -/

/-- The keys of the objects that are looked at, in order. -/
def looked (t : Program.Trace Call Call.Answer) : List ResourceKey :=
  t.filterMap fun
    | ⟨.get key, _⟩ => some key
    | _ => none

theorem looked_append : looked (t ++ t') = looked t ++ looked t' := List.filterMap_append

theorem Attempts.looked (h : Attempts rs t) : looked t = rs.map Resource.key := by
  induction h with
  | nil => rfl
  | cons first _ ih =>
    rw [looked_append, ih, List.map_cons]
    cases first <;> rfl

theorem Phased.looked (h : Phased phases t none) :
    Manifest.looked t = phases.flatten.map Resource.key := by
  generalize hnone : (none : Option Error) = x at h
  induction h with
  | done => rfl
  | stopped => cases hnone
  | passed attempts _ _ ih =>
    rw [looked_append, attempts.looked, ih hnone, List.flatten_cons, List.map_append]

/-- A call of a deletion: it looks at an object of the resources, or deletes one directly after it
was found tagged. -/
def Sound (rs : List Resource) (t : Program.Trace Call Call.Answer)
    (e : (c : Call) × c.Answer) : Prop :=
  (∃ r ∈ rs, e.1 = .get r.key) ∨
  ∃ r ∈ rs, ∃ live a, e = ⟨.delete r.key, a⟩ ∧ live.isTagged = true ∧
    [⟨.get r.key, .ok (some live)⟩, ⟨.delete r.key, a⟩] <:+: t

theorem Sound.mono {rs' : List Resource} {e : (c : Call) × c.Answer} (h : Sound rs t e)
    (hrs : ∀ r ∈ rs, r ∈ rs') (ht : t <:+: t') : Sound rs' t' e := by
  obtain ⟨r, hr, hget⟩ | ⟨r, hr, live, a, rfl, htag, hin⟩ := h
  · exact .inl ⟨r, hrs r hr, hget⟩
  · exact .inr ⟨r, hrs r hr, live, a, rfl, htag, hin.trans ht⟩

theorem Attempt.sound (h : Attempt r t) : ∀ e ∈ t, Sound [r] t e := by
  have hlook : ∀ a, Sound [r] t ⟨.get r.key, a⟩ := fun a => .inl ⟨r, List.mem_singleton_self r, rfl⟩
  cases h with
  | tagged htag a =>
    simp only [List.forall_mem_cons, List.not_mem_nil, false_imp_iff, implies_true, and_true]
    exact ⟨hlook _, .inr ⟨r, List.mem_singleton_self r, _, a, rfl, htag, List.infix_refl _⟩⟩
  | _ => exact List.forall_mem_singleton.2 (hlook _)

theorem Attempts.sound (h : Attempts rs t) : ∀ e ∈ t, Sound rs t e := by
  induction h with
  | nil => simp
  | @cons r rest t t' first later ih =>
    refine List.forall_mem_append.2 ⟨fun e he => ?_, fun e he => ?_⟩
    · exact (first.sound e he).mono (by simp) (List.infix_append [] t t')
    · exact (ih e he).mono (by simp +contextual) (List.suffix_append t t').isInfix

/-- **Only what was found tagged is deleted**, and nothing but the resources of the phases. -/
theorem Phased.sound (h : Phased phases t e?) : ∀ e ∈ t, Sound phases.flatten t e := by
  induction h with
  | done => simp
  | stopped attempts _ =>
    exact fun e he => (attempts.sound e he).mono (by simp +contextual) (List.infix_refl _)
  | @passed rs rest e? t t' attempts _ _ ih =>
    refine List.forall_mem_append.2 ⟨fun e he => ?_, fun e he => ?_⟩
    · exact (attempts.sound e he).mono (by simp +contextual) (List.infix_append [] t t')
    · exact (ih e he).mono (by simp +contextual) (List.suffix_append t t').isInfix

/-- Phases fail with the first obstacle of all. -/
theorem Phased.firstObstacle? (h : Phased phases t e?) : firstObstacle? t = e? := by
  induction h with
  | done => rfl
  | stopped _ obstacle => exact obstacle
  | passed _ clear _ ih => rw [firstObstacle?_append, clear, ih, Option.none_or]

end ReleaseKeeper.Manifest
