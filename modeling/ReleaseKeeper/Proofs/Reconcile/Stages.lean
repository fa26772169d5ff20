import ReleaseKeeper.Proofs.Program.Runs
import ReleaseKeeper.Reconcile.Basic

/-!
# Runs of stages

How runs of a list of stages come apart (`runs_runEach_append`), what writing the status is: one
call, with the status as it is and the generation of the instance (`runs_writeStatus`), and what
reconciling comes to: a teardown, a refusal, or a pass (`runs_reconcile`).
-/
namespace ReleaseKeeper

namespace Pass

open Operation

variable {σ : Type} {world : Program.World Call Call.Answer σ} {s s' : σ}
  {t : Program.Trace Call Call.Answer} {ctx : Context} {now : Timestamp} {p : Pass}
  {x : Except Error Pass}

/-- A run of stages ends within the first part or goes on with the second. -/
theorem runs_runEach_append {bs : List Stage} : ∀ (as : List Stage) {p : Pass} {s : σ}
    {t : Program.Trace Call Call.Answer}, Runs world (runEach ctx now (as ++ bs) p) s t x s' →
    (∃ e, x = .error e ∧ Runs world (runEach ctx now as p) s t (.error e) s') ∨
    ∃ q t₁ s₁ t₂, t = t₁ ++ t₂ ∧ Runs world (runEach ctx now as p) s t₁ (.ok q) s₁ ∧
      Runs world (runEach ctx now bs q) s₁ t₂ x s'
  | [], p, s, t, h => .inr ⟨p, [], s, t, rfl, runs_pure.2 ⟨rfl, rfl, rfl⟩, h⟩
  | stage :: rest, p, s, t, h => by
    obtain ⟨e, rfl, hstage⟩ | ⟨p₁, t₁, s₁, t₂, rfl, hstage, h⟩ := runs_bind.1 h
    · exact .inl ⟨e, rfl, runs_bind.2 (.inl ⟨e, rfl, hstage⟩)⟩
    · obtain ⟨e, rfl, hrest⟩ | ⟨q, t₃, s₂, t₄, rfl, hrest, h⟩ := runs_runEach_append rest h
      · exact .inl ⟨e, rfl, runs_bind.2 (.inr ⟨p₁, t₁, s₁, t₂, rfl, hstage, hrest⟩)⟩
      · refine .inr ⟨q, t₁ ++ t₃, s₂, t₄, by rw [List.append_assoc], ?_, h⟩
        exact runs_bind.2 (.inr ⟨p₁, t₁, s₁, t₃, rfl, hstage, hrest⟩)

/-! ## Writing the status -/

theorem runs_runEach_singleton {stage : Stage} :
    Runs world (runEach ctx now [stage] p) s t x s' ↔ Runs world (stage.run ctx now p) s t x s' := by
  refine runs_bind.trans ⟨?_, fun h => ?_⟩
  · rintro (⟨e, rfl, h⟩ | ⟨q, t₁, s₁, t₂, rfl, h, hend⟩)
    · exact h
    · obtain ⟨rfl, rfl, rfl⟩ := runs_pure.1 hend
      rwa [List.append_nil]
  · cases x with
    | error e => exact .inl ⟨e, rfl, h⟩
    | ok q => exact .inr ⟨q, t, s', [], by rw [List.append_nil], h, runs_pure.2 ⟨rfl, rfl, rfl⟩⟩

/-- Stages that come to their end all did. -/
theorem runs_runEach_cons_ok {stage : Stage} {rest : List Stage} {q : Pass}
    (h : Runs world (runEach ctx now (stage :: rest) p) s t (.ok q) s') :
    ∃ p₁ t₁ s₁ t₂, Runs world (stage.run ctx now p) s t₁ (.ok p₁) s₁ ∧
      Runs world (runEach ctx now rest p₁) s₁ t₂ (.ok q) s' := by
  obtain ⟨_, ⟨⟩, -⟩ | ⟨p₁, t₁, s₁, t₂, -, hstage, hrest⟩ := runs_bind.1 h
  exact ⟨p₁, t₁, s₁, t₂, hstage, hrest⟩

/-- The status as it is written: for the generation of the instance. -/
def stamped (p : Pass) : InstanceStatus :=
  { p.subject.currentStatus with observedGeneration := p.subject.metadata.generation }

def afterWrite (p : Pass) : Pass :=
  { p with subject := { p.subject with status := some p.stamped }, written := some p.stamped }

theorem runs_writeStatus :
    Runs world p.writeStatus s t x s' ↔
      ∃ a, t = [⟨.patchStatus p.subject.namespaceName p.subject.name p.stamped, a⟩] ∧
        world s (.patchStatus p.subject.namespaceName p.subject.name p.stamped) a s' ∧
        x = a.map fun _ => p.afterWrite :=
  runs_ask_map

/-- Failing an install never comes to a result. -/
theorem failInstall_ne_ok {α : Type} {e : Error} {y : α}
    (h : Runs world (p.failInstall now e) s t (.ok y) s') : False := by
  obtain ⟨_, ⟨⟩, -⟩ | ⟨_, t₁, s₁, t₂, rfl, -, hthrow⟩ := runs_bind.1 h
  obtain ⟨-, ⟨⟩, -⟩ := runs_throw.1 hthrow

end Pass

/-! ## Reconciling -/

open Operation

/-- Reconciling an instance that is marked for deletion is a teardown. -/
theorem runs_reconcile_deleting {σ : Type} {world : Program.World Call Call.Answer σ} {s s' : σ}
    {t : Program.Trace Call Call.Answer} {ctx : Context} {now : Timestamp} {i : Instance}
    {seen : Generations} {x : Except Error Action × Generations} (hdeleting : i.isDeleting = true)
    (h : Program.Runs world (reconcile ctx now i seen) s t x s') :
    ∃ y, Runs world (Teardown.finalize ctx i) s t y s' ∧ x.1 = y.map fun _ => .awaitChange := by
  rw [reconcile, if_pos hdeleting] at h
  obtain ⟨t₁, y, s₁, t₂, rfl, hfinalize, hend⟩ := Program.runs_bind_iff.1 h
  cases y <;> obtain ⟨rfl, rfl, rfl⟩ := Program.runs_done_iff.1 hend <;>
    exact ⟨_, by rwa [List.append_nil], rfl⟩

/-- An instance that is marked for deletion without waiting for it is forgotten, and no call is
made. -/
theorem reconcile_of_not_hasFinalizer {ctx : Context} {now : Timestamp} {i : Instance}
    {seen : Generations} (hdeleting : i.isDeleting = true) (hunbound : i.hasFinalizer = false) :
    reconcile ctx now i seen = pure (.ok .awaitChange, seen.forget i.key) := by
  have hidle : Teardown.finalize ctx i = pure () := by
    rw [Teardown.finalize, if_pos (Bool.eq_false_iff.1 hunbound)]
  rw [reconcile, if_pos hdeleting, hidle]
  rfl

/-- Reconciling an instance that is not refused is a pass. -/
theorem runs_reconcile_live {σ : Type} {world : Program.World Call Call.Answer σ} {s s' : σ}
    {t : Program.Trace Call Call.Answer} {ctx : Context} {now : Timestamp} {i : Instance}
    {seen seen' : Generations} {change : GenerationChange} {x : Except Error Action × Generations}
    (hlive : i.isDeleting = false)
    (hseen : seen.observe i.key (i.metadata.generation.getD 0) = .ok (change, seen'))
    (h : Program.Runs world (reconcile ctx now i seen) s t x s') :
    ∃ y, Runs world ((Pass.start i ctx.manifest).runAll ctx now) s t y s' ∧
      x = (y.map fun q => if q.isReady then .awaitChange else .requeue ctx.requeueSeconds, seen') := by
  rw [reconcile, if_neg (Bool.eq_false_iff.1 hlive), hseen] at h
  obtain ⟨t₁, y, s₁, t₂, rfl, hpass, hend⟩ := Program.runs_bind_iff.1 h
  obtain ⟨rfl, rfl, rfl⟩ := Program.runs_done_iff.1 hend
  rw [List.append_nil]
  obtain ⟨e, rfl, hall⟩ | ⟨q, t₁, s₁, t₂, rfl, hall, hend⟩ := runs_bind.1 hpass
  · exact ⟨_, hall, rfl⟩
  · obtain ⟨rfl, rfl, rfl⟩ := runs_pure.1 hend
    rw [List.append_nil]
    exact ⟨_, hall, rfl⟩

/-- What reconciling an instance comes to: a teardown, a refusal, or a pass. -/
theorem runs_reconcile {σ : Type} {world : Program.World Call Call.Answer σ} {s s' : σ}
    {t : Program.Trace Call Call.Answer} {ctx : Context} {now : Timestamp} {i : Instance}
    {seen : Generations} {x : Except Error Action × Generations}
    (h : Program.Runs world (reconcile ctx now i seen) s t x s') :
    (i.isDeleting = true ∧ ∃ y, Runs world (Teardown.finalize ctx i) s t y s') ∨
    (i.isDeleting = false ∧ t = [] ∧ s' = s ∧ ∃ e, x.1 = .error e) ∨
    (i.isDeleting = false ∧ ∃ y, Runs world ((Pass.start i ctx.manifest).runAll ctx now) s t y s' ∧
      x.1 = y.map fun q => if q.isReady then .awaitChange else .requeue ctx.requeueSeconds) := by
  by_cases hdeleting : i.isDeleting = true
  · obtain ⟨y, hfinalize, -⟩ := runs_reconcile_deleting hdeleting h
    exact .inl ⟨hdeleting, y, hfinalize⟩
  · have hlive : i.isDeleting = false := by simpa using hdeleting
    cases hseen : seen.observe i.key (i.metadata.generation.getD 0) with
    | error e =>
      rw [reconcile, if_neg hdeleting, hseen] at h
      obtain ⟨rfl, rfl, rfl⟩ := Program.runs_done_iff.1 h
      exact .inr (.inl ⟨hlive, rfl, rfl, e, rfl⟩)
    | ok found =>
      obtain ⟨y, hall, rfl⟩ := runs_reconcile_live hlive hseen h
      exact .inr (.inr ⟨hlive, y, hall, rfl⟩)

end ReleaseKeeper
