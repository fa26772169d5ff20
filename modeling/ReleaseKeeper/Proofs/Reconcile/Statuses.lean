import Mathlib.Control.Monad.Basic
import ReleaseKeeper.Cluster.Rehearsal
import ReleaseKeeper.Proofs.Instance.Conditions
import ReleaseKeeper.Proofs.Reconcile.Calls
import ReleaseKeeper.Proofs.Reconcile.Stages

/-!
# The statuses that a pass writes

A stage behind the first status either comes to its end and writes nothing, or fails and writes at
most one status, a coherent one (`Pass.Quiet`). A run of stages is as quiet as each of them
(`quiet_runEach`), and the check of the deployments leaves a coherent status however it found it
(`coherent_runEach`). So a pass writes at most a first and a last status, and it waits for a change
only if the last of them is ready (`reconcile_statuses`).
-/
namespace ReleaseKeeper

/-- The status that a call writes. -/
def Call.status? : Call → Option InstanceStatus
  | .patchStatus _ _ status => some status
  | _ => none

def statuses (t : Program.Trace Call Call.Answer) : List InstanceStatus :=
  t.filterMap fun e => e.1.status?

/-- A status that adds up, for the generation that it was found for. -/
structure InstanceStatus.Current (generation : Option Int) (status : InstanceStatus) : Prop where
  coherent : status.Coherent
  observed : status.observedGeneration = generation

theorem statuses_append (t t' : Program.Trace Call Call.Answer) :
    statuses (t ++ t') = statuses t ++ statuses t' :=
  List.filterMap_append

theorem statuses_eq_nil {t : Program.Trace Call Call.Answer} (h : ∀ e ∈ t, e.1.status? = none) :
    statuses t = [] :=
  List.filterMap_eq_nil_iff.2 h

theorem Call.OnCluster.status?_eq_none {c : Call} (h : c.OnCluster) : c.status? = none := by
  cases c <;> first | rfl | exact h.elim

open Operation

/-- What is about the cluster writes no status. -/
theorem silent {σ α : Type} {world : Program.World Call Call.Answer σ}
    {p : Operation.Steps α} {Q : α → Prop} {s s' : σ} {t : Program.Trace Call Call.Answer} {x : α}
    (h : p.Ensures Call.OnCluster Q) (hrun : Program.Runs world p s t x s') : statuses t = [] :=
  statuses_eq_nil fun e he => ((h.of_runs hrun).1 e he).status?_eq_none

namespace Pass

variable {σ : Type} {world : Program.World Call Call.Answer σ} {s s' : σ}
  {t t' : Program.Trace Call Call.Answer} {ctx : Context} {now : Timestamp} {p q : Pass}
  {x : Except Error Pass}

theorem statuses_writeStatus (h : Runs world p.writeStatus s t x s') :
    statuses t = [p.stamped] ∧ ∀ q, x = .ok q → q = p.afterWrite := by
  obtain ⟨a, rfl, -, rfl⟩ := runs_writeStatus.1 h
  refine ⟨rfl, fun q hq => ?_⟩
  cases a with
  | error e => cases hq
  | ok _ => exact (Except.ok.inj hq).symm

/-! ## Quiet stages -/

/-- The hooks of a pass are about the cluster. -/
def Confined (p : Pass) : Prop :=
  ∀ c ∈ p.contributions, ∀ h ∈ c.2.before ++ c.2.after, h.Makes Call.OnCluster

/-- Nothing but the status was changed, and it was not written. -/
structure Leads (p q : Pass) : Prop where
  written : q.written = p.written
  generation : q.subject.metadata.generation = p.subject.metadata.generation
  confined : q.Confined

/-- The way from a pass to an outcome wrote nothing but the status of a failure. -/
inductive Quiet (p : Pass) : Program.Trace Call Call.Answer → Except Error Pass → Prop
  | ended {t : Program.Trace Call Call.Answer} {q : Pass} (silent : statuses t = [])
      (leads : p.Leads q) : Quiet p t (.ok q)
  | failed {t : Program.Trace Call Call.Answer} {e : Error} (silent : statuses t = []) : Quiet p t (.error e)
  | told {t : Program.Trace Call Call.Answer} {e : Error} {status : InstanceStatus}
      (told : statuses t = [status])
      (current : status.Current p.subject.metadata.generation) : Quiet p t (.error e)

theorem Quiet.current (h : p.Quiet t x) :
    ∀ status ∈ statuses t, status.Current p.subject.metadata.generation := by
  cases h with
  | ended silent _ | failed silent => simp [silent]
  | told told current => simpa [told] using current

theorem Quiet.length_le (h : p.Quiet t x) : (statuses t).length ≤ 1 := by
  cases h with
  | ended silent _ | failed silent => simp [silent]
  | told told _ => simp [told]

theorem Quiet.leads (h : p.Quiet t x) (hx : x = .ok q) : statuses t = [] ∧ p.Leads q := by
  cases h with
  | ended silent leads =>
    obtain rfl := Except.ok.inj hx
    exact ⟨silent, leads⟩
  | failed | told => cases hx

theorem confined_start (i : Instance) (m : Manifest) : (start i m).Confined := by
  rintro c ⟨⟩

theorem Leads.refl (hp : p.Confined) : p.Leads p := ⟨rfl, rfl, hp⟩

theorem leads_mapStatus (hp : p.Confined) (f : InstanceStatus → InstanceStatus) :
    p.Leads (p.mapStatus f) := ⟨rfl, rfl, hp⟩

theorem Quiet.after_silence (hlead : p.subject.metadata.generation = q.subject.metadata.generation)
    (hwritten : p.written = q.written) (ht : statuses t = []) (h : q.Quiet t' x) :
    p.Quiet (t ++ t') x := by
  have happend : statuses (t ++ t') = statuses t' := by rw [statuses_append, ht, List.nil_append]
  cases h with
  | ended silent leads =>
    exact .ended (by rw [happend, silent])
      ⟨leads.written.trans hwritten.symm, leads.generation.trans hlead.symm, leads.confined⟩
  | failed silent => exact .failed (by rw [happend, silent])
  | told told current => exact .told (by rw [happend, told]) (hlead ▸ current)

theorem quiet_bind {op : Operation Pass} {f : Pass → Operation Pass}
    (h : Runs world (op >>= f) s t x s')
    (hop : ∀ {t₁ y s₁}, Runs world op s t₁ y s₁ → p.Quiet t₁ y)
    (hf : ∀ {q s₁ t₂}, q.Confined → Runs world (f q) s₁ t₂ x s' → q.Quiet t₂ x) :
    p.Quiet t x := by
  obtain ⟨e, rfl, hrun⟩ | ⟨q, t₁, s₁, t₂, rfl, hrun, hnext⟩ := runs_bind.1 h
  · cases hop hrun with
    | failed silent => exact .failed silent
    | told told current => exact .told told current
  · cases hop hrun with
    | ended silent leads =>
      exact (hf leads.confined hnext).after_silence leads.generation.symm leads.written.symm silent

/-- A failure whose status is written is told, if the status adds up. -/
theorem quiet_write_throw {α : Type} {e : Error} {f : InstanceStatus → InstanceStatus}
    {y : Except Error α} (hf : ∀ status, (f status).Coherent)
    (h : Runs world (do let _ ← (p.mapStatus f).writeStatus; throw e) s t y s') :
    (∃ e', y = .error e') ∧ ∀ e', p.Quiet t (.error e') := by
  have hcurrent : (p.mapStatus f).stamped.Current p.subject.metadata.generation :=
    ⟨hf _, rfl⟩
  obtain ⟨e', rfl, hwrite⟩ | ⟨_, t₁, s₁, t₂, rfl, hwrite, hthrow⟩ := runs_bind.1 h
  · exact ⟨⟨e', rfl⟩, fun _ => .told (statuses_writeStatus hwrite).1 hcurrent⟩
  · obtain ⟨rfl, rfl, rfl⟩ := runs_throw.1 hthrow
    rw [List.append_nil]
    exact ⟨⟨e, rfl⟩, fun _ => .told (statuses_writeStatus hwrite).1 hcurrent⟩

/-- Failing an install tells so, whatever became of the status meanwhile. -/
theorem quiet_failInstall {e : Error}
    (hgeneration : q.subject.metadata.generation = p.subject.metadata.generation)
    (ht : statuses t = []) (h : Runs world (q.failInstall now e) s t' x s') :
    p.Quiet (t ++ t') x := by
  obtain ⟨⟨e', rfl⟩, hquiet⟩ := quiet_write_throw
    (fun _ => InstanceStatus.mark_coherent (by decide) _ _ _ _ _) h
  have htrace : statuses (t ++ t') = statuses t' := by rw [statuses_append, ht, List.nil_append]
  cases hquiet e' with
  | failed silent => exact .failed (by rw [htrace, silent])
  | told told current => exact .told (by rw [htrace, told]) (hgeneration ▸ current)

theorem quiet_ensureFinalizer (hp : p.Confined) (h : Runs world p.ensureFinalizer s t x s') :
    p.Quiet t x := by
  rw [ensureFinalizer] at h
  split at h
  · obtain ⟨rfl, rfl, rfl⟩ := runs_pure.1 h
    exact .ended rfl (.refl hp)
  · obtain ⟨a, rfl, -, rfl⟩ := runs_ask_map.1 h
    cases a with
    | error e => exact .failed rfl
    | ok _ => exact .ended rfl ⟨rfl, rfl, hp⟩

theorem quiet_transform (hctx : ∀ f ∈ ctx.platforms, f.Confined)
    (h : Runs world (p.transform ctx now) s t x s') : p.Quiet t x := by
  obtain ⟨found, t₁, s₁, t₂, rfl, hdetect, hnext⟩ := runs_outcome_bind.1 h
  have hfound := Platform.ensures_detectAll hctx
  have ht₁ := silent hfound hdetect
  cases found with
  | error e => exact quiet_failInstall rfl ht₁ hnext
  | ok contributions =>
    dsimp only at hnext
    split at hnext
    · exact quiet_failInstall (q := { p with contributions }) rfl ht₁ hnext
    · obtain ⟨rfl, rfl, rfl⟩ := runs_pure.1 hnext
      rw [List.append_nil]
      exact .ended ht₁ ⟨rfl, rfl, (hfound.of_runs hdetect).2 _ rfl⟩

theorem quiet_install (hp : p.Confined) (h : Runs world (p.install ctx now) s t x s') :
    p.Quiet t x := by
  rw [install] at h
  split at h
  · obtain ⟨rfl, rfl, rfl⟩ := runs_pure.1 h
    exact .ended rfl (.refl hp)
  · obtain ⟨x₁, t₁, s₁, t₂, rfl, hbefore, h⟩ := runs_outcome_bind.1 h
    have ht₁ := silent (Contributions.ensures_runBefore fun c hc h hh =>
      hp c hc h (List.mem_append_left _ hh)) hbefore
    cases x₁ with
    | error e => exact quiet_failInstall rfl ht₁ h
    | ok _ =>
      obtain ⟨x₂, t₃, s₂, t₄, rfl, happly, h⟩ := runs_lift_bind.1 h
      have ht₃ := silent (Manifest.ensures_applyEach _) happly
      refine .after_silence (q := p) rfl rfl ht₁ ?_
      cases x₂ with
      | error f => exact quiet_failInstall (q := p.mapStatus _) rfl ht₃ h
      | ok applied =>
        obtain ⟨x₃, t₅, s₃, t₆, rfl, hafter, h⟩ := runs_outcome_bind.1 h
        have ht₅ := silent (Contributions.ensures_runAfter fun c hc h hh =>
          hp c hc h (List.mem_append_right _ hh)) hafter
        refine .after_silence (q := p) rfl rfl ht₃ ?_
        cases x₃ with
        | error e => exact quiet_failInstall (q := p.mapStatus _) rfl ht₅ h
        | ok _ =>
          obtain ⟨rfl, rfl, rfl⟩ := runs_pure.1 h
          rw [List.append_nil]
          exact .ended ht₅ ⟨rfl, rfl, hp⟩

/-- The check of the deployments leaves a status that adds up. -/
theorem quiet_checkEach (hp : p.Confined) : ∀ {rs : List Resource} {s : σ}
    {t : Program.Trace Call Call.Answer}, Runs world (checkEach now p rs) s t x s' →
    p.Quiet t x ∧ ∀ q, x = .ok q → ∃ status, q.subject.status = some status ∧ status.Coherent
  | [], s, t, h => by
    obtain ⟨rfl, rfl, rfl⟩ := runs_pure.1 h
    refine ⟨.ended rfl (leads_mapStatus hp _), ?_⟩
    rintro _ ⟨⟩
    exact ⟨_, rfl, InstanceStatus.mark_coherent (by decide) _ _ _ _ _⟩
  | r :: rest, s, t, h => by
    obtain ⟨available, t₁, s₁, t₂, rfl, hask, h⟩ := runs_outcome_bind.1 h
    have ht₁ := silent (ensures_isDeploymentAvailable (fun _ => trivial) r) hask
    match available, h with
    | .error e, h =>
      obtain ⟨⟨e', rfl⟩, hquiet⟩ := quiet_write_throw
        (fun _ => InstanceStatus.mark_coherent (by decide) _ _ _ _ _) h
      exact ⟨.after_silence rfl rfl ht₁ (hquiet e'), by rintro _ ⟨⟩⟩
    | .ok false, h =>
      obtain ⟨rfl, rfl, rfl⟩ := runs_pure.1 h
      refine ⟨.after_silence rfl rfl ht₁ (.ended rfl (leads_mapStatus hp _)), ?_⟩
      rintro _ ⟨⟩
      exact ⟨_, rfl, InstanceStatus.mark_coherent (by decide) _ _ _ _ _⟩
    | .ok true, h =>
      obtain ⟨hquiet, hcoherent⟩ := quiet_checkEach hp h
      exact ⟨.after_silence rfl rfl ht₁ hquiet, hcoherent⟩

theorem runs_deleteObsolete (h : Runs world p.deleteObsolete s t x s') :
    statuses t = [] ∧ ((∃ e, x = .error e) ∨ x = .ok p) := by
  obtain ⟨e, rfl, hdelete⟩ | ⟨_, t₁, s₁, t₂, rfl, hdelete, hend⟩ := runs_bind.1 h
  · exact ⟨silent (Obsolete.ensures_deleteEach (fun _ => trivial) _) hdelete, .inl ⟨e, rfl⟩⟩
  · obtain ⟨rfl, rfl, rfl⟩ := runs_pure.1 hend
    rw [List.append_nil]
    exact ⟨silent (Obsolete.ensures_deleteEach (fun _ => trivial) _) hdelete, .inr rfl⟩

/-- Every stage but the first status is quiet. -/
theorem quiet_stage (hctx : ∀ f ∈ ctx.platforms, f.Confined) (hp : p.Confined) {stage : Stage}
    (hstage : stage ≠ .initStatus) (h : Runs world (stage.run ctx now p) s t x s') :
    p.Quiet t x := by
  cases stage with
  | ensureFinalizer => exact quiet_ensureFinalizer hp h
  | initStatus => exact absurd rfl hstage
  | transform => exact quiet_transform hctx h
  | install => exact quiet_install hp h
  | checkDeployments => exact (quiet_checkEach hp h).1
  | deleteObsolete =>
    obtain ⟨ht, ⟨e, rfl⟩ | rfl⟩ := runs_deleteObsolete h
    · exact .failed ht
    · exact .ended ht (.refl hp)

/-! ## Runs of stages -/

theorem quiet_runEach (hctx : ∀ f ∈ ctx.platforms, f.Confined) : ∀ {stages : List Stage} {p : Pass}
    {s : σ} {t : Program.Trace Call Call.Answer}, p.Confined →
    (∀ stage ∈ stages, stage ≠ .initStatus) →
    Runs world (runEach ctx now stages p) s t x s' → p.Quiet t x
  | [], p, s, t, hp, _, h => by
    obtain ⟨rfl, rfl, rfl⟩ := runs_pure.1 h
    exact .ended rfl (.refl hp)
  | stage :: rest, p, s, t, hp, hstages, h => by
    obtain ⟨hstage, hrest⟩ := List.forall_mem_cons.1 hstages
    exact quiet_bind h (quiet_stage hctx hp hstage) fun hq => quiet_runEach hctx hq hrest

/-- However stages came to the check of the deployments, it leaves a status that adds up. -/
theorem coherent_runEach (hctx : ∀ f ∈ ctx.platforms, f.Confined) (hp : p.Confined)
    (front : List Stage) (hfront : ∀ stage ∈ front, stage ≠ .initStatus)
    (h : Runs world (runEach ctx now (front ++ [.checkDeployments, .deleteObsolete]) p) s t (.ok q)
      s') :
    ∃ status, q.subject.status = some status ∧ status.Coherent := by
  obtain ⟨_, ⟨⟩, -⟩ | ⟨p₁, t₁, s₁, t₂, rfl, hrun, h⟩ := runs_runEach_append front h
  obtain ⟨_, ⟨⟩, -⟩ | ⟨p₂, t₃, s₂, t₄, rfl, hcheck, h⟩ := runs_bind.1 h
  obtain ⟨-, ⟨e, ⟨⟩⟩ | hq⟩ := runs_deleteObsolete (runs_runEach_singleton.1 h)
  obtain rfl := Except.ok.inj hq
  exact (quiet_checkEach ((quiet_runEach hctx hp hfront hrun).leads rfl).2.confined hcheck).2 q rfl

/-- The first status is written only where there is none, and it adds up. -/
theorem runs_initStatus (h : Runs world (p.initStatus now) s t x s') :
    (statuses t = [] ∧ x = .ok p) ∨
    ∃ status, statuses t = [status] ∧ status.Current p.subject.metadata.generation ∧
      ∀ q, x = .ok q → q = { p with subject := q.subject, written := some status } ∧
        q.subject = { p.subject with status := some status } := by
  rw [initStatus] at h
  split at h
  · obtain ⟨rfl, rfl, rfl⟩ := runs_pure.1 h
    exact .inl ⟨rfl, rfl⟩
  · obtain ⟨ht, hwrite⟩ := statuses_writeStatus h
    refine .inr ⟨_, ht, ⟨InstanceStatus.complete_coherent _ _, rfl⟩, fun q hq => ?_⟩
    rw [hwrite q hq]
    exact ⟨rfl, rfl⟩

/-- The first two stages write at most one status, which then is the one that was written last. -/
theorem runs_front (hp : p.Confined)
    (h : Runs world (runEach ctx now [.ensureFinalizer, .initStatus] p) s t x s') :
    (∀ status ∈ statuses t, status.Current p.subject.metadata.generation) ∧
      (statuses t).length ≤ 1 ∧ ∀ q, x = .ok q →
        q.written = (statuses t).getLast?.or p.written ∧
        q.subject.metadata.generation = p.subject.metadata.generation ∧ q.Confined := by
  obtain ⟨e, rfl, hfirst⟩ | ⟨p₁, t₁, s₁, t₂, rfl, hfirst, h⟩ := runs_bind.1 h
  · have hquiet := quiet_ensureFinalizer hp hfirst
    exact ⟨hquiet.current, hquiet.length_le, by rintro _ ⟨⟩⟩
  obtain ⟨ht₁, hwritten, hgeneration, hp₁⟩ := (quiet_ensureFinalizer hp hfirst).leads rfl
  rw [statuses_append, ht₁, List.nil_append, ← hwritten, ← hgeneration]
  obtain ⟨ht₂, rfl⟩ | ⟨status, ht₂, hcurrent, hnext⟩ :=
    runs_initStatus (runs_runEach_singleton.1 h)
  · rw [ht₂]
    refine ⟨by simp, by simp, ?_⟩
    rintro _ ⟨⟩
    exact ⟨rfl, rfl, hp₁⟩
  · rw [ht₂]
    refine ⟨by simpa using hcurrent, by simp, fun q hq => ?_⟩
    obtain ⟨hq, hsubject⟩ := hnext q hq
    refine ⟨by rw [hq]; rfl, by rw [hsubject], ?_⟩
    rw [hq]
    exact hp₁

/-- Up to its last stage a pass writes at most one status and, where it fails, one more; the status
that it has found adds up in the end. -/
theorem runs_stages (hctx : ∀ f ∈ ctx.platforms, f.Confined) (hp : p.Confined)
    (h : Runs world (runEach ctx now Stage.all p) s t x s') :
    (∀ status ∈ statuses t, status.Current p.subject.metadata.generation) ∧
      (statuses t).length ≤ 2 ∧ ∀ q, x = .ok q →
        (statuses t).length ≤ 1 ∧ q.written = (statuses t).getLast?.or p.written ∧
        q.subject.metadata.generation = p.subject.metadata.generation ∧
        ∃ status, q.subject.status = some status ∧ status.Coherent := by
  obtain ⟨e, rfl, hfront⟩ | ⟨p₁, t₁, s₁, t₂, rfl, hfront, hback⟩ :=
    runs_runEach_append [.ensureFinalizer, .initStatus] h
  · obtain ⟨hcurrent, hlength, -⟩ := runs_front hp hfront
    exact ⟨hcurrent, by omega, by rintro _ ⟨⟩⟩
  · obtain ⟨hcurrent, hlength, hnext⟩ := runs_front hp hfront
    obtain ⟨hwritten, hgeneration, hp₁⟩ := hnext p₁ rfl
    have hquiet := quiet_runEach hctx hp₁ (by decide) hback
    have hrest := hquiet.length_le
    rw [statuses_append, List.length_append, List.forall_mem_append]
    refine ⟨⟨hcurrent, hgeneration ▸ hquiet.current⟩, by omega, ?_⟩
    rintro q rfl
    obtain ⟨ht₂, hleads⟩ := hquiet.leads rfl
    have hcoherent := coherent_runEach hctx hp₁ [.transform, .install] (by decide) hback
    rw [ht₂, List.append_nil, List.length_nil, Nat.add_zero, ← hwritten, ← hgeneration]
    exact ⟨hlength, hleads.written, hleads.generation, hcoherent⟩

/-- **What a pass writes.** At most two statuses, both coherent; and where it comes to its end, the
last of them, or the stored one if none was written, is the status that it found. -/
theorem runs_runAll (hctx : ∀ f ∈ ctx.platforms, f.Confined) (hp : p.Confined)
    (h : Runs world (p.runAll ctx now) s t x s') :
    (∀ status ∈ statuses t, status.Current p.subject.metadata.generation) ∧
      (statuses t).length ≤ 2 ∧ ∀ q, x = .ok q → ∃ status,
        (statuses t).getLast?.or p.written = some status ∧ q.subject.status = some status ∧
        status.Coherent := by
  obtain ⟨e, rfl, hall⟩ | ⟨q, t₁, s₁, t₂, rfl, hall, hend⟩ := runs_bind.1 h
  · obtain ⟨hcurrent, hlength, -⟩ := runs_stages hctx hp hall
    exact ⟨hcurrent, hlength, by rintro _ ⟨⟩⟩
  · obtain ⟨hcurrent, -, hnext⟩ := runs_stages hctx hp hall
    obtain ⟨hlength, hwritten, hgeneration, status, hstatus, hcoherent⟩ := hnext q rfl
    rw [statuses_append]
    split at hend
    · -- only the generation of the status changes as it is written
      obtain ⟨ht₂, hwrite⟩ := statuses_writeStatus hend
      have hstamped : q.stamped = { status with
          observedGeneration := p.subject.metadata.generation } := by
        rw [stamped, Instance.currentStatus, hstatus, hgeneration]
        rfl
      have hnew : q.stamped.Coherent := by
        rw [hstamped]
        exact hcoherent
      rw [ht₂, List.length_append, List.forall_mem_append, List.getLast?_concat]
      refine ⟨⟨hcurrent, by simpa using ⟨hnew, by rw [hstamped]⟩⟩, by simpa using hlength, ?_⟩
      intro q' hq'
      rw [hwrite q' hq']
      exact ⟨_, rfl, rfl, hnew⟩
    · next hunwritten =>
      obtain ⟨rfl, rfl, rfl⟩ := runs_pure.1 hend
      have hsame : q.subject.status = q.written := by
        simp only [isUnwritten, Bool.or_eq_true, decide_eq_true_eq, not_or,
          Decidable.not_not] at hunwritten
        exact hunwritten.1
      rw [show statuses ([] : Program.Trace Call Call.Answer) = [] from rfl, List.append_nil,
        ← hwritten, ← hsame]
      refine ⟨hcurrent, by omega, ?_⟩
      rintro _ ⟨⟩
      exact ⟨status, hstatus, hstatus, hcoherent⟩

end Pass

/-! ## Reconciling -/

/-- Tearing down writes no status. -/
theorem Teardown.silent_finalize (ctx : Context) (i : Instance) :
    (Teardown.finalize ctx i).Ensures (fun c => c.status? = none) fun _ => True :=
  Teardown.ensures_finalize (P := fun c => c.status? = none) (fun _ => rfl) (fun _ => rfl) rfl
    (fun _ _ _ => rfl) ctx i

/-- **Every status that a pass writes is coherent.** Whatever the calls are answered, from whatever
status on: each says what its conditions come to, for the generation of the instance; there are at
most two; and an instance that is not being deleted waits for a change only if the status written
last, or the stored one if none was written, is ready with the release installed and available. -/
theorem reconcile_statuses {σ : Type} (handle : Program.Handler Call Call.Answer σ) (s : σ)
    {ctx : Context} (hctx : ∀ f ∈ ctx.platforms, f.Confined) (now : Timestamp) (i : Instance)
    (seen : Generations) :
    let t := Program.calls handle (reconcile ctx now i seen) s
    let outcome := (Program.run handle (reconcile ctx now i seen) s).1.1
    (∀ status ∈ statuses t,
      status.Coherent ∧ status.observedGeneration = i.metadata.generation) ∧
    (statuses t).length ≤ 2 ∧
    (i.isDeleting = false → outcome = .ok .awaitChange →
      ∃ status, (statuses t).getLast?.or i.status = some status ∧
        status.isReady = true ∧ status.isInstalled = true ∧ status.isAvailable = true) := by
  intro t
  have h := Program.runs_handler handle (reconcile ctx now i seen) s
  change Program.Runs _ _ _ t _ _ at h
  generalize Program.run handle (reconcile ctx now i seen) s = ran at h
  intro outcome
  obtain ⟨hdeleting, y, hfinalize⟩ | ⟨-, ht, -, e, hrefused⟩ | ⟨-, y, hall, houtcome⟩ :=
    runs_reconcile h
  · have ht := statuses_eq_nil ((Teardown.silent_finalize ctx i).of_runs hfinalize).1
    rw [ht]
    exact ⟨by simp, by simp, fun hlive => by rw [hdeleting] at hlive; cases hlive⟩
  · have ht : statuses t = [] := by rw [ht]; rfl
    rw [ht]
    exact ⟨by simp, by simp, fun _ hawait => by cases hrefused.symm.trans hawait⟩
  · obtain ⟨hcurrent, hlength, hnext⟩ := Pass.runs_runAll hctx (Pass.confined_start i _) hall
    refine ⟨fun status hs => ⟨(hcurrent status hs).coherent, (hcurrent status hs).observed⟩,
      hlength, fun _ hawait => ?_⟩
    rw [show outcome = _ from houtcome] at hawait
    cases y with
    | error e => cases hawait
    | ok q =>
      obtain ⟨status, hlast, hstatus, hcoherent⟩ := hnext q rfl
      have hready : status.isReady = true := by
        cases hq : q.isReady with
        | true => simpa [Pass.isReady, hstatus] using hq
        | false => simp [Except.map, hq] at hawait
      exact ⟨status, hlast, hready, hcoherent.isReady_iff.1 hready⟩

/-- A stored status that contradicts itself, of a release without resources. -/
theorem reconcile_statuses_contradictory :
    let now : Timestamp := ⟨2020, 2, 29, 12, 0, 0, 0⟩
    let i : Instance := {
      metadata := {
        finalizers := some [Instance.finalizer], generation := some 3, name := some "serving"
        namespaceName := some "n", uid := some "u" }
      spec := {}
      status := some { conditions := [
        ⟨installSucceeded, .true, "", "", now⟩,
        ⟨"Ready", .false, "NotReady", "", now⟩,
        ⟨installSucceeded, .false, "Error", "", now⟩] } }
    let ctx : Context := { manifest := [], platforms := [Platform.openShift, Platform.minikube] }
    let w : Rehearsal := { instances := InstanceStore.put i [] }
    let t := Program.calls Rehearsal.answer (reconcile ctx now i []) w
    (∀ f ∈ ctx.platforms, f.Confined) ∧
      (Program.run Rehearsal.answer (reconcile ctx now i []) w).1.1 = .ok .awaitChange ∧
      (∀ status ∈ statuses t, status.Coherent) ∧
      ∃ status, (statuses t).getLast?.or i.status = some status ∧ status.isReady = true := by
  intro now i ctx w t
  have hctx : ∀ f ∈ ctx.platforms, f.Confined := by
    rintro f (_ | ⟨_, _ | ⟨_, ⟨⟩⟩⟩)
    · exact Platform.confined_openShift
    · exact Platform.confined_minikube
  have hawait : (Program.run Rehearsal.answer (reconcile ctx now i []) w).1.1 =
      .ok .awaitChange := by decide +kernel
  obtain ⟨hcurrent, -, hlast⟩ := reconcile_statuses Rehearsal.answer w hctx now i []
  obtain ⟨status, hstatus, hready, -⟩ := hlast rfl hawait
  exact ⟨hctx, hawait, fun status hs => (hcurrent status hs).1, status, hstatus, hready⟩

end ReleaseKeeper
