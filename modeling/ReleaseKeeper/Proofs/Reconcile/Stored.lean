import ReleaseKeeper.Proofs.Api.Instances
import ReleaseKeeper.Proofs.Reconcile.Written

/-!
# What is stored of the statuses of a pass

A pass keeps a status in memory and has it written, and goes on as if what it wrote were what is
stored. All that it writes is read back as it was written (`InstanceStatus.Continues`), but it is
merged into what is there: applied resources that an earlier pass left stay stored when a pass that
applied none writes its status, as one does whose first object cannot be applied
(`reconcile_stores`).
-/
namespace ReleaseKeeper

open Operation

/-! ## What every status of a pass has -/

/-- What a pass may make of the status that it found: one that can be stored, and that names a
version if that one did. -/
structure InstanceStatus.Continues (found s : InstanceStatus) : Prop where
  times : ∀ c ∈ s.conditions, c.lastTransitionTime.Valid
  version : s.version = none → found.version = none

theorem InstanceStatus.kept_continues {found : InstanceStatus} {now : Timestamp} (hnow : now.Valid)
    (generation : Option Int) : InstanceStatus.Kept now generation found.Continues where
  complete h := ⟨servingConditions.times_complete hnow h.times, h.version⟩
  mark type status reason message h :=
    ⟨servingConditions.times_mark hnow h.times type status reason message, h.version⟩
  applied _ h := ⟨h.times, h.version⟩
  installed _ h := ⟨h.times, by rintro ⟨⟩⟩
  observed h := ⟨h.times, h.version⟩

namespace Pass

variable {σ : Type} {world : Program.World Call Call.Answer σ} {s s' : σ}
  {t : Program.Trace Call Call.Answer} {ctx : Context} {now : Timestamp} {p q : Pass}
  {x : Except Error Pass}

/-! ## The first of two statuses -/

/-- What is written before the release is looked at repeats what was applied and installed. -/
theorem runs_front_ok (hp : p.Confined)
    (h : Runs world (runEach ctx now [.ensureFinalizer, .initStatus] p) s t (.ok q) s') :
    ∀ first ∈ statuses t, first.resources = p.subject.currentStatus.resources ∧
      first.version = p.subject.currentStatus.version := by
  obtain ⟨_, ⟨⟩, -⟩ | ⟨p₁, t₁, s₁, t₂, rfl, hfirst, h⟩ := runs_bind.1 h
  obtain ⟨ht₁, -⟩ := (quiet_ensureFinalizer hp hfirst).leads rfl
  have hon : p.On p.subject (· = p.subject.currentStatus) := ⟨rfl, rfl, rfl, hp⟩
  have hsame := (((ensures_ensureFinalizer hon).of_runs hfirst).2 p₁ rfl).status
  rw [statuses_append, ht₁, List.nil_append]
  have hinit : Runs world (p₁.initStatus now) s₁ t₂ (.ok q) s' := runs_runEach_singleton.1 h
  rw [initStatus] at hinit
  split at hinit
  · obtain ⟨rfl, -, -⟩ := runs_pure.1 hinit
    simp [statuses]
  · rw [(statuses_writeStatus hinit).1, List.forall_mem_singleton, ← hsame]
    exact ⟨rfl, rfl⟩

/-- Behind the first status a pass writes at most one. -/
theorem runs_back (hctx : ∀ f ∈ ctx.platforms, f.Confined) (hp : p.Confined)
    (h : Runs world (runEach ctx now
      [.transform, .install, .checkDeployments, .deleteObsolete] p >>= fun q =>
        if q.isUnwritten then q.writeStatus else return q) s t x s') :
    (statuses t).length ≤ 1 := by
  obtain ⟨e, rfl, hback⟩ | ⟨q, t₁, s₁, t₂, rfl, hback, hend⟩ := runs_bind.1 h
  · exact (quiet_runEach hctx hp (by decide) hback).length_le
  · obtain ⟨ht₁, -⟩ := (quiet_runEach hctx hp (by decide) hback).leads rfl
    rw [statuses_append, ht₁, List.nil_append]
    split at hend
    · rw [(statuses_writeStatus hend).1]
      exact Nat.le_refl 1
    · obtain ⟨rfl, -, -⟩ := runs_pure.1 hend
      exact Nat.zero_le _

/-- A pass is what comes up to the first status, and the rest. -/
theorem runs_runAll_bind (h : Runs world (p.runAll ctx now) s t x s') :
    Runs world (runEach ctx now [.ensureFinalizer, .initStatus] p >>= fun p =>
      runEach ctx now [.transform, .install, .checkDeployments, .deleteObsolete] p >>= fun q =>
        if q.isUnwritten then q.writeStatus else return q) s t x s' := by
  obtain ⟨e, rfl, hall⟩ | ⟨q, t₁, s₁, t₂, rfl, hall, hend⟩ := runs_bind.1 h
  · obtain ⟨_, ⟨⟩, hfront⟩ | ⟨p₁, t₁, s₁, t₂, rfl, hfront, hback⟩ :=
      runs_runEach_append [.ensureFinalizer, .initStatus] hall
    · exact runs_bind.2 (.inl ⟨e, rfl, hfront⟩)
    · exact runs_bind.2 (.inr ⟨p₁, t₁, s₁, t₂, rfl, hfront, runs_bind.2 (.inl ⟨e, rfl, hback⟩)⟩)
  · obtain ⟨_, ⟨⟩, -⟩ | ⟨p₁, t₃, s₂, t₄, rfl, hfront, hback⟩ :=
      runs_runEach_append [.ensureFinalizer, .initStatus] hall
    refine runs_bind.2 (.inr ⟨p₁, t₃, s₂, t₄ ++ t₂, List.append_assoc .., hfront, ?_⟩)
    exact runs_bind.2 (.inr ⟨q, t₄, s₁, t₂, rfl, hback, hend⟩)

/-- Of two statuses that a pass writes, the first repeats what was applied and installed. -/
theorem runs_runAll_first (hctx : ∀ f ∈ ctx.platforms, f.Confined) (hp : p.Confined)
    (h : Runs world (p.runAll ctx now) s t x s') {first status : InstanceStatus}
    {later : List InstanceStatus} (ht : statuses t = first :: status :: later) :
    first.resources = p.subject.currentStatus.resources ∧
      first.version = p.subject.currentStatus.version := by
  obtain ⟨e, rfl, hfront⟩ | ⟨q, t₁, s₁, t₂, rfl, hfront, hback⟩ := runs_bind.1 (runs_runAll_bind h)
  · have hlength := (runs_front hp hfront).2.1
    rw [ht] at hlength
    simp at hlength
  · have hrest := runs_back hctx ((runs_front hp hfront).2.2 q rfl).2.2 hback
    rw [statuses_append] at ht
    cases hfirst : statuses t₁ with
    | nil =>
      rw [hfirst, List.nil_append] at ht
      rw [ht] at hrest
      simp at hrest
    | cons written _ =>
      rw [hfirst, List.cons_append] at ht
      obtain ⟨rfl, -⟩ := List.cons.inj ht
      exact runs_front_ok hp hfront written (hfirst ▸ List.mem_cons_self)

/-- Before a status a pass writes none, or one that repeats what was applied and installed. -/
theorem runs_runAll_before (hctx : ∀ f ∈ ctx.platforms, f.Confined) (hp : p.Confined)
    (h : Runs world (p.runAll ctx now) s t x s') {before : List InstanceStatus}
    {status : InstanceStatus} (hbegins : before ++ [status] <+: statuses t) :
    before = [] ∨ ∃ first, before = [first] ∧
      first.resources = p.subject.currentStatus.resources ∧
      first.version = p.subject.currentStatus.version := by
  have hlength := Nat.le_trans hbegins.length_le (runs_runAll hctx hp h).2.1
  obtain ⟨later, ht⟩ := hbegins
  match before with
  | [] => exact .inl rfl
  | [first] => exact .inr ⟨first, rfl, runs_runAll_first hctx hp h ht.symm⟩
  | _ :: _ :: _ => simp at hlength

/-- Every status that a pass writes is for the generation of its instance, and can be stored over the
status that it found. -/
theorem runs_runAll_continues (hctx : ∀ f ∈ ctx.platforms, f.Confined) (hnow : now.Valid)
    {i : Instance} (htimes : ∀ c ∈ i.currentStatus.conditions, c.lastTransitionTime.Valid)
    (h : Runs world ((start i ctx.manifest).runAll ctx now) s t x s') :
    ∀ status ∈ statuses t, i.currentStatus.Continues status ∧
      status.observedGeneration = i.metadata.generation := by
  have hstart := on_start (P := i.currentStatus.Continues) ctx.manifest ⟨htimes, id⟩
  have hcalls := ((ensures_runAll (InstanceStatus.kept_continues hnow _) hctx hstart).of_runs h).1
  have hcurrent := (runs_runAll hctx (confined_start i ctx.manifest) h).1
  intro status hstatus
  refine ⟨?_, (hcurrent status hstatus).observed⟩
  obtain ⟨e, he, hwritten⟩ := List.mem_filterMap.1 hstatus
  obtain hcluster | ⟨_, hpatch, hcontinues⟩ | hfinalizer := Call.ofPass_cases (hcalls e he)
  · rw [hcluster.status?_eq_none] at hwritten
    cases hwritten
  · rw [hpatch] at hwritten
    obtain rfl := Option.some.inj hwritten
    exact hcontinues
  · rw [hfinalizer] at hwritten
    cases hwritten

end Pass

/-! ## Storing them -/

/-- A status over one that repeats what was applied and installed is as if over what was there. -/
theorem InstanceStatus.onto_onto {stored first status : InstanceStatus}
    (hresources : first.resources = stored.resources) (hversion : first.version = stored.version)
    (hgeneration : first.observedGeneration = status.observedGeneration) :
    status.onto (first.onto stored) = status.onto stored := by
  simp only [onto, hresources, hversion, hgeneration]
  cases status.observedGeneration <;> cases status.version <;> simp

/-- **What is stored of the statuses of a pass.** Whatever the calls are answered, once a status was
merged into the stored object behind those before it, the instance is read back with that status
over the one that the pass found. It is the status that was written exactly if it leaves out nothing
that was there: no applied resources where some had been applied, and no generation where the
instance has none but its status had. -/
theorem reconcile_stores {σ : Type} (handle : Program.Handler Call Call.Answer σ) (s : σ)
    {ctx : Context} (hctx : ∀ f ∈ ctx.platforms, f.Confined) {now : Timestamp} (hnow : now.Valid)
    {x : Json} {i : Instance} (hstored : Stored x i) (seen : Generations)
    {before : List InstanceStatus} {status : InstanceStatus}
    (hwritten : before ++ [status] <+: statuses (Program.calls handle (reconcile ctx now i seen) s)) :
    Instance.ofJson ((before ++ [status]).foldl
        (fun x status => (Api.Instances.statusChange status).patch x) x) =
      .ok { i with status := some (status.onto i.currentStatus) } ∧
    (status.onto i.currentStatus = status ↔
      (status.resources = [] → i.currentStatus.resources = []) ∧
      (i.metadata.generation = none → i.currentStatus.observedGeneration = none)) := by
  have h := Program.runs_handler handle (reconcile ctx now i seen) s
  change Program.Runs _ _ _ (Program.calls handle (reconcile ctx now i seen) s) _ _ at h
  generalize Program.calls handle (reconcile ctx now i seen) s = t at h hwritten
  obtain ⟨-, y, hfinalize⟩ | ⟨-, ht, -⟩ | ⟨-, y, hall, -⟩ := runs_reconcile h
  · rw [statuses_eq_nil ((Teardown.silent_finalize ctx i).of_runs hfinalize).1] at hwritten
    exact absurd hwritten.length_le (by simp)
  · rw [ht] at hwritten
    exact absurd hwritten.length_le (by simp [statuses])
  have hcontinues : ∀ status' ∈ before ++ [status], i.currentStatus.Continues status' ∧
      status'.observedGeneration = i.metadata.generation := fun status' h' =>
    Pass.runs_runAll_continues hctx hnow hstored.times hall status' (hwritten.subset h')
  have hstorable : ∀ status' ∈ before ++ [status], status'.Storable := fun status' h' =>
    ⟨(hcontinues status' h').1.times, (hcontinues status' h').2 ▸ hstored.generation⟩
  obtain ⟨hlast, hobserved⟩ := hcontinues status (by simp)
  constructor
  · rw [(hstored.changes hstorable).read]
    obtain rfl | ⟨first, rfl, hresources, hversion⟩ :=
      Pass.runs_runAll_before hctx (Pass.confined_start i ctx.manifest) hall hwritten
    · rfl
    · have hgeneration := (hcontinues first (by simp)).2.trans hobserved.symm
      have honto : status.onto (first.onto i.currentStatus) = status.onto i.currentStatus :=
        InstanceStatus.onto_onto hresources hversion hgeneration
      rw [← honto]
      rfl
  · rw [InstanceStatus.onto_eq_iff, hobserved]
    exact and_iff_right hlast.version

/-! ## A status that is not stored as it was written -/

namespace Stale

/-- A condition that holds, as it is stored. -/
def holding (type : String) : Json := .obj [
  ("lastTransitionTime", .str "1970-01-01T00:00:00Z"), ("status", .str "True"), ("type", .str type)]

/-- The stored object of an instance that was changed after a config map was applied for it. -/
def object : Json := .obj [
  ("apiVersion", .str "operator.knative.dev/v1alpha1"),
  ("kind", .str "KnativeServing"),
  ("metadata", .obj [
    ("finalizers", .arr [.str "delete-knative-serving-manifest"]), ("generation", .int 2),
    ("name", .str "serving"), ("namespace", .str "n"), ("uid", .str "u")]),
  ("spec", .obj []),
  ("status", .obj [
    ("conditions", .arr [holding "InstallSucceeded", holding "DeploymentsAvailable", holding "Ready"]),
    ("observedGeneration", .int 1),
    ("resources", .arr [.obj [("group", .str ""), ("kind", .str "ConfigMap"),
      ("name", .str "config"), ("namespace", .str "n"), ("version", .str "v1")]]),
    ("version", .str "0.13.0")])]

/-- The time of the stored conditions, and of the pass. -/
def epoch : Timestamp := ⟨1970, 1, 1, 0, 0, 0, 0⟩

def found : InstanceStatus where
  version := some "0.13.0"
  resources := [⟨"", "v1", "ConfigMap", some "n", "config"⟩]
  conditions := [⟨installSucceeded, .true, "", "", epoch⟩,
    ⟨deploymentsAvailable, .true, "", "", epoch⟩, ⟨"Ready", .true, "", "", epoch⟩]
  observedGeneration := some 1

def serving : Instance where
  metadata := {
    finalizers := some [Instance.finalizer], generation := some 2, name := some "serving"
    namespaceName := some "n", uid := some "u" }
  spec := {}
  status := some found

def context : Context where
  manifest := [⟨[("apiVersion", .str "v1"), ("kind", .str "ConfigMap"),
    ("metadata", .obj [("name", .str "config")])]⟩]

/-- A cluster in which the config map is missing, and is then created by someone else. -/
def world : Rehearsal where
  instances := [(serving.identity, serving)]
  outages := [{ verb := "create", error := .conflict "ConfigMap" "ConfigMap n/config" "already exists" }]

/-- The status that a pass writes that could not apply the config map. -/
def failed : InstanceStatus :=
  { found.markInstallFailed epoch
      ("apply of ConfigMap n/config failed: " ++
        "conflict on ConfigMap ConfigMap n/config: already exists") with
    resources := [], observedGeneration := some 2 }

theorem valid_epoch : epoch.Valid where
  told := rfl
  dated := ⟨by decide, by decide⟩
  timed := ⟨by decide, by decide, by decide, by decide⟩

theorem stored : Stored object serving := ⟨rfl, rfl, rfl⟩

theorem written :
    statuses (Program.calls Rehearsal.answer (reconcile context epoch serving []) world) =
      [failed] := by
  decide +kernel

end Stale

/-- The config map counts as applied by a pass that applied nothing. -/
theorem reconcile_stores_failed :
    Instance.ofJson ((Api.Instances.statusChange Stale.failed).patch Stale.object) =
      .ok { Stale.serving with status := some (Stale.failed.onto Stale.found) } ∧
    (Stale.failed.onto Stale.found).resources = [⟨"", "v1", "ConfigMap", some "n", "config"⟩] ∧
    Stale.failed.onto Stale.found ≠ Stale.failed := by
  have hwritten : [] ++ [Stale.failed] <+:
      statuses (Program.calls Rehearsal.answer
        (reconcile Stale.context Stale.epoch Stale.serving []) Stale.world) := by
    rw [Stale.written]
    exact List.prefix_rfl
  obtain ⟨hread, honto⟩ := reconcile_stores Rehearsal.answer Stale.world (by rintro f ⟨⟩)
    Stale.valid_epoch Stale.stored [] hwritten
  refine ⟨hread, rfl, fun hsame => ?_⟩
  have hleft := (honto.1 hsame).1 rfl
  cases hleft

/-- A merge patch does not replace a status: what the pass has written is not what is read. -/
theorem status_not_replaced :
    Stored Stale.object Stale.serving ∧
    statuses (Program.calls Rehearsal.answer
      (reconcile Stale.context Stale.epoch Stale.serving []) Stale.world) = [Stale.failed] ∧
    Instance.ofJson ((Api.Instances.statusChange Stale.failed).patch Stale.object) ≠
      .ok { Stale.serving with status := some Stale.failed } := by
  refine ⟨Stale.stored, Stale.written, fun hsame => ?_⟩
  have hread : Instance.ofJson ((Api.Instances.statusChange Stale.failed).patch Stale.object) =
      .ok { Stale.serving with
        status := some { Stale.failed with resources := Stale.found.resources } } := rfl
  have hstatus := congrArg Instance.status (Except.ok.inj (hread.symm.trans hsame))
  cases congrArg InstanceStatus.resources (Option.some.inj hstatus)

end ReleaseKeeper
