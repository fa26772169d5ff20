import Mathlib.Control.Monad.Basic
import ReleaseKeeper.Proofs.Instance.Conditions
import ReleaseKeeper.Proofs.Manifest.Apply
import ReleaseKeeper.Proofs.Reconcile.Calls
import ReleaseKeeper.Proofs.Reconcile.Stages

/-!
# What a pass makes of the cluster

A pass that comes to its end has applied the whole release as the instance asks for it now, unless
it found the release installed and its deployments not yet available: then it only waits, and no
object changes but what is obsolete (`Pass.runs_runAll_cluster`). So after such a pass the cluster
holds the release exactly if the pass was not waiting or the cluster held it before
(`reconcile_converges`).
-/
namespace ReleaseKeeper

open Operation Rehearsal

/-- The release as it is to be installed for an instance, by the platforms that are found now. -/
def Context.desired (ctx : Context) (i : Instance) : Operation Manifest := do
  let contributions ← Platform.detectAll ctx.platforms
  liftM { Pass.start i ctx.manifest with contributions }.transformed

/-- The status after a version of the release was installed. -/
def InstanceStatus.afterInstall (now : Timestamp) (version : String) (refs : List Reference)
    (s : InstanceStatus) : InstanceStatus :=
  markInstalled now { s with resources := refs, version := some version }

variable {w w' : Rehearsal} {t : Program.Trace Call Call.Answer}

/-! ## Every call files objects under their keys -/

theorem Cluster.filed_world {c : Call} {a : c.Answer} (hc : w.cluster.Filed)
    (h : world w c a w') : w'.cluster.Filed := by
  cases c with
  | create r =>
    obtain ⟨_, -, hkept⟩ | ⟨-, hstore⟩ := world_create h
    · rw [hkept]; exact hc
    · rw [hstore]; exact filed_store hc _ _
  | update r =>
    obtain ⟨_, -, hkept⟩ | ⟨-, hstore⟩ := world_update h
    · rw [hkept]; exact hc
    · rw [hstore]; exact filed_store hc _ _
  | delete key =>
    obtain ⟨_, -, hkept⟩ | ⟨-, hdrop⟩ := world_delete h
    · rw [hkept]; exact hc
    · intro j r hr
      rw [hdrop] at hr
      split at hr
      · cases hr
      · exact hc j r hr
  | _ =>
    have hkept := world_keeps (by exact trivial) h
    rw [hkept]
    exact hc

theorem Cluster.filed_runs {α : Type} {p : Operation.Steps α} {x : α} (hc : w.cluster.Filed)
    (h : Program.Runs world p w t x w') : w'.cluster.Filed := by
  induction h with
  | done x s => exact hc
  | call answered _ ih => exact ih (filed_world hc answered)

namespace Obsolete

/-- Deleting obsolete objects leaves all others. -/
theorem runs_deleteEach {x : Except Error Unit} : ∀ {keys : List ResourceKey} {w : Rehearsal}
    {t : Program.Trace Call Call.Answer}, Runs world (deleteEach keys) w t x w' →
    ∀ key ∉ keys, w'.cluster.object? key = w.cluster.object? key
  | [], w, t, h => by
    obtain ⟨rfl, rfl, rfl⟩ := runs_pure.1 h
    exact fun _ _ => rfl
  | first :: rest, w, t, h => by
    intro key hkey
    rw [List.mem_cons, not_or] at hkey
    obtain ⟨outcome, w₁, t₁, rfl, answered, h⟩ := runs_ask_outcome_bind.1 h
    have hkept : w₁.cluster.object? key = w.cluster.object? key := by
      obtain ⟨_, -, hkept⟩ | ⟨-, hdrop⟩ := world_delete answered
      · rw [hkept]
      · rw [hdrop, if_neg hkey.1]
    rw [← hkept]
    cases outcome with
    | ok _ => exact runs_deleteEach h key hkey.2
    | error e =>
      dsimp only at h
      split at h
      · exact runs_deleteEach h key hkey.2
      · obtain ⟨rfl, rfl, rfl⟩ := runs_throw.1 h
        rfl

/-- Where nothing is planned to fail, all that is obsolete is gone. -/
theorem deleteEach_calm : ∀ {keys : List ResourceKey} {w w' : Rehearsal}
    {t : Program.Trace Call Call.Answer} {x : Except Error Unit}, w.Calm →
    Runs world (deleteEach keys) w t x w' →
    ∀ key, w'.cluster.object? key = if key ∈ keys then none else w.cluster.object? key
  | [], w, w', t, x, _, h => by
    obtain ⟨-, -, rfl⟩ := runs_pure.1 h
    exact fun _ => by simp
  | first :: rest, w, w', t, x, hw, h => by
    obtain ⟨outcome, w₁, t₁, rfl, answered, hnext⟩ := runs_ask_outcome_bind.1 h
    obtain ⟨hgone, hanswer⟩ := world_delete_calm hw answered
    have hrest : Runs world (deleteEach rest) w₁ t₁ x w' := by
      obtain rfl | ⟨-, e, rfl, hnotFound⟩ := hanswer
      · exact hnext
      · dsimp only at hnext
        rwa [if_pos hnotFound] at hnext
    intro key
    rw [deleteEach_calm (world_calm hw answered) hrest key, hgone]
    by_cases hkey : key = first <;> simp [hkey]

end Obsolete

namespace Pass

variable {ctx : Context} {now : Timestamp} {p q : Pass}

/-! ## Stages that leave the cluster alone -/

/-- Whether a pass has only to wait for deployments. -/
def isDeploying (p : Pass) : Bool := p.subject.status.any InstanceStatus.isDeploying

/-- A pass asks for the same release as another, and waits if the other does. -/
structure Agrees (p q : Pass) : Prop where
  manifest : q.manifest = p.manifest
  pipeline : Pipeline.builtin q.subject = Pipeline.builtin p.subject
  target : q.subject.targetNamespace = p.subject.targetNamespace
  deploying : q.isDeploying = p.isDeploying

theorem runs_writeStatus_cluster {x : Except Error Pass} (h : Runs world p.writeStatus w t x w') :
    w'.cluster = w.cluster ∧ ∀ q, x = .ok q → q = p.afterWrite := by
  obtain ⟨a, rfl, answered, rfl⟩ := runs_writeStatus.1 h
  refine ⟨world_keeps (c := .patchStatus ..) trivial answered, fun q hq => ?_⟩
  cases a with
  | error e => cases hq
  | ok _ => exact (Except.ok.inj hq).symm

theorem runs_ensureFinalizer_ok (h : Runs world p.ensureFinalizer w t (.ok q) w') :
    w'.cluster = w.cluster ∧ p.Agrees q := by
  rw [ensureFinalizer] at h
  split at h
  · obtain ⟨rfl, ⟨⟩, rfl⟩ := runs_pure.1 h
    exact ⟨rfl, rfl, rfl, rfl, rfl⟩
  · obtain ⟨e | _, rfl, answered, ⟨⟩⟩ := runs_ask_map.1 h
    exact ⟨world_keeps (c := .addFinalizer ..) trivial answered, rfl, rfl, rfl, rfl⟩

theorem runs_initStatus_ok (h : Runs world (p.initStatus now) w t (.ok q) w') :
    w'.cluster = w.cluster ∧ p.Agrees q := by
  rw [initStatus] at h
  split at h
  · obtain ⟨rfl, ⟨⟩, rfl⟩ := runs_pure.1 h
    exact ⟨rfl, rfl, rfl, rfl, rfl⟩
  · obtain ⟨hkept, hwrite⟩ := runs_writeStatus_cluster h
    obtain rfl := hwrite q rfl
    refine ⟨hkept, rfl, rfl, rfl, ?_⟩
    have hdeploying : (p.subject.currentStatus.complete now).isDeploying = p.isDeploying := by
      rw [InstanceStatus.isDeploying_complete, isDeploying, Instance.currentStatus]
      cases p.subject.status <;> rfl
    exact hdeploying

/-- What a pass contributes leaves the objects alone once the release was applied. -/
def LeavesObjects (p : Pass) : Prop :=
  ∀ c ∈ p.contributions, ∀ h ∈ c.2.after, h.Makes Call.KeepsObjects

/-! ## Stages that come to their end -/

theorem transformed_eq_ok {m : Manifest} :
    p.transformed = .ok m ↔ ∃ pipeline, Pipeline.builtin p.subject = .ok pipeline ∧
      Pipeline.run (pipeline ++ p.contributions.transformers) p.manifest = .ok m := by
  rw [transformed]
  cases Pipeline.builtin p.subject with
  | error e => simp [bind, Except.bind]
  | ok pipeline => simp [bind, Except.bind]

theorem runs_transform_ok (hctx : ∀ f ∈ ctx.platforms, f.LeavesObjects)
    (h : Runs world (p.transform ctx now) w t (.ok q) w') :
    w'.cluster = w.cluster ∧ q.LeavesObjects ∧ ∃ contributions m t₁,
      Runs world (Platform.detectAll ctx.platforms) w t₁ (.ok contributions) w' ∧
      { p with contributions }.transformed = .ok m ∧ q = { p with contributions, manifest := m } := by
  obtain ⟨found, t₁, w₁, t₂, rfl, hdetect, h⟩ := runs_outcome_bind.1 h
  have hfound := Platform.ensures_detectAll hctx
  cases found with
  | error e => exact (failInstall_ne_ok h).elim
  | ok contributions =>
    dsimp only at h
    split at h
    · exact (failInstall_ne_ok h).elim
    · next m hm =>
      obtain ⟨rfl, hq, rfl⟩ := runs_pure.1 h
      obtain rfl := Except.ok.inj hq
      exact ⟨runs_keeps hfound hdetect, (hfound.of_runs hdetect).2 _ rfl, contributions, m, t₁,
        hdetect, hm, rfl⟩

/-- **An install that is not left out** comes to its end between the hooks, and carries along that
the release was installed, with what was applied. -/
theorem runs_install_ran {σ : Type} {world : Program.World Call Call.Answer σ} {s s' : σ}
    (hran : p.isDeploying = false) (h : Runs world (p.install ctx now) s t (.ok q) s') :
    ∃ t₁ s₁ t₂ s₂ refs t₃,
      Runs world (p.contributions.runBefore p.subject) s t₁ (.ok ()) s₁ ∧
      Program.Runs world (Manifest.applyAll p.manifest) s₁ t₂ (.ok refs) s₂ ∧
      Runs world (p.contributions.runAfter
        (p.mapStatus fun s => { s with resources := refs }).subject) s₂ t₃ (.ok ()) s' ∧
      q = p.mapStatus (InstanceStatus.afterInstall now ctx.version refs) := by
  have hnot : ¬ p.subject.status.any InstanceStatus.isDeploying = true := by
    simpa [isDeploying] using hran
  rw [install, if_neg hnot] at h
  obtain ⟨x₁, t₁, s₁, t₂, rfl, hbefore, h⟩ := runs_outcome_bind.1 h
  cases x₁ with
  | error e => exact (failInstall_ne_ok h).elim
  | ok _ =>
    obtain ⟨x₂, t₃, s₂, t₄, rfl, happly, h⟩ := runs_lift_bind.1 h
    cases x₂ with
    | error f => exact (failInstall_ne_ok h).elim
    | ok refs =>
      obtain ⟨x₃, t₅, s₃, t₆, rfl, hafter, h⟩ := runs_outcome_bind.1 h
      cases x₃ with
      | error e => exact (failInstall_ne_ok h).elim
      | ok _ =>
        obtain ⟨rfl, hq, rfl⟩ := runs_pure.1 h
        exact ⟨t₁, s₁, t₃, s₂, refs, t₅, hbefore, happly, hafter, Except.ok.inj hq⟩

/-- An install that comes to its end was left out, or has applied the release behind the hooks that
come before. -/
theorem runs_install_ok (hp : p.LeavesObjects) (h : Runs world (p.install ctx now) w t (.ok q) w') :
    q.manifest = p.manifest ∧ q.subject.targetNamespace = p.subject.targetNamespace ∧
      (p.isDeploying = true ∧ w'.cluster = w.cluster ∨
        p.isDeploying = false ∧ ∃ t₁ w₁,
          Runs world (p.contributions.runBefore p.subject) w t₁ (.ok ()) w₁ ∧
          w'.cluster = p.manifest.applyOrder.foldl Cluster.applied w₁.cluster) := by
  cases hdeploying : p.isDeploying with
  | true =>
    have hskipped : p.subject.status.any InstanceStatus.isDeploying = true := hdeploying
    rw [install, if_pos hskipped] at h
    obtain ⟨rfl, ⟨⟩, rfl⟩ := runs_pure.1 h
    exact ⟨rfl, rfl, .inl ⟨rfl, rfl⟩⟩
  | false =>
    obtain ⟨t₁, w₁, t₂, w₂, refs, t₃, hbefore, happly, hafter, rfl⟩ := runs_install_ran hdeploying h
    refine ⟨rfl, rfl, .inr ⟨rfl, t₁, w₁, hbefore, ?_⟩⟩
    rw [runs_keeps (Contributions.ensures_runAfter hp) hafter]
    obtain ⟨-, happlied⟩ | ⟨_, _, _, _, -, herror, -⟩ := Manifest.runs_applyEach happly
    · exact happlied
    · cases herror

theorem runs_checkEach_ok : ∀ {rs : List Resource} {w : Rehearsal}
    {t : Program.Trace Call Call.Answer}, Runs world (checkEach now p rs) w t (.ok q) w' →
    w'.cluster = w.cluster ∧ q.manifest = p.manifest ∧
      q.subject.targetNamespace = p.subject.targetNamespace
  | [], w, t, h => by
    obtain ⟨rfl, ⟨⟩, rfl⟩ := runs_pure.1 h
    exact ⟨rfl, rfl, rfl⟩
  | r :: rest, w, t, h => by
    obtain ⟨available, t₁, w₁, t₂, rfl, hask, h⟩ := runs_outcome_bind.1 h
    have hkept := runs_keeps (ensures_isDeploymentAvailable (fun _ => trivial) r) hask
    rw [← hkept]
    match available, h with
    | .error e, h =>
      obtain ⟨_, ⟨⟩, -⟩ | ⟨_, t₃, w₂, t₄, rfl, -, hthrow⟩ := runs_bind.1 h
      obtain ⟨-, ⟨⟩, -⟩ := runs_throw.1 hthrow
    | .ok false, h =>
      obtain ⟨rfl, ⟨⟩, rfl⟩ := runs_pure.1 h
      exact ⟨rfl, rfl, rfl⟩
    | .ok true, h => exact runs_checkEach_ok h

theorem runs_deleteObsolete_ok (h : Runs world p.deleteObsolete w t (.ok q) w') :
    q = p ∧ ∃ t₁, Runs world (Obsolete.delete p.subject.targetNamespace) w t₁ (.ok ()) w' := by
  obtain ⟨_, ⟨⟩, -⟩ | ⟨_, t₁, w₁, t₂, rfl, hdelete, hend⟩ := runs_bind.1 h
  obtain ⟨rfl, ⟨⟩, rfl⟩ := runs_pure.1 hend
  exact ⟨rfl, t₁, hdelete⟩

/-! ## The whole pass -/

/-- **The parts of a pass that comes to its end**, as far as the cluster goes: in the cluster as it
was the platforms are found and the release is transformed for them; unless the pass had only to
wait, the hooks that come before are run and the release is applied; then what is obsolete is
deleted. -/
theorem runs_runAll_parts (hctx : ∀ f ∈ ctx.platforms, f.LeavesObjects) {i : Instance}
    (h : Runs world ((start i ctx.manifest).runAll ctx now) w t (.ok q) w') :
    ∃ contributions m w₀ t₁ w₁ v t₂ v',
      (w₀.cluster = w.cluster ∧ (w.outages = [] → w₀.outages = []) ∧ w₁.cluster = w.cluster) ∧
      Runs world (Platform.detectAll ctx.platforms) w₀ t₁ (.ok contributions) w₁ ∧
      { start i ctx.manifest with contributions }.transformed = .ok m ∧
      ((start i ctx.manifest).isDeploying = true ∧ v.cluster = w.cluster ∨
        (start i ctx.manifest).isDeploying = false ∧ ∃ subject t₃ w₃,
          Runs world (contributions.runBefore subject) w₁ t₃ (.ok ()) w₃ ∧
          v.cluster = m.applyOrder.foldl Cluster.applied w₃.cluster) ∧
      Runs world (Obsolete.delete i.targetNamespace) v t₂ (.ok ()) v' ∧
      (w.Calm → v.Calm) ∧ w'.cluster = v'.cluster := by
  obtain ⟨_, ⟨⟩, -⟩ | ⟨p₆, t', w₆, t₇, rfl, hall, hend⟩ := runs_bind.1 h
  obtain ⟨p₁, t₁, w₁, _, hfinalizer, hall⟩ := runs_runEach_cons_ok hall
  obtain ⟨p₂, t₂, w₂, _, hinit, hall⟩ := runs_runEach_cons_ok hall
  obtain ⟨p₃, t₃, w₃, _, htransform, hall⟩ := runs_runEach_cons_ok hall
  obtain ⟨p₄, t₄, w₄, _, hinstall, hall⟩ := runs_runEach_cons_ok hall
  obtain ⟨p₅, t₅, w₅, _, hcheck, hall⟩ := runs_runEach_cons_ok hall
  have hdelete := runs_runEach_singleton.1 hall
  obtain ⟨hw₁, hp₁⟩ := runs_ensureFinalizer_ok hfinalizer
  obtain ⟨hw₂, hp₂⟩ := runs_initStatus_ok hinit
  obtain ⟨hw₃, hleaves, contributions, m, t₀, hdetect, htransformed, rfl⟩ :=
    runs_transform_ok hctx htransform
  obtain ⟨hm₄, hp₄, hw₄⟩ := runs_install_ok hleaves hinstall
  obtain ⟨hw₅, -, hp₅⟩ := runs_checkEach_ok hcheck
  obtain ⟨rfl, t₆, hdeleted⟩ := runs_deleteObsolete_ok hdelete
  have hw' : w'.cluster = w₆.cluster := by
    split at hend
    · exact (runs_writeStatus_cluster hend).1
    · obtain ⟨-, -, rfl⟩ := runs_pure.1 hend
      rfl
  have hback : w₂.cluster = w.cluster ∧ w₃.cluster = w.cluster :=
    ⟨by rw [hw₂, hw₁], by rw [hw₃, hw₂, hw₁]⟩
  have htarget : p₆.subject.targetNamespace = i.targetNamespace :=
    hp₅.trans (hp₄.trans (hp₂.target.trans hp₁.target))
  have hdeploying : p₂.isDeploying = (start i ctx.manifest).isDeploying :=
    hp₂.deploying.trans hp₁.deploying
  have hdesired : { start i ctx.manifest with contributions }.transformed = .ok m := by
    rw [← htransformed]
    simp only [transformed, hp₂.manifest, hp₁.manifest, hp₂.pipeline, hp₁.pipeline]
  rw [htarget] at hdeleted
  -- the platforms are found in the cluster behind the first two stages, which left it alone
  refine ⟨contributions, m, w₂, t₀, w₃, w₅, t₆, w₆, ⟨hback.1, ?_, hback.2⟩, hdetect,
    hdesired, ?_, hdeleted, ?_, hw'⟩
  · exact fun hw => runs_outages (runs_outages hw hfinalizer) hinit
  · rw [hw₅, ← hdeploying, ← hback.2]
    obtain hwaited | ⟨hnot, t₈, w₈, hbefore, happlied⟩ := hw₄
    · exact .inl hwaited
    · exact .inr ⟨hnot, p₂.subject, t₈, w₈, hbefore, happlied⟩
  · intro hw
    exact runs_calm (runs_calm (runs_calm (runs_calm (runs_calm hw hfinalizer) hinit) htransform)
      hinstall) hcheck

/-- **What a pass that comes to its end makes of the cluster.** Obsolete objects apart, the cluster
is as it was where the pass had only to wait; else it is what applying the release made of some
cluster. The release is the one that is desired in the cluster as the pass found it. -/
theorem runs_runAll_cluster (hctx : ∀ f ∈ ctx.platforms, f.LeavesObjects) {i : Instance}
    (hc : w.cluster.Filed)
    (h : Runs world ((start i ctx.manifest).runAll ctx now) w t (.ok q) w') :
    ∃ w₀ m c, w₀.cluster = w.cluster ∧ (w.outages = [] → w₀.outages = []) ∧
      (Rehearsal.run (ctx.desired i) w₀).1 = .ok m ∧
      (∀ key ∉ Obsolete.keys i.targetNamespace, w'.cluster.object? key = c.object? key) ∧
      ((start i ctx.manifest).isDeploying = true ∧ c = w.cluster ∨
        (start i ctx.manifest).isDeploying = false ∧ ∃ c₀ : Cluster, c₀.Filed ∧
          c = m.applyOrder.foldl Cluster.applied c₀) := by
  obtain ⟨contributions, m, w₀, t₁, w₁, v, t₂, v', ⟨hw₀, houtages, hw₁⟩, hdetect, htransformed,
    hcases, hdeleted, -, hw'⟩ := runs_runAll_parts hctx h
  refine ⟨w₀, m, v.cluster, hw₀, houtages, ?_, ?_, ?_⟩
  · have hrun : Runs world (ctx.desired i) w₀ t₁ (.ok m) w₁ := by
      refine runs_bind.2 (.inr ⟨contributions, t₁, w₁, [], by rw [List.append_nil], hdetect, ?_⟩)
      exact runs_except.2 ⟨rfl, htransformed.symm, rfl⟩
    exact congrArg Prod.fst (Program.runs_iff.1 hrun).2
  · intro key hkey
    rw [hw', Obsolete.runs_deleteEach hdeleted key hkey]
  · obtain hwaited | ⟨hnot, subject, t₃, w₃, hbefore, happlied⟩ := hcases
    · exact .inl hwaited
    · refine .inr ⟨hnot, w₃.cluster, ?_, happlied⟩
      exact Cluster.filed_runs (by rw [hw₁]; exact hc) hbefore

end Pass

/-! ## Convergence -/

theorem Context.ensures_desired {ctx : Context} (hctx : ∀ f ∈ ctx.platforms, f.Confined)
    (i : Instance) : (ctx.desired i).Ensures Call.OnCluster fun _ => True :=
  ensures_bind (Platform.ensures_detectAll hctx) fun _ _ =>
    ensures_except (Q := fun _ => True) fun _ _ => trivial

/-- **A pass that succeeds converges unless it waits.** The pass desires a release by what it found
in the cluster. Where the stored status says that a release was installed and its deployments are
not yet available, no object but what is obsolete changes; in any case the cluster holds all of the
desired release afterwards exactly if the pass was not waiting so, or the cluster held it before. -/
theorem reconcile_converges {ctx : Context}
    (hctx : ∀ f ∈ ctx.platforms, f.Confined ∧ f.LeavesObjects) (now : Timestamp) {i : Instance}
    (hlive : i.isDeleting = false) (seen : Generations) {w : Rehearsal} (hc : w.cluster.Filed)
    {action : Action}
    (hok : (Program.run answer (reconcile ctx now i seen) w).1.1 = .ok action) :
    let w' := (Program.run answer (reconcile ctx now i seen) w).2
    let waiting := i.status.any InstanceStatus.isDeploying
    ∃ m, (∃ w₀, w₀.cluster = w.cluster ∧ (Rehearsal.run (ctx.desired i) w₀).1 = .ok m) ∧
      (w.outages = [] → (Rehearsal.run (ctx.desired i) w).1 = .ok m) ∧
      (waiting = true → ∀ key ∉ Obsolete.keys i.targetNamespace,
        w'.cluster.object? key = w.cluster.object? key) ∧
      (m.Applicable → (∀ r ∈ m, r.key ∉ Obsolete.keys i.targetNamespace) →
        ((∀ r ∈ m, w'.cluster.Holds r) ↔ waiting = false ∨ ∀ r ∈ m, w.cluster.Holds r)) := by
  have h := Program.runs_handler answer (reconcile ctx now i seen) w
  generalize Program.run answer (reconcile ctx now i seen) w = ran at h hok
  intro w' waiting
  obtain ⟨hdeleting, -⟩ | ⟨-, -, -, e, hrefused⟩ | ⟨-, y, hall, houtcome⟩ := runs_reconcile h
  · rw [hlive] at hdeleting
    cases hdeleting
  · cases hrefused.symm.trans hok
  · cases y with
    | error e => cases houtcome.symm.trans hok
    | ok q =>
      obtain ⟨w₀, m, c, hw₀, houtages, hdesired, hframe, hcases⟩ :=
        Pass.runs_runAll_cluster (fun f hf => (hctx f hf).2) hc hall
      have hcongr : w.outages = [] → (Rehearsal.run (ctx.desired i) w).1 = .ok m := fun hw =>
        (run_congr (Context.ensures_desired (fun f hf => (hctx f hf).1) i) hw₀.symm hw
          (houtages hw)).trans hdesired
      refine ⟨m, ⟨w₀, hw₀, hdesired⟩, hcongr, fun hwaiting => ?_, fun hm hobsolete => ?_⟩
      · obtain ⟨-, rfl⟩ | ⟨hnot, -⟩ := hcases
        · exact hframe
        · cases hnot.symm.trans hwaiting
      · have hkept : ∀ r ∈ m, (w'.cluster.Holds r ↔ c.Holds r) := fun r hr =>
          Cluster.holds_congr (hframe _ (hobsolete r hr))
        rw [forall₂_congr hkept]
        obtain ⟨hwaiting, rfl⟩ | ⟨hnot, c₀, hc₀, rfl⟩ := hcases
        · have hwaiting : waiting = true := hwaiting
          simp [hwaiting]
        · refine iff_of_true ?_ (.inl hnot)
          intro r hr
          exact Cluster.holds_foldl_applied hc₀ hm.applyOrder r (Manifest.mem_applyOrder.2 hr)

/-! ## A release of one deployment -/

namespace Solo

def context : Context where
  manifest := [⟨[("apiVersion", .str "apps/v1"), ("kind", .str "Deployment"),
    ("metadata", .obj [("name", .str "activator")])]⟩]
  platforms := [Platform.openShift, Platform.minikube]

def deployment : Resource := ⟨[("apiVersion", .str "apps/v1"), ("kind", .str "Deployment"),
  ("metadata", .obj [("name", .str "activator"), ("namespace", .str "n"),
    ("ownerReferences", .arr [.obj [
      ("apiVersion", .str "operator.knative.dev/v1alpha1"), ("controller", .bool true),
      ("kind", .str "KnativeServing"), ("name", .str "serving"), ("uid", .str "u")]])])]⟩

def fresh : Instance where
  metadata := {
    finalizers := some [Instance.finalizer], generation := some 1, name := some "serving"
    namespaceName := some "n", uid := some "u" }
  spec := {}

def now : Timestamp := ⟨1970, 1, 1, 0, 0, 0, 0⟩

def empty : Rehearsal := { instances := InstanceStore.put fresh [] }

def first : (Except Error Action × Generations) × Rehearsal :=
  Program.run answer (reconcile context now fresh []) empty

/-- The instance after the first pass, with a setting added to its spec. -/
def edited : Instance where
  metadata := { fresh.metadata with generation := some 2 }
  spec := { config := [("network", [("a", "b")])] }
  status := (first.2.instances.lookup fresh.identity).bind (·.status)

/-- The cluster after the first pass, with all objects deleted. -/
def emptied : Rehearsal := { first.2 with
  cluster := { first.2.cluster with objects := [] }
  instances := InstanceStore.put edited first.2.instances }

def second : (Except Error Action × Generations) × Rehearsal :=
  Program.run answer (reconcile context now edited first.1.2) emptied

theorem applicable : Manifest.Applicable [deployment] := by
  refine ⟨List.pairwise_singleton _ _, fun r hr => ?_⟩
  obtain rfl := List.mem_singleton.1 hr
  refine ⟨?_, rfl, rfl, fun x hx => ?_⟩
  · simp only [deployment, Resource.toJson, Json.WellFormed, Json.WellFormedMembers,
      Json.WellFormedItems, Table.Sorted]
    decide
  · cases hx

theorem not_obsolete : ∀ r ∈ [deployment], r.key ∉ Obsolete.keys "n" := by decide

end Solo

/-- The first pass installs the deployment. -/
theorem reconcile_converges_solo :
    Solo.empty.cluster.Filed ∧ Solo.fresh.isDeleting = false ∧
      Solo.first.1.1 = .ok (.requeue 5) ∧ ¬ Solo.empty.cluster.Holds Solo.deployment ∧
      Solo.first.2.cluster.Holds Solo.deployment := by
  have hc : Solo.empty.cluster.Filed := by rintro key r ⟨⟩
  have hok : Solo.first.1.1 = .ok (.requeue 5) := by decide +kernel
  have hnot : ¬ Solo.empty.cluster.Holds Solo.deployment := by rintro ⟨live, ⟨⟩, -⟩
  have hctx : ∀ f ∈ Solo.context.platforms, f.Confined ∧ f.LeavesObjects := by
    rintro f (_ | ⟨_, _ | ⟨_, ⟨⟩⟩⟩)
    · exact ⟨Platform.confined_openShift, Platform.leavesObjects_openShift⟩
    · exact ⟨Platform.confined_minikube, Platform.leavesObjects_minikube⟩
  have hlive : Solo.fresh.isDeleting = false := rfl
  obtain ⟨m, -, hdesired, -, hholds⟩ := reconcile_converges hctx Solo.now hlive [] hc hok
  obtain rfl : [Solo.deployment] = m := Except.ok.inj (hdesired rfl)
  have hall := (hholds Solo.applicable Solo.not_obsolete).2 (.inl rfl)
  exact ⟨hc, hlive, hok, hnot, hall _ (List.mem_singleton.2 rfl)⟩

/-- **A pass that waits does not converge.** After the first pass someone deletes the deployment and
edits the spec. The second pass succeeds and records the new generation, but the deployment that it
desires stays missing. -/
theorem reconcile_waiting_diverges :
    Solo.first.1.1 = .ok (.requeue 5) ∧ Solo.first.2.cluster.objects.isEmpty = false ∧
      Solo.edited.isDeleting = false ∧ Solo.emptied.cluster.Filed ∧
      (Rehearsal.run (Solo.context.desired Solo.edited) Solo.emptied).1 = .ok [Solo.deployment] ∧
      Manifest.Applicable [Solo.deployment] ∧
      (∀ r ∈ [Solo.deployment], r.key ∉ Obsolete.keys Solo.edited.targetNamespace) ∧
      Solo.second.1.1 = .ok (.requeue 5) ∧
      ((Solo.second.2.instances.lookup Solo.edited.identity).bind (·.status)).bind
        (·.observedGeneration) = some 2 ∧
      ¬ Solo.second.2.cluster.Holds Solo.deployment := by
  have hmissing : Solo.second.2.cluster.objects.isEmpty = true := by decide +kernel
  refine ⟨by decide +kernel, by decide +kernel, rfl, ?_, rfl, Solo.applicable, Solo.not_obsolete,
    by decide +kernel, by decide +kernel, ?_⟩
  · rintro key r ⟨⟩
  · rintro ⟨live, hlive, -⟩
    rw [Cluster.object?, List.isEmpty_iff.1 hmissing] at hlive
    cases hlive

end ReleaseKeeper
