import ReleaseKeeper.Proofs.Manifest.Partial
import ReleaseKeeper.Proofs.Reconcile.Quiescence
import ReleaseKeeper.Proofs.Reconcile.Recorded

/-!
# An install that stops part way

Where a resource of the release cannot be applied, the install ends with its error and tells in the
status what was applied before (`Pass.runs_failInstall`). What was applied is exactly what is before
the first resource that could not be applied by itself, and the cluster holds for each of these what
it would hold if nothing else had been applied (`install_stops_part_way`).
-/
namespace ReleaseKeeper

open Operation Rehearsal

/-- How far a release was applied: every resource of `done`, as it would have been by itself, and
nothing from `r` on, the first that cannot be applied. -/
structure Manifest.AppliedUpTo (m : Manifest) (w : Rehearsal) (done : List Resource) (r : Resource)
    (rest : List Resource) (e : Error) (w' : Rehearsal) : Prop where
  order : m.applyOrder = done ++ r :: rest
  before : ∀ r' ∈ done, ∃ a, (run (Manifest.apply r') w).1 = .ok a
  failed : (run (Manifest.apply r) w).1 = .error e
  applied : ∀ r' ∈ done, SameButStamp (w'.cluster.object? r'.key)
    ((run (Manifest.apply r') w).2.cluster.object? r'.key)
  later : ∀ r' ∈ r :: rest, w'.cluster.object? r'.key = w.cluster.object? r'.key
  others : ∀ key ∉ done.map Resource.key, w'.cluster.object? key = w.cluster.object? key

/-- The status tells how an install failed: what was applied, and why not more. -/
structure InstanceStatus.TellsFailure (s : InstanceStatus) (f : Manifest.ApplyFailure)
    (version : Option String) : Prop where
  resources : s.resources = f.applied
  version : s.version = version
  failed : ConditionSet.known s.conditions installSucceeded =
    (.false, "Error", s!"Install failed with message: {f.toError.message}")

/-- The store has the instance of a pass, in a version that the pass carries along. -/
structure Pass.Stores (p : Pass) (w : Rehearsal) (j : Instance) : Prop where
  stored : w.instances.lookup p.subject.identity = some j
  version : p.subject.status.bind (·.version) = j.status.bind (·.version)

namespace Manifest

variable {w w' : Rehearsal} {t : Program.Trace Call Call.Answer} {m : Manifest}

/-- Applying a release applies all of it, or stops where a resource cannot be applied by itself. -/
theorem runs_applyAll_steady (hw : w.outages = []) (hc : w.cluster.Filed)
    (hm : ∀ r ∈ m, r.Proper) (hkeys : (m.map Resource.key).Nodup)
    {x : Except ApplyFailure (List Reference)}
    (h : Program.Runs world (applyAll m) w t x w') :
    (x = .ok (m.applyOrder.map Resource.reference) ∧
      ∀ r ∈ m, ∃ a, (run (Manifest.apply r) w).1 = .ok a) ∨
    ∃ done r rest e, m.AppliedUpTo w done r rest e w' ∧
      x = .error ⟨done.map Resource.reference, r.key, e⟩ := by
  have hm' : ∀ r ∈ m.applyOrder, r.Proper := fun r hr => hm r (mem_applyOrder.1 hr)
  have hkeys' : (m.applyOrder.map Resource.key).Nodup :=
    ((applyOrder_perm m).map _).nodup_iff.2 hkeys
  have halone : ∀ r ∈ m.applyOrder, (run (Manifest.apply r) w).1 = w.cluster.outcome r :=
    fun r hr => (run_apply_steady hw hc (hm' r hr)).1
  obtain ⟨rfl, hall⟩ | ⟨done, r, rest, e, horder, hdone, hfailed, rfl, hcluster⟩ :=
    applyEach_steady hw hc hm' hkeys' h
  · refine .inl ⟨rfl, fun r hr => ?_⟩
    rw [halone r (mem_applyOrder.2 hr)]
    exact hall r (mem_applyOrder.2 hr)
  · rw [horder] at hm' hkeys' halone
    obtain ⟨hproper, -⟩ := List.forall_mem_append.1 hm'
    obtain ⟨hfront, hback⟩ := List.forall_mem_append.1 halone
    rw [List.map_append] at hkeys'
    have hothers : ∀ key ∉ done.map Resource.key, w'.cluster.object? key = w.cluster.object? key := by
      intro key hkey
      rw [hcluster, Cluster.object?_foldl_applied_of_proper hc hproper hkey]
    refine .inr ⟨done, r, rest, e, ⟨horder, ?_, ?_, ?_, ?_, hothers⟩, rfl⟩
    · intro r' hr'
      rw [hfront r' hr']
      exact hdone r' hr'
    · rw [hback r List.mem_cons_self, hfailed]
    · intro r' hr'
      obtain ⟨a, ha⟩ := hdone r' hr'
      rw [hcluster, (run_apply_steady hw hc (hproper r' hr')).2 a ha]
      exact Cluster.foldl_applied_alone hc hproper (List.nodup_append.1 hkeys').1 hr'
    · intro r' hr'
      refine hothers _ fun hmem => ?_
      exact (List.nodup_append.1 hkeys').2.2 _ hmem _ (List.mem_map_of_mem hr') rfl

end Manifest

namespace Pass

variable {ctx : Context} {now : Timestamp} {p : Pass} {x : Except Error Pass}

/-! ## Up to the install -/

/-- Behind the second stage the version that was written last is the one that is carried along. -/
theorem version_initStatus {w w' : Rehearsal} {t : Program.Trace Call Call.Answer} {q : Pass}
    (hp : p.subject.status.bind (·.version) = p.written.bind (·.version))
    (h : Runs world (p.initStatus now) w t (.ok q) w') :
    q.subject.status.bind (·.version) = q.written.bind (·.version) := by
  rw [initStatus] at h
  split at h
  · obtain ⟨-, hq, -⟩ := runs_pure.1 h
    obtain rfl := Except.ok.inj hq
    exact hp
  · obtain ⟨a, -, -, hq⟩ := runs_writeStatus.1 h
    cases a with
    | error e => cases hq
    | ok _ =>
      obtain rfl := Except.ok.inj hq
      rfl

/-- **A pass comes to its install with the version that is stored.** -/
theorem stores_front {w w' : Rehearsal} {t : Program.Trace Call Call.Answer} {i : Instance}
    (hctx : ∀ f ∈ ctx.platforms, f.Confined) (hstored : w.instances.lookup i.identity = some i)
    (h : Runs world (runEach ctx now Stage.front (start i ctx.manifest)) w t (.ok p) w') :
    ∃ j, p.Stores w' j := by
  obtain ⟨p₁, t₁, w₁, t₂, hfinalizer, h⟩ := runs_runEach_cons_ok h
  obtain ⟨p₂, t₃, w₂, t₄, hinit, h⟩ := runs_runEach_cons_ok h
  obtain ⟨hcarried₁, -, finalizers, hp₁⟩ :=
    carried_ensureFinalizer (carried_start hstored ctx.manifest) hfinalizer
  have hversion : p₂.subject.status.bind (·.version) = p₂.written.bind (·.version) := by
    refine version_initStatus ?_ hinit
    rw [hp₁]
    rfl
  obtain ⟨hcarried₂, -⟩ := carried_initStatus hcarried₁ hinit
  obtain ⟨found, t₅, w₃, t₆, -, hdetect, hnext⟩ := runs_outcome_bind.1 (runs_runEach_singleton.1 h)
  have hkept := runs_onCluster (Platform.ensures_detectAll hctx) hdetect
  cases found with
  | error e => exact (failInstall_ne_ok hnext).elim
  | ok contributions =>
    dsimp only at hnext
    split at hnext
    · exact (failInstall_ne_ok hnext).elim
    · obtain ⟨-, hp, rfl⟩ := runs_pure.1 hnext
      obtain rfl := Except.ok.inj hp
      exact ⟨_, hcarried₂.congr hkept, hversion⟩

/-! ## The install -/

/-- Where the release cannot be applied, the install fails with what was applied. -/
theorem runs_install_failing {σ : Type} {world : Program.World Call Call.Answer σ} {s s₁ s₂ s' : σ}
    {t : Program.Trace Call Call.Answer} {f : Manifest.ApplyFailure} (hran : p.isDeploying = false)
    (hbefore : ∀ {t y s₃}, Runs world (p.contributions.runBefore p.subject) s t y s₃ →
      y = .ok () ∧ s₃ = s₁)
    (happly : ∀ {t y s₃}, Program.Runs world (Manifest.applyAll p.manifest) s₁ t y s₃ →
      y = .error f ∧ s₃ = s₂)
    (h : Runs world (p.install ctx now) s t x s') :
    ∃ t₁, Runs world ((p.mapStatus fun s => { s with resources := f.applied }).failInstall now
      f.toError) s₂ t₁ x s' := by
  rw [isDeploying] at hran
  rw [install, if_neg (by simp [hran])] at h
  obtain ⟨y, t₁, s₃, t₂, rfl, hhooks, h⟩ := runs_outcome_bind.1 h
  obtain ⟨rfl, rfl⟩ := hbefore hhooks
  obtain ⟨y, t₃, s₄, t₄, rfl, happlied, h⟩ := runs_lift_bind.1 h
  obtain ⟨rfl, rfl⟩ := happly happlied
  exact ⟨t₄, h⟩

/-- A status of an instance that is stored is accepted. -/
theorem runs_writeStatus_stored {w w' : Rehearsal} {t : Program.Trace Call Call.Answer} {j : Instance}
    (hw : w.outages = []) (hj : w.instances.lookup p.subject.identity = some j)
    (h : Runs world p.writeStatus w t x w') : x = .ok p.afterWrite ∧
      w'.instances.lookup p.subject.identity = some { j with status := some p.stamped } := by
  obtain ⟨a, -, answered, rfl⟩ := runs_writeStatus.1 h
  have hdone := world_of_calm hw answered
  have hj' : (w.instances.lookup (p.subject.namespaceName, p.subject.name)) = some j := hj
  simp only [perform, noted, InstanceStore.patchStatus, InstanceStore.modify, hj',
    keepInstances] at hdone
  obtain ⟨rfl, rfl⟩ := Prod.mk.inj hdone
  exact ⟨rfl, (InstanceStore.lookup_put _ _ _ _).trans (if_pos rfl)⟩

/-- **A failed install is told in the status that is stored.** -/
theorem runs_failInstall {α : Type} {w w' : Rehearsal} {t : Program.Trace Call Call.Answer}
    {e : Error} {j : Instance} {y : Except Error α} (hw : w.outages = [])
    (hj : w.instances.lookup p.subject.identity = some j)
    (h : Runs world (p.failInstall now e) w t y w') : y = .error e ∧
      w'.instances.lookup p.subject.identity = some { j with
        status := some (p.mapStatus (InstanceStatus.markInstallFailed now e.message)).stamped } := by
  obtain ⟨e', rfl, hwrite⟩ | ⟨q, t₁, w₁, t₂, rfl, hwrite, hthrow⟩ := runs_bind.1 h
  · cases (runs_writeStatus_stored (p := p.mapStatus _) hw hj hwrite).1
  · obtain ⟨-, rfl, rfl⟩ := runs_throw.1 hthrow
    exact ⟨rfl, (runs_writeStatus_stored (p := p.mapStatus _) hw hj hwrite).2⟩

/-- What a failed install writes tells of its failure. -/
theorem runs_failInstall_tells {w w' : Rehearsal} {t : Program.Trace Call Call.Answer}
    {f : Manifest.ApplyFailure} {j : Instance} (hw : w.outages = []) (hj : p.Stores w j)
    (h : Runs world ((p.mapStatus fun s => { s with resources := f.applied }).failInstall now
      f.toError) w t x w') :
    x = .error f.toError ∧ ∃ status,
      w'.instances.lookup p.subject.identity = some { j with status := some status } ∧
      status.TellsFailure f (j.status.bind (·.version)) := by
  obtain ⟨hx, hstored⟩ := runs_failInstall (p := p.mapStatus _) hw hj.stored h
  have hhappy : installSucceeded ≠ servingConditions.happy := by decide
  have hcarried : p.subject.currentStatus.version = j.status.bind (·.version) := by
    rw [← hj.version, Instance.currentStatus]
    cases p.subject.status <;> rfl
  exact ⟨hx, _, hstored, rfl, hcarried, ConditionSet.known_mark_self hhappy _ _ _⟩

end Pass

/-- **An install stops part way, and tells how far it came.** In a cluster that fails nothing but
writes to chosen keys, a resource cannot be applied by itself exactly if something has to be written
to a key whose writes fail. If there is no such resource in a release whose keys differ, all of it is
applied. Otherwise everything before the first one is, each as it would have been by itself, and
nothing from there on; a pass that installs the release fails then, and the stored status tells why,
what was applied, and the version from before. -/
theorem install_stops_part_way (m : Manifest) (w : Rehearsal) (hw : w.outages = [])
    (hc : w.cluster.Filed) (hm : ∀ r ∈ m, r.Proper) (hkeys : (m.map Resource.key).Nodup) :
    let ran := Program.run answer (Manifest.applyAll m) w
    (∀ r ∈ m, (w.cluster.Holds r → (run (Manifest.apply r) w).1 = .ok .unchanged) ∧
      ∀ e, (run (Manifest.apply r) w).1 = .error e ↔ ¬ w.cluster.Holds r ∧
        ∃ detail, w.cluster.failures.lookup r.key = some detail ∧
          e = .internal "fake-cluster" detail) ∧
    ((∀ r ∈ m, ∃ a, (run (Manifest.apply r) w).1 = .ok a) →
      ran.1 = .ok (m.applyOrder.map Resource.reference)) ∧
    ∀ r₀ ∈ m, ∀ e₀, (run (Manifest.apply r₀) w).1 = .error e₀ →
      ∃ done r rest e, m.AppliedUpTo w done r rest e ran.2 ∧
        let f : Manifest.ApplyFailure := ⟨done.map Resource.reference, r.key, e⟩
        ran.1 = .error f ∧
        ∀ (ctx : Context) (now : Timestamp) (p : Pass) (j : Instance) (w₀ : Rehearsal),
          p.manifest = m → p.isDeploying = false →
          run (p.contributions.runBefore p.subject) w₀ = (.ok (), w) →
          p.Stores w j →
          (run (p.install ctx now) w₀).1 = .error f.toError ∧
          ∃ status, (run (p.install ctx now) w₀).2.instances.lookup p.subject.identity =
              some { j with status := some status } ∧
            status.TellsFailure f (j.status.bind (·.version)) := by
  intro ran
  have halone : ∀ r ∈ m, (run (Manifest.apply r) w).1 = w.cluster.outcome r :=
    fun r hr => (Manifest.run_apply_steady hw hc (hm r hr)).1
  have hran : Program.Runs world (Manifest.applyAll m) w _ ran.1 ran.2 :=
    Program.runs_handler answer _ w
  refine ⟨fun r hr => ?_, fun hall => ?_, fun r₀ hr₀ e₀ he₀ => ?_⟩
  · rw [halone r hr]
    exact ⟨Cluster.outcome_of_holds, fun e => Cluster.outcome_eq_error⟩
  · obtain ⟨hok, -⟩ | ⟨done, r, rest, e, hup, -⟩ := Manifest.runs_applyAll_steady hw hc hm hkeys hran
    · exact hok
    · obtain ⟨a, ha⟩ := hall r (Manifest.mem_applyOrder.1 (by rw [hup.order]; simp))
      cases ha.symm.trans hup.failed
  · obtain ⟨-, hall⟩ | ⟨done, r, rest, e, hup, hfailed⟩ :=
      Manifest.runs_applyAll_steady hw hc hm hkeys hran
    · obtain ⟨a, ha⟩ := hall r₀ hr₀
      cases ha.symm.trans he₀
    · refine ⟨done, r, rest, e, hup, hfailed, ?_⟩
      intro ctx now p j w₀ hmanifest hlate hbefore hj
      have hinstances := runs_onCluster (Manifest.ensures_applyEach _) hran
      have hj' : p.Stores ran.2 j := ⟨by rw [hinstances, hj.stored], hj.version⟩
      have hinstall : Runs world (p.install ctx now) w₀ _ _ _ := Program.runs_handler answer _ w₀
      obtain ⟨t, hrest⟩ := Pass.runs_install_failing hlate
        (fun h => Prod.mk.inj ((Program.runs_iff.1 h).2.symm.trans hbefore))
        (fun h => by
          rw [hmanifest] at h
          obtain ⟨-, rfl, rfl⟩ := Program.runs_unique h hran
          exact ⟨hfailed, rfl⟩) hinstall
      exact Pass.runs_failInstall_tells (runs_outages hw hran) hj' hrest

/-! ## A release of four resources -/

namespace Halted

def config (name : String) : Resource :=
  ⟨[("apiVersion", .str "v1"), ("kind", .str "ConfigMap"), ("metadata", .obj [("name", .str name)])]⟩

def installed (name : String) : Resource :=
  ⟨[("apiVersion", .str "v1"), ("kind", .str "ConfigMap"),
    ("metadata", .obj [("name", .str name), ("namespace", .str "n"),
      ("ownerReferences", .arr [.obj [
        ("apiVersion", .str "operator.knative.dev/v1alpha1"), ("controller", .bool true),
        ("kind", .str "KnativeServing"), ("name", .str "serving"), ("uid", .str "u")]])])]⟩

def release : Manifest := ["a", "b", "c", "d"].map installed

def context : Context where
  manifest := ["a", "b", "c", "d"].map config

/-- The instance, of which another version was installed before. -/
def upgraded : Instance := { Solo.fresh with
  status := some (InstanceStatus.complete Solo.now { version := some "0.12.0" }) }

/-- The pass that comes to install the release. -/
def pass : Pass := { Pass.start upgraded context.manifest with manifest := release }

/-- A cluster that has the first resource, and fails writes to the first and to the third. -/
def refusing : Rehearsal where
  cluster := ((Cluster.insert (installed "a") {}).failOn (installed "a").key "no").failOn
    (installed "c").key "no"
  instances := InstanceStore.put upgraded []

theorem proper : ∀ r ∈ release, r.Proper := by
  have hvalid : ∀ r ∈ release, Resource.ofJson r.toJson = .ok r := by
    simp only [release, List.map_cons, List.map_nil, List.forall_mem_cons, List.not_mem_nil,
      false_imp_iff, implies_true, and_true]
    exact ⟨rfl, rfl, rfl, rfl⟩
  have hwellFormed : ∀ r ∈ release, r.toJson.WellFormed := by
    simp only [release, installed, List.map_cons, List.map_nil, List.forall_mem_cons,
      List.not_mem_nil, false_imp_iff, implies_true, and_true, Resource.toJson, Json.WellFormed,
      Json.WellFormedMembers, Json.WellFormedItems, Table.Sorted]
    decide
  exact fun r hr => ⟨.of_wellFormed (hwellFormed r hr), hvalid r hr⟩

end Halted

/-- The first resource needs no write and the second is created, so the install stops at the third,
and this is stored with the version from before. -/
theorem install_stops_part_way_halted :
    let f : Manifest.ApplyFailure := ⟨[(Halted.installed "a").reference,
      (Halted.installed "b").reference], (Halted.installed "c").key, .internal "fake-cluster" "no"⟩
    let ran := run (Halted.pass.install Halted.context Solo.now) Halted.refusing
    Halted.refusing.outages = [] ∧ Halted.refusing.cluster.Filed ∧
      (∀ r ∈ Halted.release, r.Proper) ∧ (Halted.release.map Resource.key).Nodup ∧
      run (Pass.runEach Halted.context Solo.now Stage.front
        (Pass.start Halted.upgraded Halted.context.manifest)) Halted.refusing =
          (.ok Halted.pass, Halted.refusing) ∧
      ran.1 = .error f.toError ∧
      ∃ status, ran.2.instances.lookup Halted.upgraded.identity =
          some { Halted.upgraded with status := some status } ∧
        status.TellsFailure f (some "0.12.0") := by
  intro f ran
  have hw : Halted.refusing.outages = [] := rfl
  have hc : Halted.refusing.cluster.Filed := Cluster.filed_of_forall (by decide)
  have hkeys : (Halted.release.map Resource.key).Nodup := by decide
  have hfront : run (Pass.runEach Halted.context Solo.now Stage.front
      (Pass.start Halted.upgraded Halted.context.manifest)) Halted.refusing =
        (.ok Halted.pass, Halted.refusing) := rfl
  have hfails : (run (Manifest.apply (Halted.installed "c")) Halted.refusing).1 =
      .error (.internal "fake-cluster" "no") := by decide +kernel
  have hstopped : (Program.run answer (Manifest.applyAll Halted.release) Halted.refusing).1 =
      .error f := by decide +kernel
  obtain ⟨j, hj⟩ := Pass.stores_front (i := Halted.upgraded) (fun _ hf => by cases hf) rfl
    (Program.runs_iff.2 ⟨rfl, hfront⟩)
  have hstored : Halted.refusing.instances.lookup Halted.upgraded.identity =
      some Halted.upgraded := rfl
  obtain rfl := Option.some.inj (hj.stored.symm.trans hstored)
  obtain ⟨-, -, hfailed⟩ := install_stops_part_way Halted.release Halted.refusing hw hc
    Halted.proper hkeys
  obtain ⟨done, r, rest, e, -, hran, htold⟩ := hfailed (Halted.installed "c")
    (List.mem_map_of_mem (by decide)) _ hfails
  rw [← Except.error.inj (hran.symm.trans hstopped)]
  exact ⟨hw, hc, Halted.proper, hkeys, hfront, htold Halted.context Solo.now Halted.pass
    Halted.upgraded Halted.refusing rfl rfl rfl hj⟩

end ReleaseKeeper
