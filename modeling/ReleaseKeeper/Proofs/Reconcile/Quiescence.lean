import ReleaseKeeper.Proofs.Instance.Generation
import ReleaseKeeper.Proofs.Instance.Store
import ReleaseKeeper.Proofs.Reconcile.Convergence

/-!
# A ready instance is left alone

Where the cluster holds the release with its deployments available, nothing obsolete is there, and
the stored status says all that a pass would write, the instance is settled (`Rehearsal.Settled`). A
pass that installs and finds all well settles its instance (`Pass.runs_runAll_settles`); a pass on a
settled instance only looks at objects, tries to delete what is not there, and is content
(`Rehearsal.Settled.runs_reconcile`). As it leaves the instance settled, so do all further passes
(`reconcile_quiescent`).
-/
namespace ReleaseKeeper

open Operation Rehearsal

/-- A status that stays as it is when the release is applied and its deployments are available. -/
structure InstanceStatus.Settled (version : String) (refs : List Reference) (s : InstanceStatus) :
    Prop where
  coherent : s.Coherent
  installed : ConditionSet.known s.conditions installSucceeded = (.true, "", "")
  available : ConditionSet.known s.conditions deploymentsAvailable = (.true, "", "")
  version : s.version = some version
  resources : s.resources = refs

/-- The instance with other finalizers and another status. -/
def Instance.evolved (i : Instance) (finalizers : Option (List String))
    (status : Option InstanceStatus) : Instance :=
  { i with metadata := { i.metadata with finalizers }, status }

/-- Whether the deployment of a resource is found available, if it can be read. -/
def Cluster.availability (c : Cluster) (r : Resource) : Except Error Bool :=
  match c.object? r.key with
  | none => .ok false
  | some live => do
    Deployment.check live
    return Deployment.isAvailable live

/-- The rehearsal with more calls noted, and else as it was. -/
def Rehearsal.asked (w : Rehearsal) (calls : List Call) : Rehearsal :=
  { w with journal := w.journal ++ calls }

/-- The store has the instance of a pass, with the status that the pass takes for written. -/
def Pass.Carried (p : Pass) (w : Rehearsal) : Prop :=
  w.instances.lookup p.subject.identity = some { p.subject with status := p.written }

/-- There is nothing to be done for the instance. -/
structure Rehearsal.Settled (ctx : Context) (m : Manifest) (i : Instance) (w : Rehearsal) : Prop where
  calm : w.Calm
  stored : w.instances.lookup i.identity = some i
  live : i.isDeleting = false
  bound : i.hasFinalizer = true
  status : ∃ s, i.status = some s ∧ s.Settled ctx.version (m.applyOrder.map Resource.reference) ∧
    s.observedGeneration = i.metadata.generation
  transformed : (Pass.start i ctx.manifest).transformed = .ok m
  held : ∀ r ∈ m, w.cluster.Holds r
  available : ∀ r ∈ Manifest.ofKind Deployment.kind m, w.cluster.availability r = .ok true
  clean : ∀ key ∈ Obsolete.keys i.targetNamespace, w.cluster.object? key = none

/-- The calls of a pass that finds all well: it looks at every object of the release, looks at its
deployments, and tries to delete what is obsolete. -/
def quietCalls (m : Manifest) (i : Instance) : List Call :=
  m.applyOrder.map (fun r => .get r.key) ++
    ((Manifest.ofKind Deployment.kind m).map (fun r => .get r.key) ++
      (Obsolete.keys i.targetNamespace).map .delete)

/-- The instance that is stored under an identity is reconciled at one time after another. -/
def Rehearsal.resync (ctx : Context) (id : String × String) :
    List Timestamp → Generations × Rehearsal → List (Except Error Action) × Generations × Rehearsal
  | [], state => ([], state)
  | now :: rest, (seen, w) =>
    match w.instances.lookup id with
    | none => resync ctx id rest (seen, w)
    | some i =>
      let ((outcome, seen), w) := Program.run answer (reconcile ctx now i seen) w
      let (outcomes, state) := resync ctx id rest (seen, w)
      (outcome :: outcomes, state)

/-! ## A status that stays -/

namespace InstanceStatus

variable {version : String} {refs : List Reference} {s : InstanceStatus}

theorem Settled.isReady (h : s.Settled version refs) : s.isReady = true := by
  rw [Coherent.isReady_iff h.coherent, isInstalled, isAvailable, holds_iff, holds_iff, h.installed,
    h.available]
  exact ⟨rfl, rfl⟩

theorem Settled.not_isDeploying (h : s.Settled version refs) : s.isDeploying = false := by
  have havailable : s.isAvailable = true := ((Coherent.isReady_iff h.coherent).1 h.isReady).2
  rw [isDeploying, havailable]
  simp

theorem Settled.conditions_ne_nil (h : s.Settled version refs) : s.conditions ≠ [] := by
  obtain ⟨c, hc, -⟩ := h.coherent
  rintro hnil
  rw [hnil] at hc
  cases hc

/-- Installing the same again changes nothing. -/
theorem Settled.afterInstall_self (h : s.Settled version refs) (now : Timestamp) :
    s.afterInstall now version refs = s := by
  have hconditions := ConditionSet.Coherent.mark_self now h.coherent (by decide) h.installed
  rw [afterInstall, markInstalled, mark, ← h.version, ← h.resources]
  exact congrArg (fun conditions => { s with conditions }) hconditions

/-- Finding the deployments available again changes nothing. -/
theorem Settled.markAvailable_self (h : s.Settled version refs) (now : Timestamp) :
    markAvailable now s = s := by
  have hconditions := ConditionSet.Coherent.mark_self now h.coherent (by decide) h.available
  exact congrArg (fun conditions => { s with conditions }) hconditions

/-- What a pass that finds all well comes to stays. -/
theorem settled_markAvailable (s : InstanceStatus) (now : Timestamp) (version : String)
    (refs : List Reference) :
    (markAvailable now (s.afterInstall now version refs)).Settled version refs where
  coherent := mark_coherent (by decide) now _ _ _ _
  installed := by
    have hother : installSucceeded ≠ deploymentsAvailable := by decide
    have hhappy : installSucceeded ≠ servingConditions.happy := by decide
    exact (ConditionSet.known_mark_of_ne hhappy hother _ _ _).trans
      (ConditionSet.known_mark_self hhappy _ _ _)
  available := by
    have hhappy : deploymentsAvailable ≠ servingConditions.happy := by decide
    exact ConditionSet.known_mark_self hhappy _ _ _
  version := rfl
  resources := rfl

/-- The generation is not among what has to stay. -/
theorem Settled.observed (h : s.Settled version refs) (generation : Option Int) :
    { s with observedGeneration := generation }.Settled version refs :=
  ⟨h.coherent, h.installed, h.available, h.version, h.resources⟩

/-- A status is not ready where a deployment was found not to be available. -/
theorem not_isReady_markNotReady (s : InstanceStatus) (now : Timestamp) :
    (markNotReady now s).isReady = false := by
  have hhappy : deploymentsAvailable ≠ servingConditions.happy := by decide
  have hcoherent : (markNotReady now s).Coherent := mark_coherent hhappy now _ _ _ s
  have hknown : ConditionSet.known (markNotReady now s).conditions deploymentsAvailable =
      (.false, "NotReady", "Waiting on deployments") := ConditionSet.known_mark_self hhappy _ _ _
  refine Bool.eq_false_iff.2 fun hready => ?_
  have havailable := ((Coherent.isReady_iff hcoherent).1 hready).2
  rw [isAvailable, holds_iff, hknown] at havailable
  cases havailable

end InstanceStatus

section
variable {w w' : Rehearsal} {t : Program.Trace Call Call.Answer} {ctx : Context} {now : Timestamp}
  {p q : Pass} {i : Instance} {m : Manifest}

/-! ## What is looked at -/

theorem Rehearsal.asked_asked (calls calls' : List Call) :
    (w.asked calls).asked calls' = w.asked (calls ++ calls') := by
  rw [asked, asked, asked, List.append_assoc]

theorem Rehearsal.asked_nil (w : Rehearsal) : w.asked [] = w := by
  rw [asked, List.append_nil]

theorem Rehearsal.noted_eq_asked (hw : w.outages = []) (c : Call) : w.noted c [] = w.asked [c] := by
  rw [noted, ← hw]
  rfl

/-- The deployment of a resource is found as it is. -/
theorem Pass.availability_of_runs (hw : w.outages = []) {r : Resource} {x : Except Error Bool}
    (h : Runs world (isDeploymentAvailable r) w t x w') :
    x = w.cluster.availability r ∧ w' = w.asked [.get r.key] := by
  obtain ⟨a, -, looked, rfl⟩ := runs_isDeploymentAvailable h
  obtain ⟨rfl, rfl⟩ := world_get_eq hw looked
  refine ⟨?_, noted_eq_asked hw _⟩
  rw [Cluster.availability]
  cases w.cluster.object? r.key with
  | none => rfl
  | some live => exact map_eq_pure_bind _ (Deployment.check live)

/-- A check of deployments that comes to its end found them all available, or one that is not. -/
theorem Pass.checkEach_ok : ∀ {rs : List Resource} {w : Rehearsal}
    {t : Program.Trace Call Call.Answer}, w.outages = [] →
    Runs world (checkEach now p rs) w t (.ok q) w' →
    (∃ calls, w' = w.asked calls) ∧ ∃ f, q = p.mapStatus f ∧
      (f = InstanceStatus.markAvailable now ∧ (∀ r ∈ rs, w.cluster.availability r = .ok true) ∨
        f = InstanceStatus.markNotReady now)
  | [], w, t, _, h => by
    obtain ⟨-, hq, rfl⟩ := runs_pure.1 h
    exact ⟨⟨[], (asked_nil _).symm⟩, _, Except.ok.inj hq, .inl ⟨rfl, by simp⟩⟩
  | r :: rest, w, t, hw, h => by
    obtain ⟨available, t₁, w₁, t₂, rfl, hask, h⟩ := runs_outcome_bind.1 h
    obtain ⟨havailable, rfl⟩ := availability_of_runs hw hask
    match available, h with
    | .error e, h =>
      obtain ⟨_, ⟨⟩, -⟩ | ⟨_, t₃, w₂, t₄, rfl, -, hthrow⟩ := runs_bind.1 h
      obtain ⟨-, ⟨⟩, -⟩ := runs_throw.1 hthrow
    | .ok false, h =>
      obtain ⟨-, hq, rfl⟩ := runs_pure.1 h
      exact ⟨⟨_, rfl⟩, _, Except.ok.inj hq, .inr rfl⟩
    | .ok true, h =>
      obtain ⟨⟨calls, hcalls⟩, f, hq, hfound⟩ := checkEach_ok (w := w.asked [.get r.key]) hw h
      refine ⟨⟨[.get r.key] ++ calls, by rw [hcalls, asked_asked]⟩, f, hq, ?_⟩
      exact hfound.imp (fun ⟨hf, hrest⟩ => ⟨hf, List.forall_mem_cons.2 ⟨havailable.symm, hrest⟩⟩) id

/-- Where all deployments are available, a check of them only looks. -/
theorem Pass.checkEach_available {x : Except Error Pass} : ∀ {rs : List Resource} {w : Rehearsal}
    {t : Program.Trace Call Call.Answer}, w.outages = [] →
    (∀ r ∈ rs, w.cluster.availability r = .ok true) → Runs world (checkEach now p rs) w t x w' →
    x = .ok (p.mapStatus (InstanceStatus.markAvailable now)) ∧
      w' = w.asked (rs.map fun r => .get r.key)
  | [], w, t, _, _, h => by
    obtain ⟨-, rfl, rfl⟩ := runs_pure.1 h
    exact ⟨rfl, (asked_nil _).symm⟩
  | r :: rest, w, t, hw, hrs, h => by
    obtain ⟨hr, hrest⟩ := List.forall_mem_cons.1 hrs
    obtain ⟨available, t₁, w₁, t₂, rfl, hask, hnext⟩ := runs_outcome_bind.1 h
    obtain ⟨havailable, rfl⟩ := availability_of_runs hw hask
    obtain rfl := havailable.trans hr
    obtain ⟨rfl, hw'⟩ := checkEach_available (w := w.asked [.get r.key]) hw hrest hnext
    exact ⟨rfl, by rw [hw', asked_asked]; rfl⟩

/-- Where nothing obsolete is there, deleting it changes nothing. -/
theorem Obsolete.deleteEach_absent {x : Except Error Unit} : ∀ {keys : List ResourceKey}
    {w : Rehearsal} {t : Program.Trace Call Call.Answer}, w.Calm →
    (∀ key ∈ keys, w.cluster.object? key = none) → Runs world (deleteEach keys) w t x w' →
    x = .ok () ∧ w' = w.asked (keys.map .delete)
  | [], w, t, _, _, h => by
    obtain ⟨-, rfl, rfl⟩ := runs_pure.1 h
    exact ⟨rfl, (asked_nil _).symm⟩
  | key :: rest, w, t, hw, hkeys, h => by
    obtain ⟨hkey, hrest⟩ := List.forall_mem_cons.1 hkeys
    obtain ⟨outcome, w₁, t₁, rfl, answered, hnext⟩ := runs_ask_outcome_bind.1 h
    have hdone := world_of_calm hw.outages answered
    have habsent : (w.noted (.delete key) []).cluster.delete key =
        .error (.notFound key.kind key.describe) := by
      simp [noted, Cluster.delete, Cluster.permit, hw.failures, hkey, bind, Except.bind, throw,
        throwThe, MonadExceptOf.throw]
    rw [perform, habsent] at hdone
    obtain ⟨rfl, rfl⟩ := Prod.mk.inj hdone
    rw [noted_eq_asked hw.outages] at hnext
    have hcalm : (w.asked [.delete key]).Calm := ⟨hw.outages, hw.failures⟩
    obtain ⟨rfl, hw'⟩ := deleteEach_absent hcalm hrest hnext
    exact ⟨rfl, by rw [hw', asked_asked]; rfl⟩

/-! ## A pass that settles its instance -/

namespace Pass

theorem Carried.congr (h : p.Carried w) (hw : w'.instances = w.instances) : p.Carried w' := by
  rw [Carried, hw]
  exact h

theorem carried_start (hstored : w.instances.lookup i.identity = some i) (m : Manifest) :
    (start i m).Carried w := hstored

/-- The status that a pass writes is the one that is stored. -/
theorem carried_writeStatus (hp : p.Carried w) (h : Runs world p.writeStatus w t (.ok q) w') :
    q = p.afterWrite ∧ q.Carried w' := by
  obtain ⟨a, -, answered, hq⟩ := runs_writeStatus.1 h
  obtain ⟨e, rfl, -⟩ | ⟨rfl, j, hj, hw'⟩ := world_patchStatus answered
  · cases hq
  · obtain rfl := Except.ok.inj hq
    obtain rfl := Option.some.inj (hp.symm.trans hj)
    refine ⟨rfl, ?_⟩
    rw [Carried, hw']
    exact (InstanceStore.lookup_put _ _ _ _).trans (if_pos rfl)

/-- Behind the first stage the instance has its finalizer. -/
theorem carried_ensureFinalizer (hp : p.Carried w)
    (h : Runs world p.ensureFinalizer w t (.ok q) w') :
    q.Carried w' ∧ q.subject.hasFinalizer = true ∧
      ∃ finalizers, q = { p with subject := p.subject.evolved finalizers p.subject.status } := by
  rw [ensureFinalizer] at h
  split at h
  · next hbound =>
    obtain ⟨-, hq, rfl⟩ := runs_pure.1 h
    obtain rfl := Except.ok.inj hq
    exact ⟨hp, hbound, _, rfl⟩
  · next hunbound =>
    obtain ⟨e | _, -, answered, ⟨⟩⟩ := runs_ask_map.1 h
    obtain ⟨e, ⟨⟩, -⟩ | ⟨-, j, hj, hw'⟩ := world_addFinalizer answered
    obtain rfl := Option.some.inj (hp.symm.trans hj)
    have hadded : ({ p.subject with status := p.written } : Instance).bound Instance.finalizer =
        { p.subject.withFinalizers (p.subject.finalizers ++ [Instance.finalizer]) with
          status := p.written } := by
      rw [Instance.bound]
      exact if_neg hunbound
    refine ⟨?_, ?_, _, rfl⟩
    · rw [Carried, hw', hadded]
      exact (InstanceStore.lookup_put _ _ _ _).trans (if_pos rfl)
    · exact p.subject.hasFinalizer_append

theorem carried_initStatus (hp : p.Carried w) (h : Runs world (p.initStatus now) w t (.ok q) w') :
    q.Carried w' ∧ ∃ status written,
      q = { p with subject := { p.subject with status }, written } := by
  rw [initStatus] at h
  split at h
  · obtain ⟨-, hq, rfl⟩ := runs_pure.1 h
    obtain rfl := Except.ok.inj hq
    exact ⟨hp, _, _, rfl⟩
  · have hmarked : (p.mapStatus (InstanceStatus.complete now)).Carried w := hp
    obtain ⟨rfl, hq⟩ := carried_writeStatus hmarked h
    exact ⟨hq, _, _, rfl⟩

/-- In the end the status is written for the generation of the instance, if it was not before. -/
theorem carried_end {s : InstanceStatus} (hp : p.Carried w) (hs : p.subject.status = some s)
    (h : Runs world (if p.isUnwritten then p.writeStatus else return p) w t (.ok q) w') :
    q.Carried w' ∧ w'.cluster = w.cluster ∧
      q.written = some { s with observedGeneration := p.subject.metadata.generation } ∧
      q.subject = { p.subject with status := q.written } := by
  split at h
  · obtain ⟨hcluster, -⟩ := runs_writeStatus_cluster h
    obtain ⟨rfl, hq⟩ := carried_writeStatus hp h
    have hstamped : p.stamped = { s with observedGeneration := p.subject.metadata.generation } := by
      rw [stamped, Instance.currentStatus, hs]
      rfl
    exact ⟨hq, hcluster, congrArg some hstamped, rfl⟩
  · next hunwritten =>
    obtain ⟨-, hq, rfl⟩ := runs_pure.1 h
    obtain rfl := Except.ok.inj hq
    simp only [isUnwritten, Bool.or_eq_true, decide_eq_true_eq, not_or,
      Decidable.not_not] at hunwritten
    obtain ⟨hwritten, hgeneration⟩ := hunwritten
    rw [← hwritten, hs] at hgeneration
    have hgeneration : s.observedGeneration = q.subject.metadata.generation := hgeneration
    exact ⟨hp, rfl, by rw [← hgeneration, ← hwritten, hs], by rw [← hwritten]⟩

/-- Where no platform is looked for, a pass that was not left out has applied the release as it is
desired, and carries that along. -/
theorem runs_installed (hctx : ctx.platforms = []) (hran : (start i ctx.manifest).isDeploying = false)
    (htransformed : (start i ctx.manifest).transformed = .ok m)
    (hstored : w.instances.lookup i.identity = some i)
    (h : Runs world (runEach ctx now [.ensureFinalizer, .initStatus, .transform, .install]
      (start i ctx.manifest)) w t (.ok p) w') :
    p.Carried w' ∧ p.subject.hasFinalizer = true ∧ p.manifest = m ∧
      w'.cluster = m.applyOrder.foldl Cluster.applied w.cluster ∧
      ∃ finalizers s, p.subject = i.evolved finalizers (some
        (InstanceStatus.afterInstall now ctx.version (m.applyOrder.map Resource.reference) s)) := by
  have hleaves : ∀ f ∈ ctx.platforms, f.LeavesObjects := by simp [hctx]
  obtain ⟨p₁, t₁, w₁, _, hfinalizer, h⟩ := runs_runEach_cons_ok h
  obtain ⟨p₂, t₂, w₂, _, hinit, h⟩ := runs_runEach_cons_ok h
  obtain ⟨p₃, t₃, w₃, _, htransform, h⟩ := runs_runEach_cons_ok h
  have hinstall : Runs world (p₃.install ctx now) w₃ _ (.ok p) w' := runs_runEach_singleton.1 h
  obtain ⟨hw₁, hp₁⟩ := runs_ensureFinalizer_ok hfinalizer
  obtain ⟨hw₂, hp₂⟩ := runs_initStatus_ok hinit
  obtain ⟨hcarried₁, hbound, finalizers, rfl⟩ :=
    carried_ensureFinalizer (carried_start hstored ctx.manifest) hfinalizer
  obtain ⟨hcarried₂, status, written, rfl⟩ := carried_initStatus hcarried₁ hinit
  obtain ⟨-, -, contributions, m', t₀, hdetect, hm', hp₃⟩ := runs_transform_ok hleaves htransform
  have hran₃ : p₃.isDeploying = false := by
    rw [hp₃]
    exact (hp₂.deploying.trans hp₁.deploying).trans hran
  obtain ⟨t₄, w₄, t₅, w₅, refs, t₆, hbefore, happly, hafter, rfl⟩ := runs_install_ran hran₃ hinstall
  subst hp₃
  rw [hctx] at hdetect
  obtain ⟨-, hcontributions, rfl⟩ := runs_pure.1 hdetect
  obtain rfl := Except.ok.inj hcontributions
  obtain rfl : m' = m := Except.ok.inj (hm'.symm.trans htransformed)
  obtain ⟨-, -, rfl⟩ := runs_pure.1 hbefore
  obtain ⟨-, -, rfl⟩ := runs_pure.1 hafter
  obtain ⟨hrefs, hcluster⟩ | ⟨_, _, _, _, -, herror, -⟩ := Manifest.runs_applyEach happly
  · obtain rfl := Except.ok.inj hrefs
    have hkept := runs_onCluster (Manifest.ensures_applyEach _) happly
    exact ⟨hcarried₂.congr hkept, hbound, rfl, by rw [hcluster, hw₂, hw₁], _, _, rfl⟩
  · cases herror

/-- Behind the install the deployments are marked, and nothing obsolete is left. -/
theorem runs_checked (hp : p.Carried w) (hw : w.Calm)
    (h : Runs world (runEach ctx now [.checkDeployments, .deleteObsolete] p) w t (.ok q) w') :
    q.Carried w' ∧
      (∀ key, w'.cluster.object? key =
        if key ∈ Obsolete.keys p.subject.targetNamespace then none else w.cluster.object? key) ∧
      ∃ f, q = p.mapStatus f ∧ (f = InstanceStatus.markAvailable now ∧
        (∀ r ∈ Manifest.ofKind Deployment.kind p.manifest, w.cluster.availability r = .ok true) ∨
          f = InstanceStatus.markNotReady now) := by
  obtain ⟨p₁, t₁, w₁, t₂, hcheck, h⟩ := runs_runEach_cons_ok h
  have hcalm := runs_calm hw hcheck
  change Runs world (checkEach now p (Manifest.ofKind Deployment.kind p.manifest)) _ _ _ _ at hcheck
  obtain ⟨rfl, t₃, hdelete⟩ := runs_deleteObsolete_ok (runs_runEach_singleton.1 h)
  obtain ⟨⟨calls, rfl⟩, f, rfl, hfound⟩ := checkEach_ok hw.outages hcheck
  have hinstances : w'.instances = (w.asked calls).instances :=
    runs_onCluster (Obsolete.ensures_deleteEach (fun _ => trivial) _) hdelete
  have hgone := Obsolete.deleteEach_calm hcalm hdelete
  exact ⟨hp.congr hinstances, hgone, f, rfl, hfound⟩

/-- **A pass that installs and finds all well settles its instance.** -/
theorem runs_runAll_settles (hctx : ctx.platforms = []) (hlive : i.isDeleting = false)
    (hran : (start i ctx.manifest).isDeploying = false)
    (htransformed : (start i ctx.manifest).transformed = .ok m) (hm : m.Applicable)
    (hobsolete : ∀ r ∈ m, r.key ∉ Obsolete.keys i.targetNamespace) (hw : w.Calm)
    (hc : w.cluster.Filed) (hstored : w.instances.lookup i.identity = some i)
    (h : Runs world ((start i ctx.manifest).runAll ctx now) w t (.ok q) w')
    (hready : q.isReady = true) :
    ∃ finalizers status, w'.Settled ctx m (i.evolved finalizers status) := by
  obtain ⟨_, ⟨⟩, -⟩ | ⟨p₆, t', w₆, t₇, ht, hall, hend⟩ := runs_bind.1 h
  obtain ⟨_, ⟨⟩, -⟩ | ⟨p₄, t₁, w₄, t₂, rfl, hinstall, hlater⟩ :=
    runs_runEach_append [.ensureFinalizer, .initStatus, .transform, .install] hall
  obtain ⟨hcarried₄, hbound, rfl, hcluster₄, finalizers, s, hsubject⟩ :=
    runs_installed hctx hran htransformed hstored hinstall
  obtain ⟨hcarried₆, hgone, f, rfl, hfound⟩ := runs_checked hcarried₄ (runs_calm hw hinstall) hlater
  have htarget : p₄.subject.targetNamespace = i.targetNamespace := by
    rw [hsubject]
    rfl
  rw [htarget] at hgone
  rw [hsubject] at hbound
  let s₄ := InstanceStatus.afterInstall now ctx.version (p₄.manifest.applyOrder.map Resource.reference) s
  have hsubject₆ : (p₄.mapStatus f).subject = i.evolved finalizers (some (f s₄)) := by
    change p₄.subject.mapStatus f = _
    rw [hsubject]
    rfl
  obtain ⟨hcarried, hcluster, hwritten, hq⟩ :=
    carried_end hcarried₆ (s := f s₄) (by rw [hsubject₆]; rfl) hend
  have hsubject' : q.subject = i.evolved finalizers q.written := by
    rw [hq, hsubject₆]
    rfl
  rw [hsubject₆] at hwritten
  rw [Carried, hsubject'] at hcarried
  rw [isReady, hsubject'] at hready
  -- what is ready was not found waiting
  obtain ⟨rfl, havailable⟩ : f = InstanceStatus.markAvailable now ∧
      ∀ r ∈ Manifest.ofKind Deployment.kind p₄.manifest, w₄.cluster.availability r = .ok true := by
    refine hfound.resolve_right ?_
    rintro rfl
    have hwaiting : q.written.any InstanceStatus.isReady = false := by
      rw [hwritten]
      exact InstanceStatus.not_isReady_markNotReady s₄ now
    cases hwaiting.symm.trans hready
  have hkept : ∀ r ∈ p₄.manifest, w'.cluster.object? r.key = w₄.cluster.object? r.key := by
    intro r hr
    rw [hcluster, hgone, if_neg (hobsolete r hr)]
  exact ⟨finalizers, q.written, {
    calm := runs_calm hw h
    stored := hcarried
    live := hlive
    bound := hbound
    status := ⟨_, hwritten, (InstanceStatus.settled_markAvailable s now _ _).observed _, rfl⟩
    transformed := htransformed
    held := fun r hr => by
      refine (Cluster.holds_congr (hkept r hr)).2 ?_
      rw [hcluster₄]
      exact Cluster.holds_foldl_applied hc hm.applyOrder r (Manifest.mem_applyOrder.2 hr)
    available := fun r hr => by
      rw [← havailable r hr, Cluster.availability, hkept r (List.mem_filter.1 hr).1,
        Cluster.availability]
    clean := fun key hkey => by
      rw [hcluster]
      exact (hgone key).trans (if_pos hkey) }⟩

end Pass

/-! ## A pass on a settled instance -/

namespace Pass

theorem mapStatus_self {s : InstanceStatus} {f : InstanceStatus → InstanceStatus}
    (hs : p.subject.status = some s) (hf : f s = s) : p.mapStatus f = p := by
  have hsubject : p.subject.mapStatus f = p.subject := by
    rw [Instance.mapStatus, Instance.currentStatus, hs, Option.getD_some, hf, ← hs]
  rw [mapStatus, hsubject]

theorem ensureFinalizer_bound {x : Except Error Pass} (hbound : p.subject.hasFinalizer = true)
    (h : Runs world p.ensureFinalizer w t x w') : x = .ok p ∧ w' = w := by
  rw [ensureFinalizer, if_pos hbound] at h
  exact (runs_pure.1 h).2

theorem initStatus_known {s : InstanceStatus} {x : Except Error Pass}
    (hs : p.subject.status = some s) (hconditions : s.conditions ≠ [])
    (h : Runs world (p.initStatus now) w t x w') : x = .ok p ∧ w' = w := by
  have hknown : p.subject.status.any (fun s => !s.conditions.isEmpty) = true := by
    rw [hs]
    simpa using hconditions
  rw [initStatus, if_pos hknown] at h
  exact (runs_pure.1 h).2

/-- Where no platform is looked for, nothing is asked to transform a release. -/
theorem transform_plain {x : Except Error Pass} (hctx : ctx.platforms = [])
    (hp : p.contributions = []) (hm : p.transformed = .ok m)
    (h : Runs world (p.transform ctx now) w t x w') : x = .ok { p with manifest := m } ∧ w' = w := by
  rw [transform, hctx] at h
  obtain ⟨found, t₁, w₁, t₂, -, hdetect, hnext⟩ := runs_outcome_bind.1 h
  obtain ⟨-, rfl, rfl⟩ := runs_pure.1 hdetect
  have hself : { p with contributions := [] } = p := by rw [← hp]
  simp only [hself, hm] at hnext
  obtain ⟨-, rfl, rfl⟩ := runs_pure.1 hnext
  exact ⟨by rw [hp], rfl⟩

/-- Installing what is installed only looks at it. -/
theorem install_settled {s : InstanceStatus} {x : Except Error Pass} (hp : p.contributions = [])
    (hs : p.subject.status = some s)
    (hsettled : s.Settled ctx.version (p.manifest.applyOrder.map Resource.reference))
    (hw : w.outages = []) (hheld : ∀ r ∈ p.manifest, w.cluster.Holds r)
    (h : Runs world (p.install ctx now) w t x w') :
    x = .ok p ∧ w' = w.asked (p.manifest.applyOrder.map fun r => .get r.key) := by
  have hnot : ¬ p.subject.status.any InstanceStatus.isDeploying = true := by
    rw [hs]
    exact Bool.eq_false_iff.1 hsettled.not_isDeploying
  rw [install, if_neg hnot, hp] at h
  obtain ⟨x₁, t₁, w₁, t₂, -, hbefore, hlater⟩ := runs_outcome_bind.1 h
  obtain ⟨-, rfl, rfl⟩ := runs_pure.1 hbefore
  obtain ⟨x₂, t₃, w₂, t₄, -, happly, hrest⟩ := runs_lift_bind.1 hlater
  obtain ⟨rfl, rfl⟩ := Manifest.applyEach_held hw
    (fun r hr => hheld r (Manifest.mem_applyOrder.1 hr)) happly
  obtain ⟨x₃, t₅, w₃, t₆, -, hafter, hend⟩ := runs_outcome_bind.1 hrest
  change Runs world (Contributions.runAfter _ p.contributions) _ _ _ _ at hafter
  rw [hp] at hafter
  obtain ⟨-, rfl, rfl⟩ := runs_pure.1 hafter
  obtain ⟨-, rfl, rfl⟩ := runs_pure.1 hend
  exact ⟨congrArg Except.ok (mapStatus_self hs (hsettled.afterInstall_self now)), rfl⟩

/-- Checking deployments that are available only looks at them. -/
theorem checkDeployments_settled {version : String} {refs : List Reference} {s : InstanceStatus}
    {x : Except Error Pass} (hs : p.subject.status = some s) (hsettled : s.Settled version refs)
    (hw : w.outages = [])
    (havailable : ∀ r ∈ Manifest.ofKind Deployment.kind p.manifest, w.cluster.availability r = .ok true)
    (h : Runs world (p.checkDeployments now) w t x w') :
    x = .ok p ∧
      w' = w.asked ((Manifest.ofKind Deployment.kind p.manifest).map fun r => .get r.key) := by
  obtain ⟨rfl, rfl⟩ := checkEach_available hw havailable h
  exact ⟨congrArg Except.ok (mapStatus_self hs (hsettled.markAvailable_self now)), rfl⟩

theorem deleteObsolete_absent {x : Except Error Pass} (hw : w.Calm)
    (hkeys : ∀ key ∈ Obsolete.keys p.subject.targetNamespace, w.cluster.object? key = none)
    (h : Runs world p.deleteObsolete w t x w') :
    x = .ok p ∧ w' = w.asked ((Obsolete.keys p.subject.targetNamespace).map .delete) := by
  obtain ⟨_, hend⟩ := runs_bind_of (Obsolete.deleteEach_absent hw hkeys) h
  exact (runs_pure.1 hend).2

theorem not_isUnwritten {s : InstanceStatus} (hwritten : p.written = p.subject.status)
    (hs : p.subject.status = some s)
    (hgeneration : s.observedGeneration = p.subject.metadata.generation) :
    ¬ p.isUnwritten = true := by
  simp [isUnwritten, hwritten, hs, hgeneration]

end Pass

namespace Rehearsal.Settled

theorem asked (h : w.Settled ctx m i) (calls : List Call) : (w.asked calls).Settled ctx m i :=
  { h with calm := ⟨h.calm.outages, h.calm.failures⟩ }

/-- A pass on a settled instance comes to its end as it began, but for the release. -/
theorem runs_runAll (hctx : ctx.platforms = []) (hw : w.Settled ctx m i)
    {x : Except Error Pass} (h : Runs world ((Pass.start i ctx.manifest).runAll ctx now) w t x w') :
    x = .ok { Pass.start i ctx.manifest with manifest := m } ∧ w' = w.asked (quietCalls m i) := by
  obtain ⟨s, hs, hsettled, hgeneration⟩ := hw.status
  let p : Pass := { Pass.start i ctx.manifest with manifest := m }
  have hstages : ∀ {t x w'},
      Runs world (Pass.runEach ctx now Stage.all (Pass.start i ctx.manifest)) w t x w' →
      x = .ok p ∧ w' = w.asked (quietCalls m i) := by
    intro t x w' h
    obtain ⟨_, h⟩ := runs_bind_of (Pass.ensureFinalizer_bound hw.bound) h
    obtain ⟨_, h⟩ := runs_bind_of (Pass.initStatus_known hs hsettled.conditions_ne_nil) h
    obtain ⟨_, h⟩ := runs_bind_of (Pass.transform_plain hctx rfl hw.transformed) h
    obtain ⟨_, h⟩ :=
      runs_bind_of (Pass.install_settled (p := p) rfl hs hsettled hw.calm.outages hw.held) h
    obtain ⟨_, h⟩ := runs_bind_of (Pass.checkDeployments_settled (p := p) (w := w.asked _) hs hsettled
      hw.calm.outages hw.available) h
    obtain ⟨rfl, rfl⟩ := Pass.deleteObsolete_absent (p := p) ((hw.asked _).asked _).calm hw.clean
      (Pass.runs_runEach_singleton.1 h)
    exact ⟨rfl, by rw [asked_asked, asked_asked]; rfl⟩
  obtain ⟨_, hend⟩ := runs_bind_of hstages h
  rw [if_neg (Pass.not_isUnwritten (p := p) rfl hs hgeneration)] at hend
  exact (runs_pure.1 hend).2

theorem runs_reconcile (hctx : ctx.platforms = []) (hw : w.Settled ctx m i)
    {seen : Generations} {change : GenerationChange} {seen₀ : Generations}
    (hseen : seen₀.observe i.key (i.metadata.generation.getD 0) = .ok (change, seen))
    {x : Except Error Action × Generations}
    (h : Program.Runs world (reconcile ctx now i seen) w t x w') :
    x = (.ok .awaitChange, seen) ∧ w' = w.asked (quietCalls m i) := by
  obtain ⟨y, hall, rfl⟩ := runs_reconcile_live hw.live (Generations.observe_again hseen) h
  obtain ⟨rfl, rfl⟩ := runs_runAll hctx hw hall
  obtain ⟨s, hs, hsettled, -⟩ := hw.status
  have hready : i.status.any InstanceStatus.isReady = true := by
    rw [hs]
    exact hsettled.isReady
  refine ⟨?_, rfl⟩
  rw [Except.map, Pass.isReady]
  exact congrArg (fun action => (Except.ok action, seen)) (if_pos hready)

/-- A settled instance is left alone for good. -/
theorem resync (hctx : ctx.platforms = []) {seen seen₀ : Generations} {change : GenerationChange}
    (hseen : seen₀.observe i.key (i.metadata.generation.getD 0) = .ok (change, seen)) :
    ∀ (times : List Timestamp) {w : Rehearsal}, w.Settled ctx m i →
      Rehearsal.resync ctx i.identity times (seen, w) =
        (times.map fun _ => .ok .awaitChange, seen, w.asked (times.flatMap fun _ => quietCalls m i))
  | [], w, _ => by
    rw [Rehearsal.resync, List.map_nil, List.flatMap_nil, asked_nil]
  | now :: rest, w, hw => by
    obtain ⟨houtcome, hkept⟩ :=
      runs_reconcile hctx hw hseen (Program.runs_handler answer (reconcile ctx now i seen) w)
    have hrun : Program.run answer (reconcile ctx now i seen) w =
        ((.ok .awaitChange, seen), w.asked (quietCalls m i)) := Prod.ext houtcome hkept
    simp only [Rehearsal.resync, hw.stored, hrun, resync hctx hseen rest (hw.asked _), asked_asked]
    rfl

end Rehearsal.Settled

/-- **A ready instance is left alone.** Take a release whose resources can be merged, under different
keys that are not obsolete, a cluster where nothing is planned to fail, no platforms, and a stored
instance. If a pass on it was not left out of installing, and all is well then, every further pass on
the instance as it is stored finds all well again, at whatever time. Apart from the journal the
cluster, the instances and what was seen stay as they are: the passes only look at objects, and try
to delete obsolete ones, of which there are none. -/
theorem reconcile_quiescent (hctx : ctx.platforms = []) (hlive : i.isDeleting = false)
    (hran : i.status.any InstanceStatus.isDeploying = false)
    (htransformed : (Pass.start i ctx.manifest).transformed = .ok m) (hm : m.Applicable)
    (hobsolete : ∀ r ∈ m, r.key ∉ Obsolete.keys i.targetNamespace) (hw : w.Calm)
    (hc : w.cluster.Filed) (hstored : w.instances.lookup i.identity = some i) (now : Timestamp)
    (seen : Generations)
    (hready : (Program.run answer (reconcile ctx now i seen) w).1.1 = .ok .awaitChange) :
    let seen' := (Program.run answer (reconcile ctx now i seen) w).1.2
    let w' := (Program.run answer (reconcile ctx now i seen) w).2
    (∃ finalizers status,
      w'.instances.lookup i.identity = some (i.evolved finalizers status)) ∧
    (∀ key ∈ Obsolete.keys i.targetNamespace, w'.cluster.object? key = none) ∧
    ∀ times, resync ctx i.identity times (seen', w') =
      (times.map fun _ => .ok .awaitChange, seen',
        w'.asked (times.flatMap fun _ => quietCalls m i)) := by
  have h := Program.runs_handler answer (reconcile ctx now i seen) w
  generalize Program.run answer (reconcile ctx now i seen) w = ran at h hready
  intro seen' w'
  cases hseen : seen.observe i.key (i.metadata.generation.getD 0) with
  | error e =>
    rw [reconcile, if_neg (Bool.eq_false_iff.1 hlive), hseen] at h
    obtain ⟨-, hran', -⟩ := Program.runs_done_iff.1 h
    rw [hran'] at hready
    cases hready
  | ok found =>
    obtain ⟨y, hall, hran'⟩ := runs_reconcile_live hlive hseen h
    cases y with
    | error e =>
      rw [hran'] at hready
      cases hready
    | ok q =>
      have hq : q.isReady = true := by
        rw [hran'] at hready
        by_contra hnot
        have haction : (if q.isReady then Action.awaitChange else .requeue ctx.requeueSeconds) =
            .awaitChange := Except.ok.inj hready
        rw [if_neg hnot] at haction
        cases haction
      obtain ⟨finalizers, status, hsettled⟩ :=
        Pass.runs_runAll_settles hctx hlive hran htransformed hm hobsolete hw hc hstored hall hq
      have hseen' : seen' = found.2 := congrArg Prod.snd hran'
      refine ⟨⟨finalizers, status, hsettled.stored⟩, hsettled.clean, fun times => ?_⟩
      rw [hseen']
      exact hsettled.resync (i := i.evolved finalizers status) hctx hseen times

end

/-! ## A deployment that is available -/

namespace Solo

def alone : Context := { context with platforms := [] }

/-- A cluster in which the deployment is available already, but not yet the instance's own. -/
def running : Rehearsal := { empty with
  cluster := Cluster.insert ⟨[("apiVersion", .str "apps/v1"), ("kind", .str "Deployment"),
    ("metadata", .obj [("name", .str "activator"), ("namespace", .str "n")]),
    ("status", .obj [("conditions", .arr [.obj [("status", .str "True"),
      ("type", .str "Available")]])])]⟩ {} }

end Solo

/-- One pass makes the deployment the instance's own, and no pass after it writes anything. -/
theorem reconcile_quiescent_running :
    let ran := Program.run answer (reconcile Solo.alone Solo.now Solo.fresh []) Solo.running
    ran.1.1 = .ok .awaitChange ∧ ran.2.cluster.writes = [.update Solo.deployment.key] ∧
      ∀ times, resync Solo.alone Solo.fresh.identity times (ran.1.2, ran.2) =
        (times.map fun _ => .ok .awaitChange, ran.1.2,
          ran.2.asked (times.flatMap fun _ => quietCalls [Solo.deployment] Solo.fresh)) := by
  have hready : (Program.run answer (reconcile Solo.alone Solo.now Solo.fresh [])
      Solo.running).1.1 = .ok .awaitChange := by decide +kernel
  have htransformed : (Pass.start Solo.fresh Solo.alone.manifest).transformed =
      .ok [Solo.deployment] := rfl
  have hfiled : Solo.running.cluster.Filed := Cluster.filed_of_forall (by decide)
  obtain ⟨-, -, hquiet⟩ := reconcile_quiescent rfl (i := Solo.fresh) rfl rfl htransformed
    Solo.applicable Solo.not_obsolete (w := Solo.running) ⟨rfl, rfl⟩ hfiled rfl Solo.now [] hready
  exact ⟨hready, by decide +kernel, hquiet⟩

end ReleaseKeeper
