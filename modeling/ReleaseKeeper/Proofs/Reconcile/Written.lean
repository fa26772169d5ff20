import ReleaseKeeper.Proofs.Reconcile.Statuses

/-!
# What a pass calls of its own instance

All calls of a pass are about the cluster but two: it adds the finalizer of its instance, and it
writes the status of its instance. Whatever holds of the status that was found, and is kept by all
that a pass does to a status, holds of every status that is written (`Pass.ensures_runAll`).
-/
namespace ReleaseKeeper

/-- A call of a pass on an instance: about the cluster, for the finalizer of the instance, or with a
status of the instance of which something holds. -/
def Call.OfPass (i : Instance) (P : InstanceStatus → Prop) : Call → Prop
  | .patchStatus ns name status => (ns, name) = i.identity ∧ P status
  | .addFinalizer ns name finalizer => (ns, name) = i.identity ∧ finalizer = Instance.finalizer
  | c => c.OnCluster

/-- Everything that a pass does to a status keeps a property. -/
structure InstanceStatus.Kept (now : Timestamp) (generation : Option Int)
    (P : InstanceStatus → Prop) : Prop where
  complete {s : InstanceStatus} : P s → P (s.complete now)
  mark {s : InstanceStatus} (type : String) (status : ConditionStatus) (reason message : String) :
    P s → P (s.mark now type status reason message)
  applied {s : InstanceStatus} (resources : List Reference) : P s → P { s with resources }
  installed {s : InstanceStatus} (version : String) : P s → P { s with version := some version }
  observed {s : InstanceStatus} : P s → P { s with observedGeneration := generation }

/-- A pass on an instance, with a status of which something holds. -/
structure Pass.On (i : Instance) (P : InstanceStatus → Prop) (p : Pass) : Prop where
  identity : p.subject.identity = i.identity
  generation : p.subject.metadata.generation = i.metadata.generation
  status : P p.subject.currentStatus
  confined : p.Confined

open Operation

variable {i : Instance} {P : InstanceStatus → Prop}

theorem InstanceStatus.kept_true {now : Timestamp} {generation : Option Int} :
    Kept now generation fun _ => True :=
  ⟨id, fun _ _ _ _ => id, fun _ => id, fun _ => id, id⟩

theorem Call.OnCluster.ofPass {c : Call} (h : c.OnCluster) : c.OfPass i P := by
  cases c <;> first | exact h | exact h.elim

theorem Call.ofPass_cases {c : Call} (h : c.OfPass i P) :
    c.OnCluster ∨ (∃ status, c = .patchStatus i.namespaceName i.name status ∧ P status) ∨
      c = .addFinalizer i.namespaceName i.name Instance.finalizer := by
  cases c with
  | patchStatus ns name status =>
    obtain ⟨hid, hstatus⟩ := h
    obtain ⟨rfl, rfl⟩ := Prod.mk.inj hid
    exact .inr (.inl ⟨status, rfl, hstatus⟩)
  | addFinalizer ns name finalizer =>
    obtain ⟨hid, rfl⟩ := h
    obtain ⟨rfl, rfl⟩ := Prod.mk.inj hid
    exact .inr (.inr rfl)
  | _ => exact .inl h

/-- What is about the cluster is what a pass may do. -/
theorem Operation.Ensures.ofPass {α : Type} {op : Operation α} {Q : α → Prop}
    (h : op.Ensures Call.OnCluster Q) : op.Ensures (Call.OfPass i P) Q :=
  Program.Ensures.mono h (fun _ => Call.OnCluster.ofPass) fun _ hx => hx

namespace Pass

variable {ctx : Context} {now : Timestamp} {p : Pass}

theorem On.mapStatus (hp : p.On i P) {f : InstanceStatus → InstanceStatus}
    (hf : P p.subject.currentStatus → P (f p.subject.currentStatus)) : (p.mapStatus f).On i P :=
  ⟨hp.identity, hp.generation, hf hp.status, hp.confined⟩

theorem ensures_ensureFinalizer (hp : p.On i P) :
    p.ensureFinalizer.Ensures (Call.OfPass i P) (Pass.On i P) := by
  rw [ensureFinalizer]
  split
  · exact ensures_pure hp
  · refine ensures_bind (ensures_ask ⟨hp.identity, rfl⟩) fun _ _ => ensures_pure ?_
    exact ⟨hp.identity, hp.generation, hp.status, hp.confined⟩

section
variable (hkept : InstanceStatus.Kept now i.metadata.generation P)
include hkept

theorem ensures_writeStatus (hp : p.On i P) :
    p.writeStatus.Ensures (Call.OfPass i P) (Pass.On i P) := by
  have hstamped : (p.mapStatus fun s =>
      { s with observedGeneration := p.subject.metadata.generation }).On i P :=
    hp.mapStatus (hp.generation ▸ hkept.observed)
  refine ensures_bind (ensures_ask ⟨hstamped.identity, hstamped.status⟩) fun _ _ => ?_
  exact ensures_pure ⟨hstamped.identity, hstamped.generation, hstamped.status, hstamped.confined⟩

theorem ensures_failInstall {α : Type} {Q : α → Prop} (e : Error) (hp : p.On i P) :
    (p.failInstall (α := α) now e).Ensures (Call.OfPass i P) Q :=
  ensures_bind (ensures_writeStatus hkept (hp.mapStatus (hkept.mark _ _ _ _))) fun _ _ =>
    ensures_throw

theorem ensures_initStatus (hp : p.On i P) :
    (p.initStatus now).Ensures (Call.OfPass i P) (Pass.On i P) := by
  rw [initStatus]
  split
  · exact ensures_pure hp
  · exact ensures_writeStatus hkept (hp.mapStatus hkept.complete)

theorem ensures_transform (hctx : ∀ f ∈ ctx.platforms, f.Confined) (hp : p.On i P) :
    (p.transform ctx now).Ensures (Call.OfPass i P) (Pass.On i P) := by
  refine ensures_bind (ensures_outcome (Platform.ensures_detectAll hctx).ofPass) fun found hfound => ?_
  cases found with
  | error e => exact ensures_failInstall hkept e hp
  | ok contributions =>
    have hfound : { p with contributions }.On i P :=
      ⟨hp.identity, hp.generation, hp.status, hfound contributions rfl⟩
    dsimp only
    split
    · exact ensures_failInstall hkept _ hfound
    · exact ensures_pure ⟨hp.identity, hp.generation, hp.status, hfound.confined⟩

theorem ensures_install (hp : p.On i P) :
    (p.install ctx now).Ensures (Call.OfPass i P) (Pass.On i P) := by
  rw [install]
  split
  · exact ensures_pure hp
  · have hbefore := Contributions.ensures_runBefore (i := p.subject) fun c hc h hh =>
      hp.confined c hc h (List.mem_append_left _ hh)
    have hafter : ∀ subject, (p.contributions.runAfter subject).Ensures Call.OnCluster
        fun _ => True := fun subject =>
      Contributions.ensures_runAfter fun c hc h hh => hp.confined c hc h (List.mem_append_right _ hh)
    refine ensures_bind (ensures_outcome hbefore.ofPass) fun x _ => ?_
    cases x with
    | error e => exact ensures_failInstall hkept e hp
    | ok _ =>
      refine ensures_bind (ensures_lift (Q := fun _ => True) ?_) fun y _ => ?_
      · exact (Manifest.ensures_applyEach _).mono (fun _ => Call.OnCluster.ofPass) fun _ h => h
      cases y with
      | error f => exact ensures_failInstall hkept _ (hp.mapStatus (hkept.applied _))
      | ok applied =>
        refine ensures_bind (ensures_outcome (hafter _).ofPass) fun z _ => ?_
        cases z with
        | error e => exact ensures_failInstall hkept e (hp.mapStatus (hkept.applied _))
        | ok _ =>
          refine ensures_pure ((hp.mapStatus (hkept.applied _)).mapStatus fun hs => ?_)
          exact hkept.mark _ _ _ _ (hkept.installed _ hs)

theorem ensures_checkEach (hp : p.On i P) :
    ∀ rs, (checkEach now p rs).Ensures (Call.OfPass i P) (Pass.On i P)
  | [] => ensures_pure (hp.mapStatus (hkept.mark _ _ _ _))
  | r :: rest => by
    have hlook := ensures_isDeploymentAvailable (P := Call.OfPass i P) (fun _ => trivial) r
    refine ensures_bind (ensures_outcome hlook) fun available _ => ?_
    match available with
    | .error e =>
      refine ensures_bind (ensures_writeStatus hkept ?_) fun _ _ => ensures_throw
      exact hp.mapStatus (hkept.mark _ _ _ _)
    | .ok false => exact ensures_pure (hp.mapStatus (hkept.mark _ _ _ _))
    | .ok true => exact ensures_checkEach hp rest

theorem ensures_stage (hctx : ∀ f ∈ ctx.platforms, f.Confined) (hp : p.On i P) (stage : Stage) :
    (stage.run ctx now p).Ensures (Call.OfPass i P) (Pass.On i P) := by
  cases stage with
  | ensureFinalizer => exact ensures_ensureFinalizer hp
  | initStatus => exact ensures_initStatus hkept hp
  | transform => exact ensures_transform hkept hctx hp
  | install => exact ensures_install hkept hp
  | checkDeployments => exact ensures_checkEach hkept hp _
  | deleteObsolete =>
    exact ensures_bind (Obsolete.ensures_deleteEach (fun _ => trivial) _).ofPass fun _ _ => ensures_pure hp

theorem ensures_runEach (hctx : ∀ f ∈ ctx.platforms, f.Confined) : ∀ {stages : List Stage}
    {p : Pass}, p.On i P → (runEach ctx now stages p).Ensures (Call.OfPass i P) (Pass.On i P)
  | [], _, hp => ensures_pure hp
  | stage :: _, _, hp =>
    ensures_bind (ensures_stage hkept hctx hp stage) fun _ hq => ensures_runEach hctx hq

/-- **What a pass calls.** Every status that it writes is one of its instance, and has what every
step keeps. -/
theorem ensures_runAll (hctx : ∀ f ∈ ctx.platforms, f.Confined) (hp : p.On i P) :
    (p.runAll ctx now).Ensures (Call.OfPass i P) (Pass.On i P) := by
  refine ensures_bind (ensures_runEach hkept hctx hp) fun q hq => ?_
  split
  · exact ensures_writeStatus hkept hq
  · exact ensures_pure hq

end

theorem on_start (m : Manifest) (h : P i.currentStatus) : (start i m).On i P :=
  ⟨rfl, rfl, h, confined_start i m⟩

end Pass

end ReleaseKeeper
