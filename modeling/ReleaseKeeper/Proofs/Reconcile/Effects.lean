import ReleaseKeeper.Proofs.Instance.Store
import ReleaseKeeper.Proofs.Reconcile.Convergence

/-!
# What a pass does, in order

The effects of a pass are listed before it runs: which platforms it looks for, which hooks, resources
and deployments it comes to, and what it writes. Three things decide that list besides the instance
and the release: what every platform is found to contribute, what the release is transformed into,
and how many of its deployments are available (`Pass.Course`). Whatever the calls are answered, what a
pass does is such a list from its start up to the first effect that fails (`Performed`). A failure in
front of the deletions is told in one status, and nothing is done after that
(`reconcile_effects`).
-/
namespace ReleaseKeeper

open Operation

namespace Pass

/-- Something that a pass does, or fails to do. -/
inductive Effect where
  | addFinalizer
  | writeStatus
  | detect (platform : Platform) (found : Option Contribution)
  | transform (contributions : Contributions) (release : Manifest)
  | hook (platform : String) (hook : Hook)
  | apply (r : Resource)
  | check (r : Resource) (available : Bool)
  | remove (key : ResourceKey)

/-- An effect with the status that the pass carries along as it comes to it. -/
structure Step where
  effect : Effect
  carried : InstanceStatus

/-- Some computation comes to what is expected of it, or it fails. -/
def Meets {α : Type} (expected : α) (y : Except Error α) (x : Except Error Unit) : Prop :=
  (y = .ok expected ∧ x = .ok ()) ∨ ∃ e, y = .error e ∧ x = .error e

end Pass

/-- The instance with the finalizer of the operator and a status. -/
def Instance.carrying (i : Instance) (status : InstanceStatus) : Instance :=
  { i.bound finalizer with status := some status }

/-- A status as it is written for an instance. -/
def Instance.stamp (i : Instance) (status : InstanceStatus) : InstanceStatus :=
  { status with observedGeneration := i.metadata.generation }

namespace Pass

/-- One call is made and answered. -/
def Asks {σ : Type} (world : Program.World Call Call.Answer σ) (c : Call) (s : σ)
    (t : Program.Trace Call Call.Answer) (a : c.Answer) (s' : σ) : Prop :=
  t = [⟨c, a⟩] ∧ world s c a s'

/-- What an effect does to the world, with its calls, and how it succeeds or fails. What the calls
of platforms and of their hooks are is up to them, but for looking for the platforms there are. -/
def Step.Can {σ : Type} (world : Program.World Call Call.Answer σ) (ctx : Context) (i : Instance)
    (step : Step) (s : σ) (t : Program.Trace Call Call.Answer) (x : Except Error Unit) (s' : σ) :
    Prop :=
  match step.effect with
  | .addFinalizer =>
    Asks world (.addFinalizer i.namespaceName i.name Instance.finalizer) s t x s'
  | .writeStatus => Asks world (.patchStatus i.namespaceName i.name step.carried) s t x s'
  | .detect platform found => ∃ y, Runs world platform.detect s t y s' ∧ platform.Sought t y ∧
      Meets found y x
  | .transform contributions release => t = [] ∧ s' = s ∧
      Meets release (Pipeline.builtin i >>= fun builtin => Pipeline.run
        (builtin ++ contributions.flatMap fun (_, c) => c.transformers) ctx.manifest) x
  | .hook platform h => ∃ y, Runs world (h.run (i.carrying step.carried)) s t y s' ∧
      x = y.mapError fun e => .hook platform h.name e.message
  | .apply r => ∃ y, Manifest.Application world r s t y s' ∧
      x = (y.map fun _ => ()).mapError fun e => .apply r.key.describe e.message
  | .check r available => ∃ a, Asks world (.get r.key) s t a s' ∧
      Meets available (Deployment.verdict a) x
  | .remove key => ∃ y, Asks world (.delete key) s t y s' ∧
      x = match y with
        | .ok () => .ok ()
        | .error e => if e.isNotFound then .ok () else .error (.obsoleteCleanup key.describe e.message)

/-- The status that tells of a failure, if it is told at all. -/
def Step.report? (now : Timestamp) (i : Instance) (step : Step) (e : Error) : Option InstanceStatus :=
  match step.effect with
  | .detect .. | .transform .. | .hook .. | .apply _ =>
    some (i.stamp (step.carried.markInstallFailed now e.message))
  | .check .. => some (i.stamp (step.carried.markCheckFailed now e.message))
  | .addFinalizer | .writeStatus | .remove _ => none

/-- Steps are performed one after another, to the end or up to the first that fails. -/
inductive Performed {σ : Type} (world : Program.World Call Call.Answer σ) (ctx : Context)
    (i : Instance) : List Step → σ → Program.Trace Call Call.Answer → Option (Step × Error) → σ → Prop
  | ended (s : σ) : Performed world ctx i [] s [] none s
  | succeeded {step : Step} {rest : List Step} {s s₁ s' : σ} {t t' : Program.Trace Call Call.Answer}
    {stop : Option (Step × Error)} (can : step.Can world ctx i s t (.ok ()) s₁)
    (later : Performed world ctx i rest s₁ t' stop s') :
    Performed world ctx i (step :: rest) s (t ++ t') stop s'
  | failed {step : Step} {rest : List Step} {s s' : σ} {t : Program.Trace Call Call.Answer} {e : Error}
    (can : step.Can world ctx i s t (.error e) s') :
    Performed world ctx i (step :: rest) s t (some (step, e)) s'

/-- After a step that failed its failure is told, if it is to be, and nothing else is done. -/
def Step.Told {σ : Type} (world : Program.World Call Call.Answer σ) (now : Timestamp) (i : Instance)
    (step : Step) (e : Error) (s : σ) (t : Program.Trace Call Call.Answer) (outcome : Error) (s' : σ) :
    Prop :=
  match step.report? now i e with
  | none => t = [] ∧ outcome = e ∧ s' = s
  | some status => ∃ a : Except Error Unit,
      t = [⟨.patchStatus i.namespaceName i.name status, a⟩] ∧
      world s (.patchStatus i.namespaceName i.name status) a s' ∧
      outcome = match a with
        | .ok () => e
        | .error e' => e'

/-- A run performs steps to their end and comes to a result, or up to one that fails, which it
tells. -/
inductive Unfolds {σ α : Type} (world : Program.World Call Call.Answer σ) (ctx : Context)
    (now : Timestamp) (i : Instance) (steps : List Step) (result : α) (s : σ) :
    Program.Trace Call Call.Answer → Except Error α → σ → Prop
  | ended {t : Program.Trace Call Call.Answer} {s' : σ}
    (performed : Performed world ctx i steps s t none s') :
    Unfolds world ctx now i steps result s t (.ok result) s'
  | stopped {t t' : Program.Trace Call Call.Answer} {step : Step} {e outcome : Error} {s₁ s' : σ}
    (performed : Performed world ctx i steps s t (some (step, e)) s₁)
    (told : step.Told world now i e s₁ t' outcome s') :
    Unfolds world ctx now i steps result s (t ++ t') (.error outcome) s'

/-! ## The course of a pass -/

/-- What decides the effects of a pass besides the instance and the release. -/
structure Course where
  /-- What is found of each platform. -/
  found : List (Option Contribution) := []
  /-- What the release is transformed into. -/
  release : Manifest := []
  /-- How many of the deployments are available, counted from the first. -/
  available : Nat := 0

/-- The contributions of the platforms that were found. -/
def contributed (platforms : List Platform) (found : List (Option Contribution)) : Contributions :=
  (platforms.zip found).filterMap fun (platform, c?) => c?.map fun c => (platform.name, c)

def detections (platforms : List Platform) (found : List (Option Contribution))
    (status : InstanceStatus) : List Step :=
  (platforms.zip found).map fun (platform, c?) => ⟨.detect platform c?, status⟩

/-- Running the hooks of platforms, those before or those after the release. -/
def hooks (of : Contribution → List Hook) (cs : Contributions) (status : InstanceStatus) : List Step :=
  cs.flatMap fun (platform, c) => (of c).map fun h => ⟨.hook platform h, status⟩

/-- Applying resources; what was applied before is carried along. -/
def applications (status : InstanceStatus) : List Reference → List Resource → List Step
  | _, [] => []
  | applied, r :: rest => ⟨.apply r, { status with resources := applied }⟩ ::
      applications status (applied ++ [r.reference]) rest

/-- Looking at deployments, up to the first that is not available. -/
def checks (status : InstanceStatus) : Nat → List Resource → List Step
  | _, [] => []
  | 0, r :: _ => [⟨.check r false, status⟩]
  | available + 1, r :: rest => ⟨.check r true, status⟩ :: checks status available rest

def removals (keys : List ResourceKey) (status : InstanceStatus) : List Step :=
  keys.map fun key => ⟨.remove key, status⟩

/-- The status of an instance as a pass goes on with it, with all conditions in any case. -/
def opening (now : Timestamp) (i : Instance) : InstanceStatus :=
  if i.status.any fun status => !status.conditions.isEmpty then i.currentStatus
  else i.stamp (i.currentStatus.complete now)

/-- What was applied of a release. -/
def references (release : Manifest) : List Reference := release.applyOrder.map Resource.reference

def installation (cs : Contributions) (release : Manifest) (status : InstanceStatus) : List Step :=
  hooks Contribution.before cs status ++ (applications status [] release.applyOrder ++
    hooks Contribution.after cs { status with resources := references release })

/-- The status with what was found of the deployments. -/
def verdict (now : Timestamp) (available : Nat) (deployments : List Resource)
    (status : InstanceStatus) : InstanceStatus :=
  if deployments.length ≤ available then status.markAvailable now else status.markNotReady now

namespace Course

variable (ctx : Context) (now : Timestamp) (i : Instance) (c : Course)

def installed : InstanceStatus :=
  if i.status.any InstanceStatus.isDeploying then opening now i
  else (opening now i).afterInstall now ctx.version (references c.release)

def final : InstanceStatus :=
  i.stamp (verdict now c.available (Manifest.ofKind Deployment.kind c.release) (c.installed ctx now i))

/-- The effects of a pass in order. -/
def steps : List Step :=
  (if i.hasFinalizer then [] else [⟨.addFinalizer, i.currentStatus⟩]) ++
  ((if i.status.any fun status => !status.conditions.isEmpty then []
    else [⟨.writeStatus, opening now i⟩]) ++
  ((detections ctx.platforms c.found (opening now i) ++
    [⟨.transform (contributed ctx.platforms c.found) c.release, opening now i⟩]) ++
  ((if i.status.any InstanceStatus.isDeploying then []
    else installation (contributed ctx.platforms c.found) c.release (opening now i)) ++
  (checks (c.installed ctx now i) c.available (Manifest.ofKind Deployment.kind c.release) ++
  (removals (Obsolete.keys i.targetNamespace) (c.final ctx now i) ++
  (if opening now i = c.final ctx now i then [] else [⟨.writeStatus, c.final ctx now i⟩]))))))

end Course

/-! ## Steps in a row -/

section
variable {σ α β : Type} {world : Program.World Call Call.Answer σ} {ctx : Context} {now : Timestamp}
  {i : Instance} {a b : List Step} {s s₁ s' : σ} {t t' : Program.Trace Call Call.Answer}
  {stop : Option (Step × Error)} {q : α} {r : β}

theorem performed_single (step : Step) {x : Except Error Unit} (h : step.Can world ctx i s t x s') :
    Performed world ctx i [step] s t (match x with
      | .ok () => none
      | .error e => some (step, e)) s' := by
  cases x with
  | ok _ =>
    have hone := Performed.succeeded h (.ended s')
    rwa [List.append_nil] at hone
  | error e => exact .failed h

theorem Performed.append (h : Performed world ctx i a s t none s₁)
    (h' : Performed world ctx i b s₁ t' stop s') :
    Performed world ctx i (a ++ b) s (t ++ t') stop s' := by
  generalize hstop : none = first at h
  induction h with
  | ended s => exact h'
  | succeeded can _ ih =>
    rw [List.cons_append, List.append_assoc]
    exact .succeeded can (ih h' hstop)
  | failed can => cases hstop

/-- What comes behind a step that failed does not matter. -/
theorem Performed.append_left {failure : Step × Error}
    (h : Performed world ctx i a s t (some failure) s') (b : List Step) :
    Performed world ctx i (a ++ b) s t (some failure) s' := by
  generalize hstop : some failure = stop at h
  induction h with
  | ended s => cases hstop
  | succeeded can _ ih => exact .succeeded can (ih hstop)
  | failed can => exact .failed can

/-- The step that failed is one of those to be performed. -/
theorem Performed.mem {step : Step} {e : Error}
    (h : Performed world ctx i a s t (some (step, e)) s') : step ∈ a := by
  generalize hstop : some (step, e) = stop at h
  induction h with
  | ended s => cases hstop
  | succeeded can _ ih => exact List.mem_cons_of_mem _ (ih hstop)
  | failed can =>
    cases hstop
    exact List.mem_cons_self

/-- Everything in front of the step that failed has succeeded. -/
theorem Performed.split {step : Step} {e : Error}
    (h : Performed world ctx i a s t (some (step, e)) s') :
    ∃ done rest t₁ s₁ t₂, a = done ++ step :: rest ∧ t = t₁ ++ t₂ ∧
      Performed world ctx i done s t₁ none s₁ ∧ step.Can world ctx i s₁ t₂ (.error e) s' := by
  generalize hstop : some (step, e) = stop at h
  induction h with
  | ended s => cases hstop
  | @succeeded first rest s s₁ s' t t' stop can _ ih =>
    obtain ⟨done, back, t₁, s₂, t₂, rfl, rfl, performed, hfailed⟩ := ih hstop
    refine ⟨first :: done, back, t ++ t₁, s₂, t₂, rfl, ?_, .succeeded can performed, hfailed⟩
    rw [List.append_assoc]
  | @failed first rest s s' t e can =>
    cases hstop
    exact ⟨[], rest, [], s, t, rfl, rfl, .ended s, can⟩

theorem Unfolds.performed {y : α} (h : Unfolds world ctx now i a q s t (.ok y) s') :
    y = q ∧ Performed world ctx i a s t none s' := by
  cases h with
  | ended performed => exact ⟨rfl, performed⟩

theorem Unfolds.append_left {e : Error} (h : Unfolds world ctx now i a q s t (.error e) s')
    (b : List Step) (r : β) : Unfolds world ctx now i (a ++ b) r s t (.error e) s' := by
  cases h with
  | stopped performed told => exact .stopped (performed.append_left b) told

theorem Unfolds.behind {x : Except Error α} (ha : Performed world ctx i a s t none s₁)
    (h : Unfolds world ctx now i b q s₁ t' x s') :
    Unfolds world ctx now i (a ++ b) q s (t ++ t') x s' := by
  cases h with
  | ended performed => exact .ended (ha.append performed)
  | stopped performed told =>
    rw [← List.append_assoc]
    exact .stopped (ha.append performed) told

variable (ctx now) in
/-- Where the first part of a program performs some steps, the second goes on behind them, unless it
is never come to. -/
theorem unfolds_bind_exists {ι : Type} {P : ι → Prop} {a : ι → List Step} {q : ι → α}
    {op : Operation α} {f : α → Operation β} {y : Except Error β} (h : Runs world (op >>= f) s t y s')
    (hop : ∀ {t₁ x s₁}, Runs world op s t₁ x s₁ →
      ∃ k, P k ∧ Unfolds world ctx now i (a k) (q k) s t₁ x s₁) :
    ∃ k, P k ∧ ((∀ (b : List Step) (r : β), Unfolds world ctx now i (a k ++ b) r s t y s') ∨
      ∃ t₁ s₁ t₂, t = t₁ ++ t₂ ∧ Performed world ctx i (a k) s t₁ none s₁ ∧
        Runs world (f (q k)) s₁ t₂ y s') := by
  obtain ⟨e, rfl, hrun⟩ | ⟨x, t₁, s₁, t₂, rfl, hrun, hnext⟩ := runs_bind.1 h
  · obtain ⟨k, hP, hk⟩ := hop hrun
    exact ⟨k, hP, .inl fun b r => hk.append_left b r⟩
  · obtain ⟨k, hP, hk⟩ := hop hrun
    obtain ⟨rfl, performed⟩ := hk.performed
    exact ⟨k, hP, .inr ⟨t₁, s₁, t₂, rfl, performed, hnext⟩⟩

variable (ctx now) in
theorem unfolds_bind {op : Operation α} {f : α → Operation β} {y : Except Error β}
    (h : Runs world (op >>= f) s t y s')
    (hop : ∀ {t₁ x s₁}, Runs world op s t₁ x s₁ → Unfolds world ctx now i a q s t₁ x s₁) :
    (∀ (b : List Step) (r : β), Unfolds world ctx now i (a ++ b) r s t y s') ∨
      ∃ t₁ s₁ t₂, t = t₁ ++ t₂ ∧ Performed world ctx i a s t₁ none s₁ ∧
        Runs world (f q) s₁ t₂ y s' := by
  have hfixed : ∀ {t₁ x s₁}, Runs world op s t₁ x s₁ →
      ∃ _ : Unit, True ∧ Unfolds world ctx now i a q s t₁ x s₁ :=
    fun hrun => ⟨(), trivial, hop hrun⟩
  obtain ⟨-, -, h⟩ := unfolds_bind_exists ctx now h hfixed
  exact h

end

end Pass

/-! ## The instance as a pass carries it along -/

namespace Instance

variable (i : Instance) (status : InstanceStatus)

/-- An instance that has the finalizer keeps its finalizers. -/
theorem bound_of_hasFinalizer {i : Instance} (h : i.hasFinalizer = true) :
    i.bound Instance.finalizer = i := by
  have hsame : some i.finalizers = i.metadata.finalizers := by
    cases hfinalizers : i.metadata.finalizers with
    | none => simp [hasFinalizer, finalizers, hfinalizers] at h
    | some _ => simp [finalizers, hfinalizers]
  rw [bound, if_pos (by exact h), withFinalizers, hsame]

theorem bound_of_not_hasFinalizer {i : Instance} (h : i.hasFinalizer = false) :
    i.bound Instance.finalizer = i.withFinalizers (i.finalizers ++ [Instance.finalizer]) := by
  have hnot : ¬ i.finalizers.contains finalizer = true := by simpa [hasFinalizer] using h
  rw [bound, if_neg hnot]

theorem status_bound : (i.bound Instance.finalizer).status = i.status := by
  obtain ⟨finalizers, hbound⟩ := i.bound_eq Instance.finalizer
  rw [hbound]
  rfl

theorem bound_eq_carrying {i : Instance} {status : InstanceStatus} (h : i.status = some status) :
    i.bound Instance.finalizer = i.carrying status := by
  rw [carrying, ← h, ← i.status_bound]

theorem namespaceName_carrying : (i.carrying status).namespaceName = i.namespaceName := by
  obtain ⟨finalizers, hbound⟩ := i.bound_eq Instance.finalizer
  rw [carrying, hbound]
  rfl

theorem name_carrying : (i.carrying status).name = i.name := by
  obtain ⟨finalizers, hbound⟩ := i.bound_eq Instance.finalizer
  rw [carrying, hbound]
  rfl

theorem generation_carrying :
    (i.carrying status).metadata.generation = i.metadata.generation := by
  obtain ⟨finalizers, hbound⟩ := i.bound_eq Instance.finalizer
  rw [carrying, hbound]
  rfl

theorem targetNamespace_carrying : (i.carrying status).targetNamespace = i.targetNamespace := by
  obtain ⟨finalizers, hbound⟩ := i.bound_eq Instance.finalizer
  rw [carrying, hbound]
  rfl

theorem builtin_carrying : Pipeline.builtin (i.carrying status) = Pipeline.builtin i := by
  obtain ⟨finalizers, hbound⟩ := i.bound_eq Instance.finalizer
  rw [carrying, hbound]
  rfl

/-- What is written for an instance in place of its status. -/
theorem stamp_eq_of_observed {status : InstanceStatus}
    (h : status.observedGeneration = i.metadata.generation) : i.stamp status = status := by
  rw [stamp, ← h]

end Instance

namespace Pass

section
variable {σ α : Type} {world : Program.World Call Call.Answer σ} {ctx : Context} {now : Timestamp}
  {i : Instance} {s s' s₁ : σ} {t t' : Program.Trace Call Call.Answer}

/-- A pass on an instance, from its first status on. -/
abbrev amid (i : Instance) (m : Manifest) (cs : Contributions) (written status : InstanceStatus) :
    Pass :=
  { subject := i.carrying status, manifest := m, contributions := cs, written := some written }

variable {m : Manifest} {cs : Contributions} {written status : InstanceStatus}

theorem runs_writeStatus_carrying {p : Pass} {x : Except Error Pass}
    (hp : p.subject = i.carrying status) (h : Runs world p.writeStatus s t x s') :
    ∃ a, Runs world (ask (.patchStatus i.namespaceName i.name (i.stamp status))) s t a s' ∧
      x = a.map fun _ => { p with
        subject := i.carrying (i.stamp status), written := some (i.stamp status) } := by
  obtain ⟨a, rfl, answered, rfl⟩ := runs_writeStatus.1 h
  have hstamped : p.stamped = i.stamp status := by
    rw [stamped, hp, i.generation_carrying]
    rfl
  rw [hstamped, hp, i.namespaceName_carrying, i.name_carrying] at answered ⊢
  refine ⟨a, runs_ask.2 ⟨rfl, answered⟩, ?_⟩
  rw [afterWrite, hstamped, hp]
  rfl

/-- A failure that is told is told by one status. -/
theorem told_write_throw (step : Step) {e : Error} {f : InstanceStatus → InstanceStatus}
    {x : Except Error α} (hreport : step.report? now i e = some (i.stamp (f status)))
    (h : Runs world (do
      let _ ← ((amid i m cs written status).mapStatus f).writeStatus
      throw e) s t x s') :
    ∃ outcome, x = .error outcome ∧ step.Told world now i e s t outcome s' := by
  have hmarked : ((amid i m cs written status).mapStatus f).subject = i.carrying (f status) := rfl
  simp only [Step.Told, hreport]
  obtain ⟨e', rfl, hwrite⟩ | ⟨q, t₁, s₁, t₂, rfl, hwrite, hthrow⟩ := runs_bind.1 h
  · obtain ⟨a, hask, ha⟩ := runs_writeStatus_carrying hmarked hwrite
    obtain ⟨rfl, answered⟩ := runs_ask.1 hask
    cases a with
    | ok _ => cases ha
    | error e'' =>
      obtain rfl : e' = e'' := Except.error.inj ha
      exact ⟨e', rfl, _, rfl, answered, rfl⟩
  · obtain ⟨a, hask, ha⟩ := runs_writeStatus_carrying hmarked hwrite
    obtain ⟨rfl, answered⟩ := runs_ask.1 hask
    obtain ⟨rfl, rfl, rfl⟩ := runs_throw.1 hthrow
    cases a with
    | ok _ => exact ⟨e, rfl, _, rfl, answered, rfl⟩
    | error e'' => cases ha

/-- An install that fails after some steps unfolds as them. -/
theorem unfolds_failInstall (status : InstanceStatus) {steps : List Step} {step : Step} {e : Error}
    {x : Except Error α} (q : α)
    (performed : Performed world ctx i steps s t (some (step, e)) s₁)
    (hreport : step.report? now i e = some (i.stamp (status.markInstallFailed now e.message)))
    (h : Runs world ((amid i m cs written status).failInstall now e) s₁ t' x s') :
    Unfolds world ctx now i steps q s (t ++ t') x s' := by
  obtain ⟨outcome, rfl, told⟩ := told_write_throw step hreport h
  exact .stopped performed told

/-! ## The parts of a pass -/

/-- A computation performs steps to their end and comes to a result, or up to one that fails. -/
inductive Proceeds (world : Program.World Call Call.Answer σ) (ctx : Context) (i : Instance)
    (steps : List Step) (result : α) (s : σ) :
    Program.Trace Call Call.Answer → Except Error α → σ → Prop
  | ended {t : Program.Trace Call Call.Answer} {s' : σ}
    (performed : Performed world ctx i steps s t none s') :
    Proceeds world ctx i steps result s t (.ok result) s'
  | stopped {t : Program.Trace Call Call.Answer} {step : Step} {e : Error} {s' : σ}
    (performed : Performed world ctx i steps s t (some (step, e)) s') :
    Proceeds world ctx i steps result s t (.error e) s'

variable {β : Type} {a b : List Step} {q : α} {r : β}

theorem Proceeds.append_left {e : Error} (h : Proceeds world ctx i a q s t (.error e) s')
    (b : List Step) (r : β) : Proceeds world ctx i (a ++ b) r s t (.error e) s' := by
  cases h with
  | stopped performed => exact .stopped (performed.append_left b)

theorem Proceeds.behind {x : Except Error α} (ha : Performed world ctx i a s t none s₁)
    (h : Proceeds world ctx i b q s₁ t' x s') : Proceeds world ctx i (a ++ b) q s (t ++ t') x s' := by
  cases h with
  | ended performed => exact .ended (ha.append performed)
  | stopped performed => exact .stopped (ha.append performed)

theorem Proceeds.cons {step : Step} {x : Except Error α} (h : step.Can world ctx i s t (.ok ()) s₁)
    (hrest : Proceeds world ctx i a q s₁ t' x s') :
    Proceeds world ctx i (step :: a) q s (t ++ t') x s' :=
  hrest.behind (performed_single step h)

theorem proceeds_bind {op : Operation α} {f : α → Operation β} {y : Except Error β}
    (h : Runs world (op >>= f) s t y s')
    (hop : ∀ {t₁ x s₁}, Runs world op s t₁ x s₁ → Proceeds world ctx i a q s t₁ x s₁)
    (hf : ∀ {s₁ t₂}, Runs world (f q) s₁ t₂ y s' → Proceeds world ctx i b r s₁ t₂ y s') :
    Proceeds world ctx i (a ++ b) r s t y s' := by
  obtain ⟨e, rfl, hrun⟩ | ⟨x, t₁, s₁, t₂, rfl, hrun, hnext⟩ := runs_bind.1 h
  · exact (hop hrun).append_left b r
  · cases hop hrun with
    | ended performed => exact (hf hnext).behind performed

theorem proceeds_detectAll (ctx : Context) (i : Instance) (status : InstanceStatus) :
    ∀ {platforms : List Platform} {s : σ} {t : Program.Trace Call Call.Answer}
      {x : Except Error Contributions},
    Runs world (Platform.detectAll platforms) s t x s' → ∃ found : List (Option Contribution),
      found.length = platforms.length ∧
      Proceeds world ctx i (detections platforms found status) (contributed platforms found) s t x s'
  | [], s, t, x, h => by
    obtain ⟨rfl, rfl, rfl⟩ := runs_pure.1 h
    exact ⟨[], rfl, .ended (.ended _)⟩
  | p :: rest, s, t, x, h => by
    obtain ⟨e, rfl, hdetect⟩ | ⟨c?, t₁, s₁, t₂, rfl, hdetect, hnext⟩ := runs_bind.1 h
    · -- what the others would contribute does not matter
      refine ⟨none :: rest.map fun _ => none, by simp, ?_⟩
      have hcan : Step.Can world ctx i ⟨.detect p none, status⟩ s t (.error e) s' :=
        ⟨_, hdetect, Platform.sought_of_runs hdetect, .inr ⟨e, rfl, rfl⟩⟩
      exact .stopped (.failed hcan)
    · have hcan : Step.Can world ctx i ⟨.detect p c?, status⟩ s t₁ (.ok ()) s₁ :=
        ⟨_, hdetect, Platform.sought_of_runs hdetect, .inl ⟨rfl, rfl⟩⟩
      have hlater : ∃ found : List (Option Contribution), found.length = rest.length ∧
          Proceeds world ctx i (detections rest found status)
            (contributed (p :: rest) (c? :: found)) s₁ t₂ x s' := by
        cases c? with
        | none => exact proceeds_detectAll ctx i status hnext
        | some c =>
          obtain ⟨e, rfl, hrest⟩ | ⟨cs, t₃, s₂, t₄, rfl, hrest, hend⟩ := runs_bind.1 hnext
          · obtain ⟨found, hlength, hproceeds⟩ := proceeds_detectAll ctx i status hrest
            cases hproceeds with
            | stopped performed => exact ⟨found, hlength, .stopped performed⟩
          · obtain ⟨rfl, rfl, rfl⟩ := runs_pure.1 hend
            obtain ⟨found, hlength, hproceeds⟩ := proceeds_detectAll ctx i status hrest
            rw [List.append_nil]
            cases hproceeds with
            | ended performed => exact ⟨found, hlength, .ended performed⟩
      obtain ⟨found, hlength, hproceeds⟩ := hlater
      exact ⟨c? :: found, by simp [hlength], hproceeds.cons hcan⟩

theorem proceeds_runHooks {platform : String} : ∀ {hs : List Hook} {s : σ}
    {t : Program.Trace Call Call.Answer} {x : Except Error Unit},
    Runs world (Contributions.runHooks (i.carrying status) platform hs) s t x s' →
      Proceeds world ctx i (hs.map fun h => ⟨.hook platform h, status⟩) () s t x s'
  | [], s, t, x, h => by
    obtain ⟨rfl, rfl, rfl⟩ := runs_pure.1 h
    exact .ended (.ended _)
  | hook :: rest, s, t, x, h => by
    obtain ⟨y, t₁, s₁, t₂, rfl, hrun, hnext⟩ := runs_outcome_bind.1 h
    have hcan : Step.Can world ctx i ⟨.hook platform hook, status⟩ s t₁ _ s₁ := ⟨y, hrun, rfl⟩
    cases y with
    | error e =>
      obtain ⟨rfl, rfl, rfl⟩ := runs_throw.1 hnext
      rw [List.append_nil]
      exact .stopped (.failed hcan)
    | ok _ => exact (proceeds_runHooks hnext).cons hcan

theorem proceeds_runBefore : ∀ {cs : Contributions} {s : σ} {t : Program.Trace Call Call.Answer}
    {x : Except Error Unit}, Runs world (cs.runBefore (i.carrying status)) s t x s' →
      Proceeds world ctx i (hooks Contribution.before cs status) () s t x s'
  | [], s, t, x, h => by
    obtain ⟨rfl, rfl, rfl⟩ := runs_pure.1 h
    exact .ended (.ended _)
  | c :: rest, s, t, x, h => proceeds_bind h proceeds_runHooks proceeds_runBefore

theorem proceeds_runAfter : ∀ {cs : Contributions} {s : σ} {t : Program.Trace Call Call.Answer}
    {x : Except Error Unit}, Runs world (cs.runAfter (i.carrying status)) s t x s' →
      Proceeds world ctx i (hooks Contribution.after cs status) () s t x s'
  | [], s, t, x, h => by
    obtain ⟨rfl, rfl, rfl⟩ := runs_pure.1 h
    exact .ended (.ended _)
  | c :: rest, s, t, x, h => proceeds_bind h proceeds_runHooks proceeds_runAfter

/-- Applying resources performs an application for each, up to the first that fails; what is told of
a failure is what was applied before. -/
theorem performed_applyEach (ctx : Context) (i : Instance) (status : InstanceStatus) :
    ∀ {rs : List Resource} {s : σ} {t : Program.Trace Call Call.Answer}
    {x : Except Manifest.ApplyFailure (List Reference)} (before : List Reference),
    Program.Runs world (Manifest.applyEach rs) s t x s' →
      (x = .ok (rs.map Resource.reference) ∧
        Performed world ctx i (applications status before rs) s t none s') ∨
      ∃ f r, x = .error f ∧ Performed world ctx i (applications status before rs) s t
        (some (⟨.apply r, { status with resources := before ++ f.applied }⟩, f.toError)) s'
  | [], s, t, x, before, h => by
    obtain ⟨rfl, rfl, rfl⟩ := Program.runs_done_iff.1 h
    exact .inl ⟨rfl, .ended _⟩
  | r :: rest, s, t, x, before, h => by
    obtain ⟨e, rfl, hr⟩ | ⟨done, t₁, s₁, t₂, y, rfl, hr, hrest, rfl⟩ :=
      Manifest.runs_applyEach_cons.1 h
    · have hcan : Step.Can world ctx i ⟨.apply r, { status with resources := before }⟩ s t
          (.error (.apply r.key.describe e.message)) s' :=
        ⟨_, Manifest.application_of_runs hr, rfl⟩
      refine .inr ⟨_, r, rfl, ?_⟩
      rw [List.append_nil]
      exact .failed hcan
    · have hcan : Step.Can world ctx i ⟨.apply r, { status with resources := before }⟩ s t₁
          (.ok ()) s₁ := ⟨_, Manifest.application_of_runs hr, rfl⟩
      obtain ⟨rfl, performed⟩ | ⟨f, r', rfl, performed⟩ :=
        performed_applyEach ctx i status (before ++ [r.reference]) hrest
      · exact .inl ⟨rfl, .succeeded hcan performed⟩
      · refine .inr ⟨_, r', rfl, ?_⟩
        have hlater := Performed.succeeded hcan performed
        rwa [List.append_assoc] at hlater

theorem proceeds_deleteEach : ∀ {keys : List ResourceKey} {s : σ}
    {t : Program.Trace Call Call.Answer} {x : Except Error Unit},
    Runs world (Obsolete.deleteEach keys) s t x s' →
      Proceeds world ctx i (removals keys status) () s t x s'
  | [], s, t, x, h => by
    obtain ⟨rfl, rfl, rfl⟩ := runs_pure.1 h
    exact .ended (.ended _)
  | key :: rest, s, t, x, h => by
    obtain ⟨y, s₁, t₁, rfl, answered, hnext⟩ := runs_ask_outcome_bind.1 h
    have hcan : Step.Can world ctx i ⟨.remove key, status⟩ s [⟨.delete key, y⟩] _ s₁ :=
      ⟨y, ⟨rfl, answered⟩, rfl⟩
    cases y with
    | ok _ => exact (proceeds_deleteEach hnext).cons hcan
    | error e =>
      dsimp only at hnext hcan
      split at hnext
      · next hgone =>
        rw [if_pos hgone] at hcan
        exact (proceeds_deleteEach hnext).cons hcan
      · next hthere =>
        rw [if_neg hthere] at hcan
        obtain ⟨rfl, rfl, rfl⟩ := runs_throw.1 hnext
        exact .stopped (.failed hcan)

/-! ## Stages -/

/-- Where no failure is told, a computation unfolds as it proceeds. -/
theorem Proceeds.unfolds {x : Except Error α} (h : Proceeds world ctx i a q s t x s')
    (hsilent : ∀ step ∈ a, ∀ e, step.report? now i e = none) :
    Unfolds world ctx now i a q s t x s' := by
  cases h with
  | ended performed => exact .ended performed
  | stopped performed =>
    rename_i step e
    have htold : step.Told world now i e s' [] e s' := by
      simp [Step.Told, hsilent step performed.mem e]
    rw [← List.append_nil t]
    exact .stopped performed htold

theorem unfolds_ensureFinalizer {x : Except Error Pass}
    (h : Runs world (start i m).ensureFinalizer s t x s') :
    Unfolds world ctx now i (if i.hasFinalizer then [] else [⟨.addFinalizer, i.currentStatus⟩])
      { start i m with subject := i.bound Instance.finalizer } s t x s' := by
  rw [ensureFinalizer] at h
  split at h
  · next hhas =>
    have hhas : i.hasFinalizer = true := hhas
    obtain ⟨rfl, rfl, rfl⟩ := runs_pure.1 h
    rw [if_pos hhas, Instance.bound_of_hasFinalizer hhas]
    exact .ended (.ended _)
  · next hhas =>
    have hhas : i.hasFinalizer = false := Bool.eq_false_iff.2 hhas
    rw [if_neg (by simp [hhas]), Instance.bound_of_not_hasFinalizer hhas]
    refine Proceeds.unfolds ?_ (by simp [Step.report?])
    obtain ⟨a, ht, answered, rfl⟩ := runs_ask_map.1 h
    have hcan : Step.Can world ctx i ⟨.addFinalizer, i.currentStatus⟩ s t a s' := ⟨ht, answered⟩
    have hperformed := performed_single _ hcan
    cases a with
    | error e => exact .stopped hperformed
    | ok _ => exact .ended hperformed

/-- Writing the status is one step, whose failure is not told. -/
theorem unfolds_writeStatus {p : Pass} {x : Except Error Pass} (hp : p.subject = i.carrying status)
    (h : Runs world p.writeStatus s t x s') :
    Unfolds world ctx now i [⟨.writeStatus, i.stamp status⟩]
      { p with subject := i.carrying (i.stamp status), written := some (i.stamp status) } s t x s' := by
  obtain ⟨a, hask, rfl⟩ := runs_writeStatus_carrying hp h
  have hcan : Step.Can world ctx i ⟨.writeStatus, i.stamp status⟩ s t a s' := runs_ask.1 hask
  have hperformed := performed_single _ hcan
  refine Proceeds.unfolds ?_ (by simp [Step.report?])
  cases a with
  | ok _ => exact .ended hperformed
  | error e => exact .stopped hperformed

theorem unfolds_initStatus {x : Except Error Pass}
    (h : Runs world
      (initStatus now { start i m with subject := i.bound Instance.finalizer }) s t x s') :
    Unfolds world ctx now i
      (if i.status.any fun status => !status.conditions.isEmpty then []
        else [⟨.writeStatus, opening now i⟩])
      (amid i m [] (opening now i) (opening now i)) s t x s' := by
  unfold initStatus at h
  rw [opening]
  simp only [i.status_bound] at h
  split at h
  · next hhas =>
    obtain ⟨rfl, rfl, rfl⟩ := runs_pure.1 h
    obtain ⟨status, hsome, -⟩ := (Option.any_eq_true _ _).1 hhas
    rw [if_pos hhas, if_pos hhas, start, amid, Instance.bound_eq_carrying hsome,
      Instance.currentStatus, hsome]
    exact .ended (.ended _)
  · next hnone =>
    rw [if_neg hnone, if_neg hnone]
    refine unfolds_writeStatus ?_ h
    rw [Instance.carrying, Instance.currentStatus, ← i.status_bound]
    rfl

theorem unfolds_transform {x : Except Error Pass}
    (h : Runs world ((amid i ctx.manifest [] written status).transform ctx now) s t x s') :
    ∃ k : List (Option Contribution) × Manifest, k.1.length = ctx.platforms.length ∧
      Unfolds world ctx now i (detections ctx.platforms k.1 status ++
        [⟨.transform (contributed ctx.platforms k.1) k.2, status⟩])
        (amid i k.2 (contributed ctx.platforms k.1) written status) s t x s' := by
  obtain ⟨cs, t₁, s₁, t₂, rfl, hdetect, h⟩ := runs_outcome_bind.1 h
  obtain ⟨found, hlength, hproceeds⟩ := proceeds_detectAll ctx i status hdetect
  cases hproceeds with
  | stopped performed =>
    refine ⟨(found, []), hlength, unfolds_failInstall status _ (performed.append_left _) ?_ h⟩
    obtain ⟨f, -, rfl⟩ := List.mem_map.1 performed.mem
    rfl
  | ended performed =>
    dsimp only at h
    have hbuiltin : transformed { amid i ctx.manifest [] written status with
        contributions := contributed ctx.platforms found } =
        Pipeline.builtin i >>= fun builtin =>
          Pipeline.run (builtin ++ (contributed ctx.platforms found).transformers) ctx.manifest := by
      rw [transformed, i.builtin_carrying]
    rw [hbuiltin] at h
    split at h
    · next e hfailed =>
      have hcan : Step.Can world ctx i ⟨.transform (contributed ctx.platforms found) [], status⟩
          s₁ [] (.error e) s₁ := ⟨rfl, rfl, .inr ⟨e, hfailed, rfl⟩⟩
      refine ⟨(found, []), hlength, ?_⟩
      have hperformed := performed.append (performed_single _ hcan)
      rw [List.append_nil] at hperformed
      exact unfolds_failInstall status _ hperformed rfl h
    · next release hrelease =>
      obtain ⟨rfl, rfl, rfl⟩ := runs_pure.1 h
      have hcan : Step.Can world ctx i
          ⟨.transform (contributed ctx.platforms found) release, status⟩ s' [] (.ok ()) s' :=
        ⟨rfl, rfl, .inl ⟨hrelease, rfl⟩⟩
      exact ⟨(found, release), hlength, .ended (performed.append (performed_single _ hcan))⟩

theorem mem_hooks {of : Contribution → List Hook} {step : Step} (h : step ∈ hooks of cs status) :
    ∃ platform hook, step = ⟨.hook platform hook, status⟩ := by
  obtain ⟨⟨platform, c⟩, -, hstep⟩ := List.mem_flatMap.1 h
  obtain ⟨hook, -, rfl⟩ := List.mem_map.1 hstep
  exact ⟨platform, hook, rfl⟩

theorem unfolds_install {x : Except Error Pass}
    (h : Runs world ((amid i m cs written status).install ctx now) s t x s') :
    Unfolds world ctx now i (if status.isDeploying then [] else installation cs m status)
      (amid i m cs written (if status.isDeploying then status
        else status.afterInstall now ctx.version (references m))) s t x s' := by
  rw [install] at h
  by_cases hdeploying : status.isDeploying = true
  · rw [if_pos (by exact hdeploying)] at h
    obtain ⟨rfl, rfl, rfl⟩ := runs_pure.1 h
    rw [if_pos hdeploying, if_pos hdeploying]
    exact .ended (.ended _)
  · rw [if_neg (by exact hdeploying)] at h
    rw [if_neg hdeploying, if_neg hdeploying, installation]
    obtain ⟨y, t₁, s₁, t₂, rfl, hbefore, h⟩ := runs_outcome_bind.1 h
    have hproceeds : Proceeds world ctx i (hooks Contribution.before cs status) () s t₁ y s₁ :=
      proceeds_runBefore hbefore
    cases hproceeds with
    | stopped performed =>
      refine unfolds_failInstall status _ (performed.append_left _) ?_ h
      obtain ⟨platform, hook, rfl⟩ := mem_hooks performed.mem
      rfl
    | ended hbefored =>
      refine Unfolds.behind hbefored ?_
      obtain ⟨y, t₃, s₂, t₄, rfl, happly, h⟩ := runs_lift_bind.1 h
      obtain ⟨rfl, happlied⟩ | ⟨f, r, rfl, performed⟩ :=
        performed_applyEach ctx i status [] happly
      · refine Unfolds.behind happlied ?_
        obtain ⟨y, t₅, s₃, t₆, rfl, hafter, h⟩ := runs_outcome_bind.1 h
        have hproceeds : Proceeds world ctx i
            (hooks Contribution.after cs { status with resources := references m }) () s₂ t₅ y s₃ :=
          proceeds_runAfter hafter
        cases hproceeds with
        | stopped performed =>
          obtain ⟨platform, hook, rfl⟩ := mem_hooks performed.mem
          exact unfolds_failInstall { status with resources := references m } _ performed rfl h
        | ended performed =>
          obtain ⟨rfl, rfl, rfl⟩ := runs_pure.1 h
          rw [List.append_nil]
          exact .ended performed
      · exact unfolds_failInstall { status with resources := f.applied } _
          (performed.append_left _) rfl h

theorem unfolds_checkEach : ∀ {rs : List Resource} {s : σ} {t : Program.Trace Call Call.Answer}
    {x : Except Error Pass}, Runs world (checkEach now (amid i m cs written status) rs) s t x s' →
      ∃ available, Unfolds world ctx now i (checks status available rs)
        (amid i m cs written (verdict now available rs status)) s t x s'
  | [], s, t, x, h => by
    obtain ⟨rfl, rfl, rfl⟩ := runs_pure.1 h
    exact ⟨0, .ended (.ended _)⟩
  | r :: rest, s, t, x, h => by
    obtain ⟨y, t₁, s₁, t₂, rfl, hask, hnext⟩ := runs_outcome_bind.1 h
    obtain ⟨found, rfl, looked, hverdict⟩ := runs_isDeploymentAvailable hask
    match y, hverdict.symm, hnext with
    | .error e, hverdict, hnext =>
      have hcan : Step.Can world ctx i ⟨.check r false, status⟩ s _ (.error e) s₁ :=
        ⟨found, ⟨rfl, looked⟩, .inr ⟨e, hverdict, rfl⟩⟩
      obtain ⟨outcome, rfl, told⟩ := told_write_throw ⟨.check r false, status⟩ rfl hnext
      exact ⟨0, .stopped (.failed hcan) told⟩
    | .ok false, hverdict, hnext =>
      obtain ⟨rfl, rfl, rfl⟩ := runs_pure.1 hnext
      have hcan : Step.Can world ctx i ⟨.check r false, status⟩ s _ (.ok ()) s' :=
        ⟨found, ⟨rfl, looked⟩, .inl ⟨hverdict, rfl⟩⟩
      rw [List.append_nil]
      exact ⟨0, .ended (performed_single _ hcan)⟩
    | .ok true, hverdict, hnext =>
      have hcan : Step.Can world ctx i ⟨.check r true, status⟩ s _ (.ok ()) s₁ :=
        ⟨found, ⟨rfl, looked⟩, .inl ⟨hverdict, rfl⟩⟩
      obtain ⟨available, hunfolds⟩ := unfolds_checkEach hnext
      refine ⟨available + 1, ?_⟩
      have hrest : verdict now (available + 1) (r :: rest) status =
          verdict now available rest status := by
        simp only [verdict, List.length_cons, Nat.add_le_add_iff_right]
      rw [hrest]
      exact hunfolds.behind (performed_single _ hcan)

theorem unfolds_deleteObsolete {x : Except Error Pass} (carried : InstanceStatus)
    (h : Runs world (amid i m cs written status).deleteObsolete s t x s') :
    Unfolds world ctx now i (removals (Obsolete.keys i.targetNamespace) carried)
      (amid i m cs written status) s t x s' := by
  rw [deleteObsolete, i.targetNamespace_carrying] at h
  have hproceeds : Proceeds world ctx i (removals (Obsolete.keys i.targetNamespace) carried ++ [])
      (amid i m cs written status) s t x s' := by
    refine proceeds_bind h proceeds_deleteEach fun hend => ?_
    obtain ⟨rfl, rfl, rfl⟩ := runs_pure.1 hend
    exact .ended (.ended _)
  rw [List.append_nil] at hproceeds
  exact hproceeds.unfolds (by simp [removals, Step.report?])

/-! ## The stages together -/

/-- What is left of a pass from some stages on. -/
def finish (ctx : Context) (now : Timestamp) : List Stage → Pass → Operation Pass
  | [], p => if p.isUnwritten then p.writeStatus else return p
  | stage :: rest, p => do finish ctx now rest (← stage.run ctx now p)

theorem runs_finish {x : Except Error Pass} : ∀ {stages : List Stage} {p : Pass} {s : σ}
    {t : Program.Trace Call Call.Answer}, Runs world (do
      let q ← runEach ctx now stages p
      if q.isUnwritten then q.writeStatus else return q) s t x s' →
    Runs world (finish ctx now stages p) s t x s'
  | [], p, s, t, h => h
  | stage :: rest, p, s, t, h => by
    obtain ⟨e, rfl, hstages⟩ | ⟨q, t₁, s₁, t₂, rfl, hstages, hend⟩ := runs_bind.1 h
    · obtain ⟨e', he, hstage⟩ | ⟨p₁, t₁, s₁, t₂, rfl, hstage, hrest⟩ := runs_bind.1 hstages
      · exact runs_bind.2 (.inl ⟨e', he, hstage⟩)
      · refine runs_bind.2 (.inr ⟨p₁, t₁, s₁, t₂, rfl, hstage, runs_finish ?_⟩)
        exact runs_bind.2 (.inl ⟨e, rfl, hrest⟩)
    · obtain ⟨_, ⟨⟩, -⟩ | ⟨p₁, t₃, s₂, t₄, rfl, hstage, hrest⟩ := runs_bind.1 hstages
      rw [List.append_assoc]
      refine runs_bind.2 (.inr ⟨p₁, t₃, s₂, t₄ ++ t₂, rfl, hstage, runs_finish ?_⟩)
      exact runs_bind.2 (.inr ⟨q, t₄, s₁, t₂, rfl, hrest, hend⟩)

/-- The status is written in the end exactly if what is to be written was not written last. -/
theorem isUnwritten_amid (h : status.observedGeneration = written.observedGeneration) :
    (amid i m cs written status).isUnwritten = true ↔ written ≠ i.stamp status := by
  have hunwritten : (amid i m cs written status).isUnwritten = true ↔
      status ≠ written ∨ written.observedGeneration ≠ i.metadata.generation := by
    have hgeneration := i.generation_carrying status
    simp only [isUnwritten, hgeneration, Bool.or_eq_true, decide_eq_true_eq]
    simp [Instance.carrying]
  rw [hunwritten, Ne, Ne, Ne, ← not_and_or, not_iff_not]
  constructor
  · rintro ⟨rfl, hobserved⟩
    exact (i.stamp_eq_of_observed hobserved).symm
  · intro hwritten
    have hobserved : written.observedGeneration = i.metadata.generation := by rw [hwritten]; rfl
    exact ⟨by rw [hwritten, i.stamp_eq_of_observed (h.trans hobserved)], hobserved⟩

theorem unfolds_end {x : Except Error Pass}
    (hobserved : status.observedGeneration = written.observedGeneration)
    (h : Runs world (finish ctx now [] (amid i m cs written status)) s t x s') :
    Unfolds world ctx now i (if written = i.stamp status then [] else [⟨.writeStatus, i.stamp status⟩])
      (amid i m cs (i.stamp status) (i.stamp status)) s t x s' := by
  rw [finish] at h
  by_cases hwritten : written = i.stamp status
  · have hskipped : ¬ (amid i m cs written status).isUnwritten = true := by
      rw [isUnwritten_amid hobserved]
      exact not_not_intro hwritten
    rw [if_neg hskipped] at h
    obtain ⟨rfl, rfl, rfl⟩ := runs_pure.1 h
    have hsame : status = i.stamp status := by
      refine (i.stamp_eq_of_observed ?_).symm
      rw [hobserved, hwritten]
      rfl
    rw [if_pos hwritten, ← hsame, hwritten, ← hsame]
    exact .ended (.ended _)
  · rw [if_pos ((isUnwritten_amid hobserved).2 hwritten)] at h
    rw [if_neg hwritten]
    exact unfolds_writeStatus rfl h

theorem unfolds_removed {x : Except Error Pass}
    (hobserved : status.observedGeneration = written.observedGeneration)
    (h : Runs world (finish ctx now [.deleteObsolete] (amid i m cs written status)) s t x s') :
    Unfolds world ctx now i (removals (Obsolete.keys i.targetNamespace) (i.stamp status) ++
        (if written = i.stamp status then [] else [⟨.writeStatus, i.stamp status⟩]))
      (amid i m cs (i.stamp status) (i.stamp status)) s t x s' := by
  obtain hstopped | ⟨t₁, s₁, t₂, rfl, hremoved, hend⟩ :=
    unfolds_bind ctx now h (unfolds_deleteObsolete (i.stamp status))
  · exact hstopped _ _
  · exact (unfolds_end hobserved hend).behind hremoved

theorem unfolds_checked {x : Except Error Pass}
    (hobserved : status.observedGeneration = written.observedGeneration)
    (h : Runs world (finish ctx now [.checkDeployments, .deleteObsolete] (amid i m cs written status))
      s t x s') :
    ∃ available, let final := i.stamp (verdict now available (Manifest.ofKind Deployment.kind m) status)
      Unfolds world ctx now i (checks status available (Manifest.ofKind Deployment.kind m) ++
          (removals (Obsolete.keys i.targetNamespace) final ++
          (if written = final then [] else [⟨.writeStatus, final⟩])))
        (amid i m cs final final) s t x s' := by
  obtain ⟨available, -, hstopped | ⟨t₁, s₁, t₂, rfl, hchecked, hrest⟩⟩ :=
    unfolds_bind_exists ctx now h fun hrun => (unfolds_checkEach hrun).imp fun _ hk => ⟨trivial, hk⟩
  · exact ⟨available, hstopped _ _⟩
  · have hverdict : (verdict now available (Manifest.ofKind Deployment.kind m)
        status).observedGeneration = written.observedGeneration := by
      rw [← hobserved, verdict]
      split <;> rfl
    exact ⟨available, (unfolds_removed hverdict hrest).behind hchecked⟩

theorem unfolds_installed {x : Except Error Pass}
    (h : Runs world (finish ctx now [.install, .checkDeployments, .deleteObsolete]
      (amid i m cs written written)) s t x s') :
    ∃ available,
      let installed := if written.isDeploying then written
        else written.afterInstall now ctx.version (references m)
      let final := i.stamp (verdict now available (Manifest.ofKind Deployment.kind m) installed)
      Unfolds world ctx now i ((if written.isDeploying then [] else installation cs m written) ++
          (checks installed available (Manifest.ofKind Deployment.kind m) ++
          (removals (Obsolete.keys i.targetNamespace) final ++
          (if written = final then [] else [⟨.writeStatus, final⟩]))))
        (amid i m cs final final) s t x s' := by
  obtain hstopped | ⟨t₁, s₁, t₂, rfl, hinstalled, hrest⟩ := unfolds_bind ctx now h unfolds_install
  · exact ⟨0, hstopped _ _⟩
  · obtain ⟨available, hunfolds⟩ := unfolds_checked (by split <;> rfl) hrest
    exact ⟨available, hunfolds.behind hinstalled⟩

theorem isDeploying_opening :
    (opening now i).isDeploying = i.status.any InstanceStatus.isDeploying := by
  have hcurrent : i.currentStatus.isDeploying = i.status.any InstanceStatus.isDeploying := by
    rw [Instance.currentStatus]
    cases i.status <;> rfl
  rw [← hcurrent, opening]
  split
  · rfl
  · exact InstanceStatus.isDeploying_complete

/-- **A pass unfolds as its course says.** -/
theorem unfolds_runAll {x : Except Error Pass}
    (h : Runs world ((start i ctx.manifest).runAll ctx now) s t x s') :
    ∃ c : Course, c.found.length = ctx.platforms.length ∧
      Unfolds world ctx now i (c.steps ctx now i)
        (amid i c.release (contributed ctx.platforms c.found) (c.final ctx now i) (c.final ctx now i))
        s t x s' := by
  replace h := runs_finish h
  -- the course of a pass that fails before its platforms are found
  obtain ⟨idle, hidle⟩ : ∃ c : Course, c.found.length = ctx.platforms.length :=
    ⟨{ found := ctx.platforms.map fun _ => none }, by simp⟩
  obtain hstopped | ⟨t₁, s₁, t₂, rfl, hbound, h⟩ := unfolds_bind ctx now h unfolds_ensureFinalizer
  · exact ⟨idle, hidle, hstopped _ _⟩
  obtain hstopped | ⟨t₃, s₂, t₄, rfl, hopened, h⟩ := unfolds_bind ctx now h unfolds_initStatus
  · exact ⟨idle, hidle, (hstopped _ _).behind hbound⟩
  obtain ⟨⟨found, release⟩, hlength, hstopped | ⟨t₅, s₃, t₆, rfl, htransformed, h⟩⟩ :=
    unfolds_bind_exists ctx now h unfolds_transform
  · exact ⟨{ found, release }, hlength, ((hstopped _ _).behind hopened).behind hbound⟩
  obtain ⟨available, hrest⟩ := unfolds_installed h
  rw [isDeploying_opening] at hrest
  exact ⟨{ found, release, available }, hlength,
    ((hrest.behind htransformed).behind hopened).behind hbound⟩

end

end Pass

/-! ## Reconciling -/

/-- **The effects of a pass, in order.** On an instance that is not being deleted and whose generation
is not refused, whatever the calls are answered and whatever the platforms, their hooks and their
transformers do: the pass performs the steps of its course from the first on. Either all of them
succeed and make up its calls, or one fails: then those in front of it have succeeded, none behind it
is begun, and besides theirs there is at most the one call that tells the failure. -/
theorem reconcile_effects {σ : Type} (handle : Program.Handler Call Call.Answer σ) (s : σ)
    (ctx : Context) (now : Timestamp) {i : Instance} (hlive : i.isDeleting = false)
    {seen seen' : Generations} {change : GenerationChange}
    (hseen : seen.observe i.key (i.metadata.generation.getD 0) = .ok (change, seen')) :
    let t := Program.calls handle (reconcile ctx now i seen) s
    let ran := Program.run handle (reconcile ctx now i seen) s
    ∃ c : Pass.Course, c.found.length = ctx.platforms.length ∧
      ((Pass.Performed handle.world ctx i (c.steps ctx now i) s t none ran.2 ∧
        ran.1.1 = .ok (if (c.final ctx now i).isReady then .awaitChange
          else .requeue ctx.requeueSeconds)) ∨
      ∃ done step rest e t₁ s₁ t₂ s₂ t₃ outcome, c.steps ctx now i = done ++ step :: rest ∧
        t = t₁ ++ t₂ ++ t₃ ∧ Pass.Performed handle.world ctx i done s t₁ none s₁ ∧
        step.Can handle.world ctx i s₁ t₂ (.error e) s₂ ∧
        step.Told handle.world now i e s₂ t₃ outcome ran.2 ∧ ran.1.1 = .error outcome) := by
  have hrun := Program.runs_handler handle (reconcile ctx now i seen) s
  generalize Program.calls handle (reconcile ctx now i seen) s = t at hrun ⊢
  generalize Program.run handle (reconcile ctx now i seen) s = ran at hrun ⊢
  obtain ⟨y, hall, hran⟩ := runs_reconcile_live hlive hseen hrun
  obtain ⟨c, hlength, hunfolds⟩ := Pass.unfolds_runAll hall
  refine ⟨c, hlength, ?_⟩
  rw [hran]
  cases hunfolds with
  | ended performed => exact .inl ⟨performed, rfl⟩
  | stopped performed told =>
    obtain ⟨done, rest, t₁, s₁, t₂, hsteps, rfl, hdone, hfailed⟩ := performed.split
    exact .inr ⟨done, _, rest, _, t₁, s₁, t₂, _, _, _, hsteps, rfl, hdone, hfailed, told, rfl⟩

namespace Solo

/-- A platform that wants something done before the release is applied, and something after it. -/
def edge : Platform :=
  Platform.declared { name := "edge", before := ["prepare"], after := ["announce"] }

def onEdge : Context := { context with platforms := [edge] }

/-- A cluster in which the second of these cannot be done. -/
def unannounced : Rehearsal := { empty with
  outages := [{
    verb := "hook", subject := some "announce n/serving", error := .internal "edge" "refused" }] }

end Solo

/-- The hook behind the release fails: what is in front of it has been done, the release is applied,
no deployment is looked at, and the failure is told. -/
theorem reconcile_effects_unannounced :
    let t :=
      Program.calls Rehearsal.answer (reconcile Solo.onEdge Solo.now Solo.fresh []) Solo.unannounced
    let ran :=
      Program.run Rehearsal.answer (reconcile Solo.onEdge Solo.now Solo.fresh []) Solo.unannounced
    Solo.fresh.isDeleting = false ∧
      t.map (·.1.verb) =
        ["patch_status", "detect", "hook", "get", "create", "hook", "patch_status"] ∧
      ∃ c done step rest e t₁ s₁ t₂ s₂ t₃,
        Pass.Course.steps Solo.onEdge Solo.now Solo.fresh c = done ++ step :: rest ∧
        t = t₁ ++ t₂ ++ t₃ ∧
        Pass.Performed Rehearsal.world Solo.onEdge Solo.fresh done Solo.unannounced t₁ none s₁ ∧
        step.Can Rehearsal.world Solo.onEdge Solo.fresh s₁ t₂ (.error e) s₂ ∧
        step.Told Rehearsal.world Solo.now Solo.fresh e s₂ t₃
          (.hook "edge" "announce" "internal error [edge]: refused") ran.2 := by
  intro t ran
  have herror : ran.1.1 = .error (.hook "edge" "announce" "internal error [edge]: refused") := by
    decide +kernel
  obtain ⟨found, hseen⟩ : ∃ found, Generations.observe Solo.fresh.key
      (Solo.fresh.metadata.generation.getD 0) [] = .ok found := ⟨_, rfl⟩
  obtain ⟨c, -, ⟨-, hok⟩ | ⟨done, step, rest, e, t₁, s₁, t₂, s₂, t₃, outcome, hsteps, ht, hdone,
    hfailed, htold, houtcome⟩⟩ := reconcile_effects Rehearsal.answer Solo.unannounced Solo.onEdge
      Solo.now (i := Solo.fresh) rfl hseen
  · cases herror.symm.trans hok
  · obtain rfl := Except.error.inj (herror.symm.trans houtcome)
    exact ⟨rfl, by decide +kernel, c, done, step, rest, e, t₁, s₁, t₂, s₂, t₃, hsteps, ht, hdone,
      hfailed, htold⟩

end ReleaseKeeper
