import ReleaseKeeper.Proofs.Instance.Store
import ReleaseKeeper.Proofs.Manifest.Delete
import ReleaseKeeper.Proofs.Reconcile.Convergence
import ReleaseKeeper.Proofs.Reconcile.Written

/-!
# Which installs are recorded

An install that succeeds changes only the status that the pass carries along; what is stored changes
when that status is written. The check of the deployments writes it before it fails
(`Pass.runs_checkEach`), and a pass that comes to its end has written it or found it stored already.
The removal of what is obsolete fails without writing it. So a successful install is recorded unless
its pass is abandoned in that last stage, and then what is stored is what was stored before
(`reconcile_records`).

What is stored is observed in the state of any world that keeps the statuses it accepts
(`StoresStatus`), so calls may fail in any pattern.
-/
namespace ReleaseKeeper

open Operation Rehearsal

/-- A status says that a version of a release was installed, with what was applied. -/
structure InstanceStatus.Records (version : String) (refs : List Reference) (s : InstanceStatus) :
    Prop where
  installed : s.isInstalled = true
  version : s.version = some version
  resources : s.resources = refs

/-- Whether a call was no attempt to write a status that was refused. -/
def isAccepted : (c : Call) × c.Answer → Bool
  | ⟨.patchStatus .., .error _⟩ => false
  | _ => true

/-- The calls end with a deletion that failed, and not because the object was gone. -/
def Abandoned (t : Program.Trace Call Call.Answer) : Prop :=
  ∃ key e, t.getLast? = some ⟨.delete key, .error e⟩ ∧ e.isNotFound = false

/-- Of the status of an instance the last one that was accepted is stored, and among the calls of a
pass no other changes what is stored. -/
structure StoresStatus {σ : Type} (world : Program.World Call Call.Answer σ) (i : Instance)
    (stored : σ → Option InstanceStatus) : Prop where
  written {s s' : σ} {status : InstanceStatus} :
    world s (.patchStatus i.namespaceName i.name status) (.ok ()) s' → stored s' = some status
  kept {s s' : σ} {c : Call} {a : c.Answer} :
    c.OfPass i (fun _ => False) → world s c a s' → stored s' = stored s

/-- The stages of a pass that come before the release is applied. -/
def Stage.front : List Stage := [.ensureFinalizer, .initStatus, .transform]

/-- Reconciling an instance begins a pass that applies the release and does not fail up to then: it
comes to `p` before the release is applied, and to `q` afterwards. -/
structure Installs {σ : Type} (handle : Program.Handler Call Call.Answer σ) (ctx : Context)
    (now : Timestamp) (i : Instance) (seen : Generations) (s : σ) (p : Pass) (s₁ : σ) (q : Pass) :
    Prop where
  live : i.isDeleting = false
  current : ∃ found, seen.observe i.key (i.metadata.generation.getD 0) = .ok found
  reached : Program.run handle
    (Pass.runEach ctx now Stage.front (Pass.start i ctx.manifest)).run s = (.ok p, s₁)
  ran : p.isDeploying = false
  succeeded : (Program.run handle (p.install ctx now).run s₁).1 = .ok q

/-! ## What is recorded -/

namespace InstanceStatus

variable {version : String} {refs : List Reference} {s : InstanceStatus} {now : Timestamp}

theorem records_markInstalled (now : Timestamp) (hversion : s.version = some version)
    (hrefs : s.resources = refs) : (s.markInstalled now).Records version refs where
  installed := by
    have hne : installSucceeded ≠ servingConditions.happy := by decide
    rw [isInstalled, holds_iff]
    exact congrArg Prod.fst (ConditionSet.known_mark_self hne _ _ _)
  version := hversion
  resources := hrefs

/-- Whatever is found of the deployments, an install stays recorded. -/
theorem Records.mark (h : s.Records version refs) (status : ConditionStatus)
    (reason message : String) :
    (s.mark now deploymentsAvailable status reason message).Records version refs where
  installed := by
    have hhappy : installSucceeded ≠ servingConditions.happy := by decide
    have hother : installSucceeded ≠ deploymentsAvailable := by decide
    have hs := h.installed
    rw [isInstalled, holds_iff] at hs ⊢
    rw [← hs]
    exact congrArg Prod.fst (ConditionSet.known_mark_of_ne hhappy hother _ _ _)
  version := h.version
  resources := h.resources

/-- The generation says nothing about the install. -/
theorem Records.observed (h : s.Records version refs) (generation : Option Int) :
    { s with observedGeneration := generation }.Records version refs :=
  ⟨h.installed, h.version, h.resources⟩

end InstanceStatus

/-! ## What is stored -/

section
variable {σ : Type} {world : Program.World Call Call.Answer σ} {s s' : σ} {i : Instance}
  {t : Program.Trace Call Call.Answer} {stored : σ → Option InstanceStatus}

/-- **The status that was written last is stored**, and what was stored before if none was. -/
theorem StoresStatus.runs {α : Type} {p : Operation.Steps α} {x : α} {Q : α → Prop}
    (hstored : StoresStatus world i stored) (hp : p.Ensures (Call.OfPass i fun _ => True) Q)
    (h : Program.Runs world p s t x s') (haccepted : ∀ e ∈ t, isAccepted e = true) :
    stored s' = (statuses t).getLast?.or (stored s) := by
  induction h with
  | done x s => rfl
  | @call c next a s s₁ s₂ t x answered _ ih =>
    obtain ⟨hfirst, hrest⟩ := List.forall_mem_cons.1 haccepted
    rw [ih (hp.2 a) hrest]
    by_cases hpatch : c.OfPass i fun _ => False
    · have hsilent : statuses (⟨c, a⟩ :: t) = statuses t := by
        obtain honcluster | ⟨status, -, hnever⟩ | rfl := Call.ofPass_cases hpatch
        · exact List.filterMap_cons_none honcluster.status?_eq_none
        · exact hnever.elim
        · rfl
      rw [hstored.kept hpatch answered, hsilent]
    · obtain honcluster | ⟨status, rfl, -⟩ | rfl := Call.ofPass_cases hp.1
      · exact (hpatch honcluster.ofPass).elim
      · obtain rfl : a = .ok () := by
          cases a with
          | error e => cases hfirst
          | ok _ => rfl
        rw [hstored.written answered]
        have hlast : statuses (⟨.patchStatus i.namespaceName i.name status, .ok ()⟩ :: t) =
            status :: statuses t := rfl
        rw [hlast, List.getLast?_cons]
        cases (statuses t).getLast? <;> rfl
      · exact (hpatch ⟨rfl, rfl⟩).elim

end

/-- A rehearsal stores the statuses that it accepts. -/
theorem Rehearsal.storesStatus (i : Instance) :
    StoresStatus world i fun w => (w.instances.lookup i.identity).bind (·.status) where
  written := by
    intro w w' status h
    obtain ⟨e, herror, -⟩ | ⟨-, j, -, hw'⟩ := world_patchStatus h
    · cases herror
    · rw [hw', Instance.identity, InstanceStore.lookup_put, if_pos rfl]
      rfl
  kept := by
    intro w w' c a hc h
    obtain honcluster | ⟨status, -, hnever⟩ | rfl := Call.ofPass_cases hc
    · rw [world_onCluster honcluster h]
    · exact hnever.elim
    · obtain ⟨e, -, hw'⟩ | ⟨-, j, hj, hw'⟩ := world_addFinalizer h
      · rw [hw']
      · obtain ⟨finalizers, hbound⟩ := j.bound_eq Instance.finalizer
        rw [hw', Instance.identity, InstanceStore.lookup_put, if_pos rfl, hj, hbound]
        rfl

namespace Pass

variable {σ : Type} {world : Program.World Call Call.Answer σ} {s s' : σ} {i : Instance}
  {t : Program.Trace Call Call.Answer} {ctx : Context} {now : Timestamp} {p q : Pass}
  {x : Except Error Pass}

/-! ## What an install leaves to be written -/

/-- An install that was not left out comes between the hooks, and what was applied is carried along
as recorded. -/
theorem runs_install_records (hran : p.isDeploying = false)
    (h : Runs world (p.install ctx now) s t (.ok q) s') :
    ∃ t₁ s₁ t₂ s₂ refs, Runs world (p.contributions.runBefore p.subject) s t₁ (.ok ()) s₁ ∧
      Program.Runs world (Manifest.applyAll p.manifest) s₁ t₂ (.ok refs) s₂ ∧
      ∃ status, q.subject.status = some status ∧ status.Records ctx.version refs := by
  obtain ⟨t₁, s₁, t₂, s₂, refs, -, hbefore, happly, -, rfl⟩ := runs_install_ran hran h
  exact ⟨t₁, s₁, t₂, s₂, refs, hbefore, happly, _, rfl,
    InstanceStatus.records_markInstalled now rfl rfl⟩

def checked (now : Timestamp) (status : ConditionStatus) (reason message : String) (p : Pass) : Pass :=
  p.mapStatus (InstanceStatus.mark now deploymentsAvailable status reason message)

/-- **The check of the deployments** comes to a mark, or it writes one before it fails. -/
theorem runs_checkEach : ∀ {rs : List Resource} {s : σ} {t : Program.Trace Call Call.Answer},
    Runs world (checkEach now p rs) s t x s' → ∃ status reason message,
      let marked := p.checked now status reason message
      (x = .ok marked ∧ statuses t = []) ∨
      (∃ e, x = .error e) ∧ ∃ t₁ a, statuses t₁ = [] ∧
        t = t₁ ++ [⟨.patchStatus p.subject.namespaceName p.subject.name marked.stamped, a⟩]
  | [], s, t, h => by
    obtain ⟨rfl, rfl, rfl⟩ := runs_pure.1 h
    exact ⟨.true, "", "", .inl ⟨rfl, rfl⟩⟩
  | r :: rest, s, t, h => by
    obtain ⟨available, t₁, s₁, t₂, rfl, hask, h⟩ := runs_outcome_bind.1 h
    have ht₁ := silent (ensures_isDeploymentAvailable (fun _ => trivial) r) hask
    match available, h with
    | .error e, h =>
      refine ⟨.false, "NotReady", e.message, .inr ?_⟩
      obtain ⟨e', rfl, hwrite⟩ | ⟨_, t₃, s₂, t₄, rfl, hwrite, hthrow⟩ := runs_bind.1 h
      · obtain ⟨a, rfl, -, -⟩ := runs_writeStatus.1 hwrite
        exact ⟨⟨e', rfl⟩, t₁, a, ht₁, rfl⟩
      · obtain ⟨a, rfl, -, -⟩ := runs_writeStatus.1 hwrite
        obtain ⟨rfl, rfl, -⟩ := runs_throw.1 hthrow
        exact ⟨⟨e, rfl⟩, t₁, a, ht₁, by rw [List.append_nil]; rfl⟩
    | .ok false, h =>
      obtain ⟨rfl, rfl, rfl⟩ := runs_pure.1 h
      exact ⟨.false, "NotReady", "Waiting on deployments", .inl ⟨rfl, by rwa [List.append_nil]⟩⟩
    | .ok true, h =>
      obtain ⟨status, reason, message, ⟨hx, ht₂⟩ | ⟨herror, t₃, a, ht₃, ht₂⟩⟩ := runs_checkEach h
      · exact ⟨status, reason, message, .inl ⟨hx, by rw [statuses_append, ht₁, ht₂]; rfl⟩⟩
      · refine ⟨status, reason, message, .inr ⟨herror, t₁ ++ t₃, a, ?_, ?_⟩⟩
        · rw [statuses_append, ht₁, ht₃]
          rfl
        · rw [ht₂, List.append_assoc]

end Pass

/-! ## What the last stage calls -/

/-- A removal of obsolete objects, with its calls and what it comes to: each key is deleted, up to
the first whose object is still there. -/
inductive Obsolete.Removed :
    List ResourceKey → Program.Trace Call Call.Answer → Except Error Unit → Prop
  | done : Removed [] [] (.ok ())
  | passed {key : ResourceKey} {rest : List ResourceKey} {a : Except Error Unit}
    {t : Program.Trace Call Call.Answer} {x : Except Error Unit}
    (clear : Manifest.obstacle? ⟨.delete key, a⟩ = none) (later : Removed rest t x) :
    Removed (key :: rest) (⟨.delete key, a⟩ :: t) x
  | stopped {key : ResourceKey} {rest : List ResourceKey} {e : Error}
    (stuck : e.isNotFound = false) :
    Removed (key :: rest) [⟨.delete key, .error e⟩] (.error (.obsoleteCleanup key.describe e.message))

theorem Obsolete.removed_deleteEach {σ : Type} {world : Program.World Call Call.Answer σ} {s' : σ}
    {x : Except Error Unit} : ∀ {keys : List ResourceKey} {s : σ}
    {t : Program.Trace Call Call.Answer}, Runs world (deleteEach keys) s t x s' → Removed keys t x
  | [], s, t, h => by
    obtain ⟨rfl, rfl, -⟩ := runs_pure.1 h
    exact .done
  | key :: rest, s, t, h => by
    obtain ⟨outcome, s₁, t₁, rfl, -, hnext⟩ := runs_ask_outcome_bind.1 h
    cases outcome with
    | ok _ => exact .passed rfl (removed_deleteEach hnext)
    | error e =>
      dsimp only at hnext
      split at hnext
      · next hgone => exact .passed (if_pos hgone) (removed_deleteEach hnext)
      · next hthere =>
        obtain ⟨rfl, rfl, -⟩ := runs_throw.1 hnext
        exact .stopped (by simpa using hthere)

theorem abandoned_append {t t' : Program.Trace Call Call.Answer} (h : t' ≠ []) :
    Abandoned (t ++ t') ↔ Abandoned t' := by
  rw [Abandoned, List.getLast?_append_of_ne_nil _ h, Abandoned]

/-- A removal is abandoned exactly if it fails. -/
theorem Obsolete.Removed.outcome {keys : List ResourceKey} {t : Program.Trace Call Call.Answer}
    {x : Except Error Unit} (h : Removed keys t x) :
    (keys ≠ [] → t ≠ []) ∧ (x = .ok () ∧ ¬ Abandoned t ∨
      Abandoned t ∧ ∃ key detail, x = .error (.obsoleteCleanup key detail)) := by
  induction h with
  | done => exact ⟨fun h => absurd rfl h, .inl ⟨rfl, by rintro ⟨_, _, ⟨⟩, -⟩⟩⟩
  | @passed key rest a t x clear later ih =>
    refine ⟨fun _ => List.cons_ne_nil _ _, ?_⟩
    by_cases ht : t = []
    · -- the last call is the one that was passed
      subst ht
      obtain ⟨-, ⟨hx, -⟩ | ⟨⟨_, _, ⟨⟩, -⟩, -⟩⟩ := ih
      refine .inl ⟨hx, ?_⟩
      rintro ⟨key', e, hlast, he⟩
      obtain ⟨rfl, rfl⟩ : key = key' ∧ a = .error e := by simpa using hlast
      simp [Manifest.obstacle?, he] at clear
    · have hlater : Abandoned (⟨.delete key, a⟩ :: t) ↔ Abandoned t :=
        abandoned_append (t := [_]) ht
      rw [hlater]
      exact ih.2
  | @stopped key rest e stuck =>
    exact ⟨fun _ => List.cons_ne_nil _ _, .inr ⟨⟨key, e, rfl, stuck⟩, _, _, rfl⟩⟩

/-! ## The stages behind the install -/

/-- What is left of a pass once its release is applied. -/
def Pass.conclude (ctx : Context) (now : Timestamp) (p : Pass) : Operation Pass := do
  let p ← Pass.runEach ctx now [.checkDeployments, .deleteObsolete] p
  if p.isUnwritten then p.writeStatus else return p

section
variable {σ : Type} {world : Program.World Call Call.Answer σ} {s s' : σ}
  {t : Program.Trace Call Call.Answer} {ctx : Context} {now : Timestamp} {p q : Pass}
  {x : Except Error Pass} {refs : List Reference}

/-- Calls that end with a status that was written are not abandoned. -/
theorem recorded_of_write {ns name version : String} {status : InstanceStatus}
    {a : Except Error Unit} (h : status.Records version refs)
    (t : Program.Trace Call Call.Answer) (before : Option InstanceStatus) :
    t ++ [⟨.patchStatus ns name status, a⟩] ≠ [] ∧
      ¬ Abandoned (t ++ [⟨.patchStatus ns name status, a⟩]) ∧
      ∃ last, (statuses (t ++ [⟨.patchStatus ns name status, a⟩])).getLast?.or before = some last ∧
        last.Records version refs := by
  rw [abandoned_append (List.cons_ne_nil _ _), statuses_append]
  refine ⟨List.append_ne_nil_of_right_ne_nil _ (List.cons_ne_nil _ _),
    by rintro ⟨key, e, ⟨⟩, -⟩, status, ?_, h⟩
  rw [show statuses [⟨Call.patchStatus ns name status, a⟩] = [status] from rfl,
    List.getLast?_concat]
  rfl

theorem Pass.runs_deleteObsolete_removed (h : Runs world p.deleteObsolete s t x s') :
    statuses t = [] ∧ t ≠ [] ∧ (x = .ok p ∧ ¬ Abandoned t ∨
      Abandoned t ∧ ∃ key detail, x = .error (.obsoleteCleanup key detail)) := by
  have hkeys : Obsolete.keys p.subject.targetNamespace ≠ [] := List.cons_ne_nil _ _
  refine ⟨(runs_deleteObsolete h).1, ?_⟩
  obtain ⟨e, rfl, hdelete⟩ | ⟨_, t₁, s₁, t₂, rfl, hdelete, hend⟩ := runs_bind.1 h
  · obtain ⟨hcalls, ⟨⟨⟩, -⟩ | ⟨habandoned, key, detail, ⟨⟩⟩⟩ := (Obsolete.removed_deleteEach hdelete).outcome
    exact ⟨hcalls hkeys, .inr ⟨habandoned, key, detail, rfl⟩⟩
  · obtain ⟨rfl, rfl, rfl⟩ := runs_pure.1 hend
    rw [List.append_nil]
    obtain ⟨hcalls, ⟨-, hdone⟩ | ⟨-, key, detail, ⟨⟩⟩⟩ := (Obsolete.removed_deleteEach hdelete).outcome
    exact ⟨hcalls hkeys, .inl ⟨rfl, hdone⟩⟩

/-- Marking the deployments keeps what is recorded. -/
theorem Pass.checked_records (now : Timestamp) {status : InstanceStatus}
    (hstatus : p.subject.status = some status) (hrecords : status.Records ctx.version refs)
    (view : ConditionStatus) (reason message : String) :
    ∃ marked, (p.checked now view reason message).subject.status = some marked ∧
      marked.Records ctx.version refs ∧
      (p.checked now view reason message).stamped.Records ctx.version refs := by
  have hcurrent : p.subject.currentStatus = status := by rw [Instance.currentStatus, hstatus]; rfl
  have hmark : (InstanceStatus.mark now deploymentsAvailable view reason message
      p.subject.currentStatus).Records ctx.version refs := hcurrent ▸ hrecords.mark view reason message
  exact ⟨_, rfl, hmark, hmark.observed _⟩

/-- The check of the deployments comes to a mark, or has written what is recorded when it fails. -/
theorem Pass.runs_check_records {status : InstanceStatus} (hstatus : p.subject.status = some status)
    (hrecords : status.Records ctx.version refs)
    (h : Runs world (runEach ctx now [.checkDeployments] p) s t x s') :
    (∃ view reason message, x = .ok (p.checked now view reason message) ∧ statuses t = []) ∨
      (∃ e, x = .error e) ∧ t ≠ [] ∧ ¬ Abandoned t ∧
        ∃ last, (statuses t).getLast?.or p.written = some last ∧ last.Records ctx.version refs := by
  obtain ⟨view, reason, message, ⟨rfl, ht⟩ | ⟨herror, t₁, a, -, rfl⟩⟩ :=
    runs_checkEach (runs_runEach_singleton.1 h)
  · exact .inl ⟨view, reason, message, rfl, ht⟩
  · obtain ⟨_, -, -, hstamped⟩ := checked_records now hstatus hrecords view reason message
    exact .inr ⟨herror, recorded_of_write hstamped t₁ _⟩

/-- The end of a pass writes a status that records what the pass carries, or it was written. -/
theorem Pass.runs_end_records {status : InstanceStatus} (hstatus : p.subject.status = some status)
    (hrecords : status.Records ctx.version refs) (hstamped : p.stamped.Records ctx.version refs)
    {before : Program.Trace Call Call.Answer} (hcalls : before ≠ []) (hdone : ¬ Abandoned before)
    (hbefore : statuses before = [])
    (h : Runs world (if p.isUnwritten then p.writeStatus else return p) s t x s') :
    before ++ t ≠ [] ∧ ¬ Abandoned (before ++ t) ∧
      ∃ last, (statuses (before ++ t)).getLast?.or p.written = some last ∧
        last.Records ctx.version refs := by
  split at h
  · obtain ⟨a, rfl, -, -⟩ := runs_writeStatus.1 h
    exact recorded_of_write hstamped _ _
  · next hunwritten =>
    obtain ⟨rfl, rfl, rfl⟩ := runs_pure.1 h
    have hwritten : p.written = some status := by
      simp only [isUnwritten, Bool.or_eq_true, decide_eq_true_eq, not_or,
        Decidable.not_not] at hunwritten
      exact hunwritten.1.symm.trans hstatus
    rw [List.append_nil, hbefore]
    exact ⟨hcalls, hdone, status, hwritten, hrecords⟩

/-- **What becomes of a recorded install.** The stages behind it write a status that records it, or
come to their end with the status that was written last, or are abandoned without having written
any. -/
theorem Pass.runs_conclude {status : InstanceStatus} (hstatus : p.subject.status = some status)
    (hrecords : status.Records ctx.version refs) (h : Runs world (p.conclude ctx now) s t x s') :
    (t ≠ [] ∧ ¬ Abandoned t ∧
      ∃ last, (statuses t).getLast?.or p.written = some last ∧ last.Records ctx.version refs) ∨
    Abandoned t ∧ statuses t = [] ∧ ∃ key detail, x = .error (.obsoleteCleanup key detail) := by
  obtain ⟨e, rfl, hstages⟩ | ⟨p₆, t₁, s₁, t₂, rfl, hstages, hend⟩ := runs_bind.1 h
  · obtain ⟨e', he, hcheck⟩ | ⟨p₅, t₁, s₁, t₂, rfl, hcheck, hdelete⟩ :=
      runs_runEach_append [.checkDeployments] hstages
    · obtain ⟨_, _, _, ⟨⟩, -⟩ | ⟨-, hrecorded⟩ := runs_check_records hstatus hrecords hcheck
      exact .inl hrecorded
    · obtain ⟨_, _, _, -, ht₁⟩ | ⟨⟨_, ⟨⟩⟩, -⟩ := runs_check_records hstatus hrecords hcheck
      obtain ⟨ht₂, hcalls, ⟨⟨⟩, -⟩ | ⟨habandoned, key, detail, ⟨⟩⟩⟩ :=
        runs_deleteObsolete_removed (runs_runEach_singleton.1 hdelete)
      refine .inr ⟨(abandoned_append hcalls).2 habandoned, ?_, key, detail, rfl⟩
      rw [statuses_append, ht₁, ht₂]
      rfl
  · obtain ⟨_, ⟨⟩, -⟩ | ⟨p₅, t₃, s₂, t₄, rfl, hcheck, hdelete⟩ :=
      runs_runEach_append [.checkDeployments] hstages
    obtain ⟨view, reason, message, hp₅, ht₃⟩ | ⟨⟨_, ⟨⟩⟩, -⟩ :=
      runs_check_records hstatus hrecords hcheck
    obtain rfl := Except.ok.inj hp₅
    obtain ⟨ht₄, hcalls, ⟨hp₆, hdone⟩ | ⟨-, _, _, ⟨⟩⟩⟩ :=
      runs_deleteObsolete_removed (runs_runEach_singleton.1 hdelete)
    obtain rfl := Except.ok.inj hp₆
    obtain ⟨marked, hmarked, hmark, hstamped⟩ :=
      checked_records now hstatus hrecords view reason message
    refine .inl (runs_end_records hmarked hmark hstamped ?_ ?_ ?_ hend)
    · exact List.append_ne_nil_of_right_ne_nil _ hcalls
    · rwa [abandoned_append hcalls]
    · rw [statuses_append, ht₃, ht₄]
      rfl

/-- A pass fails before the release is applied, or applies it and goes on. -/
theorem Pass.runs_runAll_front (h : Runs world (p.runAll ctx now) s t x s') :
    (∃ e t₁ s₁, Runs world (runEach ctx now Stage.front p) s t₁ (.error e) s₁) ∨
    ∃ p₁ t₁ s₁ t₂, t = t₁ ++ t₂ ∧ Runs world (runEach ctx now Stage.front p) s t₁ (.ok p₁) s₁ ∧
      Runs world (p₁.install ctx now >>= conclude ctx now) s₁ t₂ x s' := by
  obtain ⟨e, rfl, hstages⟩ | ⟨p₆, t₁, s₁, t₂, rfl, hstages, hend⟩ := runs_bind.1 h
  · obtain ⟨e', -, hfront⟩ | ⟨p₁, t₁, s₁, t₂, rfl, hfront, hback⟩ :=
      runs_runEach_append Stage.front hstages
    · exact .inl ⟨e', _, _, hfront⟩
    · refine .inr ⟨p₁, t₁, s₁, t₂, rfl, hfront, runs_bind.2 ?_⟩
      obtain ⟨e', he, hinstall⟩ | ⟨q, t₃, s₂, t₄, rfl, hinstall, hrest⟩ := runs_bind.1 hback
      · exact .inl ⟨e', he, hinstall⟩
      · exact .inr ⟨q, t₃, s₂, t₄, rfl, hinstall, runs_bind.2 (.inl ⟨e, rfl, hrest⟩)⟩
  · obtain ⟨_, ⟨⟩, -⟩ | ⟨p₁, t₃, s₃, t₄, rfl, hfront, hback⟩ :=
      runs_runEach_append Stage.front hstages
    refine .inr ⟨p₁, t₃, s₃, t₄ ++ t₂, by rw [List.append_assoc], hfront, runs_bind.2 (.inr ?_)⟩
    obtain ⟨_, ⟨⟩, -⟩ | ⟨q, t₅, s₄, t₆, rfl, hinstall, hrest⟩ := runs_bind.1 hback
    exact ⟨q, t₅, s₄, t₆ ++ t₂, by rw [List.append_assoc], hinstall,
      runs_bind.2 (.inr ⟨p₆, t₆, s₁, t₂, rfl, hrest, hend⟩)⟩

/-- What is written before the release is applied is what the pass takes for written. -/
theorem Pass.written_front {i : Instance} (hctx : ∀ f ∈ ctx.platforms, f.Confined)
    (h : Runs world (runEach ctx now Stage.front (start i ctx.manifest)) s t (.ok p) s') :
    p.written = (statuses t).getLast?.or i.status := by
  obtain ⟨_, ⟨⟩, -⟩ | ⟨p₁, t₁, s₁, t₂, rfl, hfirst, htransform⟩ :=
    runs_runEach_append [.ensureFinalizer, .initStatus] h
  obtain ⟨-, -, hnext⟩ := runs_front (confined_start i ctx.manifest) hfirst
  obtain ⟨hwritten, -, -⟩ := hnext p₁ rfl
  obtain ⟨ht₂, hleads⟩ := (quiet_transform hctx (runs_runEach_singleton.1 htransform)).leads rfl
  rw [statuses_append, ht₂, List.append_nil, hleads.written, hwritten]
  rfl

theorem Pass.ensures_conclude {i : Instance} (hctx : ∀ f ∈ ctx.platforms, f.Confined)
    (hp : p.On i fun _ => True) :
    (p.conclude ctx now).Ensures (Call.OfPass i fun _ => True) (Pass.On i fun _ => True) := by
  have hkept : InstanceStatus.Kept now i.metadata.generation fun _ => True := InstanceStatus.kept_true
  refine ensures_bind (ensures_runEach hkept hctx hp) fun q hq => ?_
  split
  · exact ensures_writeStatus hkept hq
  · exact ensures_pure hq

end

/-- The parts of a pass that installs. -/
theorem Installs.runs {σ : Type} {handle : Program.Handler Call Call.Answer σ} {ctx : Context}
    {now : Timestamp} {i : Instance} {seen : Generations} {s s₁ : σ} {p q : Pass}
    (h : Installs handle ctx now i seen s p s₁ q) :
    ∃ t₁ t₂ s₂ t₃ x,
      Program.calls handle (reconcile ctx now i seen) s = t₁ ++ (t₂ ++ t₃) ∧
      Runs handle.world (Pass.runEach ctx now Stage.front (Pass.start i ctx.manifest)) s t₁ (.ok p) s₁ ∧
      Runs handle.world (p.install ctx now) s₁ t₂ (.ok q) s₂ ∧
      Runs handle.world (q.conclude ctx now) s₂ t₃ x
        (Program.run handle (reconcile ctx now i seen) s).2 ∧
      ∀ e, x = .error e → (Program.run handle (reconcile ctx now i seen) s).1.1 = .error e := by
  obtain ⟨⟨change, seen'⟩, hseen⟩ := h.current
  have hreached : Runs handle.world _ s _ (.ok p) s₁ := Program.runs_iff.2 ⟨rfl, h.reached⟩
  obtain ⟨x, hpass, hx⟩ := runs_reconcile_live h.live hseen
    (Program.runs_handler handle (reconcile ctx now i seen) s)
  obtain ⟨e, t₁, s', hfront⟩ | ⟨p', t₁, s', t₂, ht, hfront, hrest⟩ := Pass.runs_runAll_front hpass
  · cases (Program.runs_unique hreached hfront).2.1
  · obtain ⟨-, hp, rfl⟩ := Program.runs_unique hreached hfront
    obtain rfl := Except.ok.inj hp
    have hsucceeded : Runs handle.world (p.install ctx now) s₁ _ (.ok q) _ :=
      Program.runs_iff.2 ⟨rfl, Prod.ext h.succeeded rfl⟩
    obtain ⟨e, rfl, hinstall⟩ | ⟨q', t₃, s₂, t₄, rfl, hinstall, hconclude⟩ := runs_bind.1 hrest
    · cases (Program.runs_unique hsucceeded hinstall).2.1
    · obtain ⟨-, hq, -⟩ := Program.runs_unique hsucceeded hinstall
      obtain rfl := Except.ok.inj hq
      refine ⟨t₁, t₃, s₂, t₄, x, ht, hfront, hinstall, hconclude, ?_⟩
      rintro e rfl
      rw [hx]
      rfl

/-- What is stored as a pass installs is what it takes for written then, and what is stored in the
end is the last that it wrote since. -/
theorem StoresStatus.of_conclude {σ : Type} {world : Program.World Call Call.Answer σ} {i : Instance}
    {stored : σ → Option InstanceStatus} (hstored : StoresStatus world i stored) {s s₁ s₂ s₃ : σ}
    (hs : stored s = i.status) {ctx : Context} (hctx : ∀ f ∈ ctx.platforms, f.Confined)
    {now : Timestamp} {p q : Pass} {t₁ t₂ t₃ : Program.Trace Call Call.Answer} {x : Except Error Pass}
    (haccepted : ∀ e ∈ t₁ ++ (t₂ ++ t₃), isAccepted e = true)
    (hfront : Runs world (Pass.runEach ctx now Stage.front (Pass.start i ctx.manifest)) s t₁ (.ok p) s₁)
    (hinstall : Runs world (p.install ctx now) s₁ t₂ (.ok q) s₂)
    (hconclude : Runs world (q.conclude ctx now) s₂ t₃ x s₃) :
    stored s₁ = q.written ∧ stored s₃ = (statuses t₃).getLast?.or q.written := by
  have hkept : InstanceStatus.Kept now i.metadata.generation fun _ => True := InstanceStatus.kept_true
  have hfrontEnsures : (Pass.runEach ctx now Stage.front (Pass.start i ctx.manifest)).Ensures
      (Call.OfPass i fun _ => True) (Pass.On i fun _ => True) :=
    Pass.ensures_runEach hkept hctx (Pass.on_start ctx.manifest trivial)
  have hp := (hfrontEnsures.of_runs hfront).2 p rfl
  have hinstallEnsures : (p.install ctx now).Ensures
      (Call.OfPass i fun _ => True) (Pass.On i fun _ => True) := Pass.ensures_install hkept hp
  have hq := (hinstallEnsures.of_runs hinstall).2 q rfl
  rw [List.forall_mem_append, List.forall_mem_append] at haccepted
  have hstored₁ : stored s₁ = p.written := by
    rw [hstored.runs hfrontEnsures hfront haccepted.1, hs]
    exact (Pass.written_front hctx hfront).symm
  -- the install itself writes no status
  obtain ⟨ht₂, hleads⟩ := (Pass.quiet_install hp.confined hinstall).leads rfl
  have hstored₂ : stored s₂ = q.written := by
    rw [hstored.runs hinstallEnsures hinstall haccepted.2.1, ht₂, hleads.written]
    exact hstored₁
  rw [hstored.runs (Pass.ensures_conclude hctx hq) hconclude haccepted.2.2, hstored₂]
  exact ⟨hstored₁.trans hleads.written.symm, rfl⟩

/-- **A successful install is recorded, unless its pass is abandoned.** However the calls of a pass
are answered, as long as the statuses that it writes are accepted: where the release was applied,
the status that is stored in the end says so, with the version and exactly what was applied, whether
the pass fails or not. The one exception is a pass that fails to remove what is obsolete: it leaves
stored what was stored before the release was applied. -/
theorem reconcile_records {σ : Type} (handle : Program.Handler Call Call.Answer σ) {i : Instance}
    {stored : σ → Option InstanceStatus} (hstored : StoresStatus handle.world i stored) {s : σ}
    (hs : stored s = i.status) {ctx : Context} (hctx : ∀ f ∈ ctx.platforms, f.Confined)
    {now : Timestamp} {seen : Generations} {p q : Pass} {s₁ : σ}
    (h : Installs handle ctx now i seen s p s₁ q)
    (haccepted : ∀ e ∈ Program.calls handle (reconcile ctx now i seen) s, isAccepted e = true) :
    let t := Program.calls handle (reconcile ctx now i seen) s
    let ran := Program.run handle (reconcile ctx now i seen) s
    let hooked := (Program.run handle (p.contributions.runBefore p.subject).run s₁).2
    ∃ refs, (Program.run handle (Manifest.applyAll p.manifest) hooked).1 = .ok refs ∧
      (¬ Abandoned t →
        ∃ status, stored ran.2 = some status ∧ status.Records ctx.version refs) ∧
      (Abandoned t → stored ran.2 = stored s₁ ∧
        ∃ key detail, ran.1.1 = .error (.obsoleteCleanup key detail)) := by
  intro t ran hooked
  obtain ⟨t₁, t₂, s₂, t₃, x, ht, hfront, hinstall, hconclude, hfailed⟩ := h.runs
  rw [ht] at haccepted
  obtain ⟨hstored₁, hstored₃⟩ := hstored.of_conclude hs hctx haccepted hfront hinstall hconclude
  obtain ⟨t₄, s₄, t₅, s₅, refs, hbefore, happly, status, hstatus, hrecords⟩ :=
    Pass.runs_install_records h.ran hinstall
  have htrace : t = t₁ ++ (t₂ ++ t₃) := ht
  refine ⟨refs, ?_, ?_⟩
  · have hhooked : hooked = s₄ := congrArg Prod.snd (Program.runs_iff.1 hbefore).2
    rw [hhooked]
    exact congrArg Prod.fst (Program.runs_iff.1 happly).2
  · rw [htrace, ← List.append_assoc]
    obtain ⟨hcalls, hdone, last, hlast, hlastRecords⟩ | ⟨habandoned, ht₃, key, detail, rfl⟩ :=
      Pass.runs_conclude hstatus hrecords hconclude
    · rw [abandoned_append hcalls]
      exact ⟨fun _ => ⟨last, hstored₃.trans hlast, hlastRecords⟩, fun h => absurd h hdone⟩
    · have hcalls : t₃ ≠ [] := by
        rintro rfl
        obtain ⟨key, e, ⟨⟩, -⟩ := habandoned
      rw [abandoned_append hcalls]
      refine ⟨fun h => absurd habandoned h, fun _ => ⟨?_, key, detail, hfailed _ rfl⟩⟩
      rw [hstored₃, ht₃, hstored₁]
      rfl

/-! ## Passes on a release of one deployment -/

namespace Solo

def unreadable : Rehearsal := { empty with
  cluster := Cluster.insert ⟨[("apiVersion", .str "apps/v1"), ("kind", .str "Deployment"),
    ("metadata", .obj [("name", .str "activator"), ("namespace", .str "n")]),
    ("status", .str "down")]⟩ {} }

/-- A cluster that refuses to delete the service of an older release. -/
def guarded : Rehearsal := { empty with
  outages := [{
    verb := "delete", subject := some "Service istio-system/knative-ingressgateway"
    error := .internal "fake-cluster" "guarded" }] }

/-- What is stored of the status of the instance. -/
def status? (w : Rehearsal) : Option InstanceStatus :=
  (w.instances.lookup fresh.identity).bind (·.status)

theorem confined : ∀ f ∈ context.platforms, f.Confined := by
  rintro f (_ | ⟨_, _ | ⟨_, ⟨⟩⟩⟩)
  · exact Platform.confined_openShift
  · exact Platform.confined_minikube

/-- Whether the pass on the instance applies the release and does not fail up to then. -/
def installs (w : Rehearsal) : Bool :=
  match Program.run answer
    (Pass.runEach context now Stage.front (Pass.start fresh context.manifest)).run w with
  | (.ok p, w₁) => !p.isDeploying && (Program.run answer (p.install context now).run w₁).1.toBool
  | (.error _, _) => false

theorem exists_installs {w : Rehearsal} (h : installs w = true) :
    ∃ p w₁ q, Installs answer context now fresh [] w p w₁ q := by
  rw [installs] at h
  split at h
  · next p w₁ hfront =>
    simp only [Bool.and_eq_true, Bool.not_eq_eq_eq_not, Bool.not_true] at h
    obtain ⟨hran, hdone⟩ := h
    cases hinstall : (Program.run answer (p.install context now).run w₁).1 with
    | error e =>
      rw [hinstall] at hdone
      cases hdone
    | ok q => exact ⟨p, w₁, q, rfl, ⟨_, rfl⟩, hfront, hran, hinstall⟩
  · cases h

end Solo

/-- A pass that fails as it cannot read the deployment has recorded what it applied. -/
theorem reconcile_records_unreadable :
    let t := Program.calls answer (reconcile Solo.context Solo.now Solo.fresh []) Solo.unreadable
    let ran := Program.run answer (reconcile Solo.context Solo.now Solo.fresh []) Solo.unreadable
    (∃ p w₁ q, Installs answer Solo.context Solo.now Solo.fresh [] Solo.unreadable p w₁ q) ∧
      (∀ e ∈ t, isAccepted e = true) ∧ ran.1.1.toBool = false ∧
      ∃ refs status, Solo.status? ran.2 = some status ∧
        status.Records Solo.context.version refs := by
  intro t ran
  obtain ⟨p, w₁, q, hinstalls⟩ : ∃ p w₁ q, Installs answer Solo.context Solo.now Solo.fresh []
      Solo.unreadable p w₁ q := Solo.exists_installs (by decide +kernel)
  have haccepted : ∀ e ∈ t, isAccepted e = true := by decide +kernel
  obtain ⟨refs, -, hrecorded, -⟩ := reconcile_records answer (Rehearsal.storesStatus Solo.fresh) rfl
    Solo.confined hinstalls haccepted
  have hnot : ¬ Abandoned t := by
    rintro ⟨key, e, hlast, -⟩
    have hverb : t.getLast?.map (·.1.verb) = some "patch_status" := by decide +kernel
    rw [hlast] at hverb
    have hsame : "delete" = "patch_status" := Option.some.inj hverb
    exact absurd hsame (by decide)
  obtain ⟨status, hstored, hrecords⟩ := hrecorded hnot
  exact ⟨⟨p, w₁, q, hinstalls⟩, haccepted, by decide +kernel, refs, status, hstored, hrecords⟩

/-- **A pass that is abandoned records nothing.** The deployment was created and every status was
accepted, but the stored status does not say that anything was installed. -/
theorem reconcile_abandoned_unrecorded :
    let t := Program.calls answer (reconcile Solo.context Solo.now Solo.fresh []) Solo.guarded
    let ran := Program.run answer (reconcile Solo.context Solo.now Solo.fresh []) Solo.guarded
    (∃ p w₁ q, Installs answer Solo.context Solo.now Solo.fresh [] Solo.guarded p w₁ q) ∧
      (∀ e ∈ t, isAccepted e = true) ∧
      (ran.2.cluster.object? Solo.deployment.key).isSome = true ∧
      ∃ status, Solo.status? ran.2 = some status ∧ status.isInstalled = false ∧
        status.version = none ∧ status.resources = [] := by
  intro t ran
  have hstored : (Solo.status? ran.2).any (fun status => !status.isInstalled &&
      status.version.isNone && status.resources.isEmpty) = true := by decide +kernel
  obtain ⟨status, hstatus, hempty⟩ := (Option.any_eq_true _ _).1 hstored
  simp only [Bool.and_eq_true, Bool.not_eq_eq_eq_not, Bool.not_true, Option.isNone_iff_eq_none,
    List.isEmpty_iff] at hempty
  exact ⟨Solo.exists_installs (by decide +kernel), by decide +kernel, by decide +kernel, status,
    hstatus, hempty.1.1, hempty.1.2, hempty.2⟩

end ReleaseKeeper
