import ReleaseKeeper.Proofs.Reconcile.Addresses
import ReleaseKeeper.Proofs.Reconcile.Cleared
import ReleaseKeeper.Proofs.Reconcile.Convergence
import ReleaseKeeper.Proofs.Reconcile.Removal
import ReleaseKeeper.Proofs.Transform.Owner

/-!
# What is left over any history

In a history instances come, change and go, and passes on them follow one another (`History`). What
is tagged in it was installed for one of the instances that were reconciled, where that instance
asked for it then, and belongs to the instance if it can (`History.accounted`): a pass tags nothing
else (`Pass.tagsOnly_runAll`), and a teardown tags nothing at all.

The last teardown deletes what would be installed for its instance now. So it leaves nothing but
definitions of kinds, what belongs to an instance that is gone, and what was installed into another
namespace for an instance that could not own it (`last_teardown_leaves`). That such objects are left
is no mistake of the proof (`last_teardown_leaks`).
-/
namespace ReleaseKeeper

open Operation Rehearsal

/-- A call that makes no tagged object: nothing is replaced, and nothing tagged is created. -/
def Call.TagsNothing : Call → Prop
  | .create r => r.isTagged = false
  | .update _ => False
  | _ => True

/-- Every tagged object is what it was before, or one of which something holds. -/
def Cluster.TagsOnly (Q : ResourceKey → Resource → Prop) (c c' : Cluster) : Prop :=
  ∀ key x, c'.object? key = some x → x.isTagged = true → c.object? key = some x ∨ Q key x

/-- An object lies where a resource of the release is installed for an instance, and belongs to the
instance if it can. -/
def Instance.Installs (ctx : Context) (i : Instance) (key : ResourceKey) (x : Resource) : Prop :=
  ∃ r ∈ ctx.manifest, (Transformer.moveTo i.targetNamespace r).key = key ∧
    (i.canOwn = true → r.isClusterScoped = false → x.isOwnedBy i = true)

/-- Every tagged object was installed for one of some instances. -/
def Cluster.Accounted (ctx : Context) (passed : List Instance) (c : Cluster) : Prop :=
  ∀ key x, c.object? key = some x → x.isTagged = true →
    ∃ j ∈ passed, j.isDeleting = false ∧ j.Installs ctx key x

/-- What can become of a rehearsal, with the instances that were reconciled, the last one first.
Passes follow one another that succeed. In between instances may change, and what is planned to
fail; objects may go, but are written by nobody else. -/
inductive History (ctx : Context) (w₀ : Rehearsal) : List Instance → Rehearsal → Prop
  | start : History ctx w₀ [] w₀
  | changed {passed : List Instance} {w w' : Rehearsal} (before : History ctx w₀ passed w)
    (objects : ∀ key x, w'.cluster.object? key = some x → w.cluster.object? key = some x) :
    History ctx w₀ passed w'
  | reconciled {passed : List Instance} {w : Rehearsal} (before : History ctx w₀ passed w)
    (now : Timestamp) (i : Instance) (seen : Generations) {action : Action}
    (ok : (Program.run answer (reconcile ctx now i seen) w).1.1 = .ok action) :
    History ctx w₀ (i :: passed) (Program.run answer (reconcile ctx now i seen) w).2

/-- What is left of an installation: what belongs to an instance that was reconciled, and what was
installed for one that could not own it into another namespace than is torn down now. -/
def Left (ctx : Context) (passed : List Instance) (i : Instance) (key : ResourceKey) (x : Resource) :
    Prop :=
  ∃ j ∈ passed, j.isDeleting = false ∧
    (j.canOwn = true ∧ x.isOwnedBy j = true ∨
      j.canOwn = false ∧ j.targetNamespace ≠ i.targetNamespace ∧
        ∃ r ∈ ctx.manifest, r.isClusterScoped = false ∧
          (Transformer.moveTo j.targetNamespace r).key = key)

variable {w w' w₀ : Rehearsal} {t : Program.Trace Call Call.Answer} {ctx : Context}
  {now : Timestamp} {i : Instance} {Q : ResourceKey → Resource → Prop}

/-! ## What tags nothing -/

namespace Cluster

variable {c c₁ c' : Cluster}

theorem TagsOnly.refl (c : Cluster) : TagsOnly Q c c := fun _ _ hx _ => .inl hx

theorem TagsOnly.trans (h : TagsOnly Q c c₁) (h' : TagsOnly Q c₁ c') : TagsOnly Q c c' := by
  intro key x hx htag
  obtain hbefore | hQ := h' key x hx htag
  · exact h key x hbefore htag
  · exact .inr hQ

theorem tagsOnly_world {c : Call} {a : c.Answer} (hc : c.TagsNothing) (h : world w c a w') :
    TagsOnly Q w.cluster w'.cluster := by
  intro key x hx htag
  refine .inl ?_
  cases c with
  | create r =>
    obtain ⟨_, -, hkept⟩ | ⟨-, hstore⟩ := world_create h
    · rwa [hkept] at hx
    · rw [hstore, object?_store] at hx
      split at hx
      · -- what is created is not tagged
        obtain rfl := Option.some.inj hx
        rw [Resource.isTagged_stamp, show r.isTagged = false from hc] at htag
        cases htag
      · exact hx
  | update r => exact hc.elim
  | delete j =>
    obtain ⟨_, -, hkept⟩ | ⟨-, hdrop⟩ := world_delete h
    · rwa [hkept] at hx
    · rw [hdrop] at hx
      split at hx
      · cases hx
      · exact hx
  | _ =>
    have hkept := world_keeps (by exact trivial) h
    rwa [hkept] at hx

theorem tagsOnly_runs {α : Type} {p : Operation.Steps α} {R : α → Prop} {x : α}
    (h : p.Ensures Call.TagsNothing R) (hrun : Program.Runs world p w t x w') :
    TagsOnly Q w.cluster w'.cluster := by
  induction hrun with
  | done x s => exact .refl _
  | call answered _ ih => exact (tagsOnly_world h.1 answered).trans (ih (h.2 _))

/-! ## What an application tags -/

theorem tagsOnly_applied {r : Resource} (hc : c.Filed) (hr : r.Proper)
    (hQ : ∀ x, (c.applied r).object? r.key = some x → Q r.key x) : TagsOnly Q c (c.applied r) := by
  intro key x hx htag
  by_cases hkey : key = r.key
  · rw [hkey] at hx ⊢
    exact .inr (hQ x hx)
  · rw [object?_applied_of_ne hc hr hkey] at hx
    exact .inl hx

theorem tagsOnly_foldl_applied : ∀ {m : Manifest} {c : Cluster}, c.Filed →
    (∀ r ∈ m, r.Proper ∧ ∀ c : Cluster, c.Filed → ∀ x, (c.applied r).object? r.key = some x →
      Q r.key x) → TagsOnly Q c (m.foldl applied c)
  | [], c, _, _ => .refl c
  | r :: rest, c, hc, hm => by
    obtain ⟨⟨hr, hQ⟩, hrest⟩ := List.forall_mem_cons.1 hm
    exact (tagsOnly_applied hc hr (hQ c hc)).trans
      (tagsOnly_foldl_applied (filed_applied hc hr) hrest)

end Cluster

namespace Platform

theorem tagsNothing_createServiceCerts : createServiceCerts.Makes Call.TagsNothing := by
  intro i
  refine ensures_bind (ensures_ask trivial) fun found _ => ?_
  cases found with
  | some _ => exact ensures_pure trivial
  | none =>
    refine ensures_bind (ensures_outcome (ensures_ask rfl)) fun x _ => ?_
    split
    · exact ensures_pure trivial
    · exact ensures_pure trivial
    · exact ensures_throw

/-- What the platforms contribute leaves the head of every resource alone, and tags nothing before
the release is applied. -/
theorem ensures_detectAll_tagsNothing {platforms : List Platform}
    (h : ∀ p ∈ platforms, p = openShift ∨ p = minikube) :
    (detectAll platforms).Ensures Call.TagsNothing fun cs => ∀ c ∈ cs,
      (∀ f ∈ c.2.transformers, f.Aside) ∧ ∀ hook ∈ c.2.before, hook.Makes Call.TagsNothing := by
  refine ensures_detectAll_known (Q := fun c => (∀ f ∈ c.transformers, f.Aside) ∧
      ∀ hook ∈ c.before, hook.Makes Call.TagsNothing) h (fun _ => trivial) (fun _ _ => trivial)
    (fun domain network => ⟨?_, ?_⟩) ⟨?_, ?_⟩
  · simp only [List.forall_mem_cons, List.not_mem_nil, false_imp_iff, implies_true, and_true]
    exact ⟨Transformer.aside_ingressDomain domain, Transformer.aside_egress _ network,
      Transformer.aside_serviceCerts⟩
  · exact List.forall_mem_singleton.2 tagsNothing_createServiceCerts
  · exact List.forall_mem_singleton.2 (Transformer.aside_egress _ _)
  · simp

end Platform

/-! ## What a pass tags -/

namespace Pass

/-- **What an instance's release is transformed to is installed for the instance**, whatever the
cluster holds already. -/
theorem installs_transformed (hm : ∀ r ∈ ctx.manifest, r.Proper) {contributions : Contributions}
    (haside : ∀ f ∈ contributions.transformers, f.Aside) {m : Manifest}
    (h : { start i ctx.manifest with contributions }.transformed = .ok m) :
    ∀ out ∈ m, out.Proper ∧ ∀ c : Cluster, c.Filed → ∀ x,
      (c.applied out).object? out.key = some x → i.Installs ctx out.key x := by
  obtain ⟨p, hp, hrun⟩ := transformed_eq_ok.1 h
  intro out hout
  obtain ⟨r, hr, happly⟩ := Pipeline.exists_of_mem_run hrun out hout
  obtain ⟨hkeeps, hordered⟩ := Pipeline.keeps_apply hp haside happly
  have hproper : out.Proper :=
    ⟨hordered (hm r hr).ordered, hkeeps.valid (Transformer.valid_moveTo (hm r hr).valid)⟩
  refine ⟨hproper, fun c hc x hx => ⟨r, hr, hkeeps.key_eq.symm, fun hown hscoped => ?_⟩⟩
  exact Cluster.isOwnedBy_applied hc hproper
    (Pipeline.isOwnedBy_apply hp haside happly hown hscoped) hx

/-- **A pass tags nothing but what it installs for its instance.** -/
theorem tagsOnly_runAll
    (hplatforms : ∀ p ∈ ctx.platforms, p = Platform.openShift ∨ p = Platform.minikube)
    (hm : ∀ r ∈ ctx.manifest, r.Proper) (hc : w.cluster.Filed) {q : Pass}
    (h : Runs world ((start i ctx.manifest).runAll ctx now) w t (.ok q) w') :
    Cluster.TagsOnly (i.Installs ctx) w.cluster w'.cluster := by
  have hleaves : ∀ p ∈ ctx.platforms, p.LeavesObjects := by
    intro p hp
    obtain rfl | rfl := hplatforms p hp
    · exact Platform.leavesObjects_openShift
    · exact Platform.leavesObjects_minikube
  obtain ⟨contributions, m, w₀, t₁, w₁, v, t₂, v', ⟨-, -, hw₁⟩, hdetect, htransformed, hcases,
    hdeleted, -, hw'⟩ := runs_runAll_parts hleaves h
  have hfound := ((Platform.ensures_detectAll_tagsNothing hplatforms).of_runs hdetect).2 _ rfl
  have haside : ∀ f ∈ contributions.transformers, f.Aside := by
    intro f hf
    obtain ⟨c, hc, hfc⟩ := List.mem_flatMap.1 hf
    exact (hfound c hc).1 f hfc
  have hv : Cluster.TagsOnly (i.Installs ctx) w.cluster v.cluster := by
    obtain ⟨-, hwaited⟩ | ⟨-, subject, t₃, w₃, hbefore, happlied⟩ := hcases
    · rw [hwaited]
      exact .refl _
    · have hhooks := Contributions.ensures_runBefore (i := subject) fun c hc => (hfound c hc).2
      have hfiled : w₃.cluster.Filed := Cluster.filed_runs (by rw [hw₁]; exact hc) hbefore
      rw [happlied, ← hw₁]
      refine (Cluster.tagsOnly_runs hhooks hbefore).trans
        (Cluster.tagsOnly_foldl_applied hfiled fun r hr => ?_)
      exact installs_transformed hm haside htransformed r (Manifest.mem_applyOrder.1 hr)
  rw [hw']
  exact hv.trans (Cluster.tagsOnly_runs
    (Obsolete.ensures_deleteEach (P := Call.TagsNothing) (fun _ => trivial) _) hdeleted)

end Pass

/-- A teardown tags nothing. -/
theorem Teardown.tagsOnly_finalize {x : Except Error Unit}
    (h : Runs world (Teardown.finalize ctx i) w t x w') :
    Cluster.TagsOnly Q w.cluster w'.cluster :=
  Cluster.tagsOnly_runs (Teardown.ensures_finalize (P := Call.TagsNothing) (fun _ => trivial)
    (fun _ => trivial) trivial (fun _ _ _ => trivial) ctx i) h

/-! ## Histories -/

theorem Cluster.Accounted.of_tagsOnly {passed : List Instance} {c c' : Cluster}
    (hc : c.Accounted ctx passed) (h : TagsOnly Q c c')
    (hQ : ∀ key x, Q key x → i.isDeleting = false ∧ i.Installs ctx key x) :
    c'.Accounted ctx (i :: passed) := by
  intro key x hx htag
  obtain hbefore | hnew := h key x hx htag
  · obtain ⟨j, hj, hinstalled⟩ := hc key x hbefore htag
    exact ⟨j, List.mem_cons_of_mem _ hj, hinstalled⟩
  · exact ⟨i, List.mem_cons_self, hQ key x hnew⟩

/-- What was installed for an instance, but would not be where a teardown deletes now, is left. -/
theorem Instance.Installs.left {passed : List Instance} {j : Instance} {key : ResourceKey}
    {x : Resource} (hj : j ∈ passed) (hlive : j.isDeleting = false) (h : j.Installs ctx key x)
    (hkey : key ∉ (Teardown.placed ctx i).map Resource.key) : Left ctx passed i key x := by
  obtain ⟨r, hr, rfl, howned⟩ := h
  have hplaced : ∀ ns, ns = i.targetNamespace → (Transformer.moveTo ns r).key ∈
      (Teardown.placed ctx i).map Resource.key := by
    rintro ns rfl
    exact List.mem_map_of_mem (List.mem_map_of_mem hr)
  refine ⟨j, hj, hlive, ?_⟩
  cases hscoped : r.isClusterScoped with
  | true =>
    -- outside of any namespace it is one object for all instances
    refine absurd (hplaced _ rfl) ?_
    rwa [Transformer.key_moveTo_of_isClusterScoped _ hscoped,
      ← Transformer.key_moveTo_of_isClusterScoped j.targetNamespace hscoped]
  | false =>
    cases hown : j.canOwn with
    | true => exact .inl ⟨rfl, howned hown hscoped⟩
    | false => exact .inr ⟨rfl, fun heq => hkey (hplaced _ heq), r, hr, hscoped, rfl⟩

section
variable (hplatforms : ∀ p ∈ ctx.platforms, p = Platform.openShift ∨ p = Platform.minikube)
  (hm : ∀ r ∈ ctx.manifest, r.Proper)
include hplatforms hm

/-- One pass that succeeds, on an instance that is marked for deletion or not. -/
theorem reconcile_accounted {passed : List Instance} {seen : Generations}
    {x : Except Error Action × Generations} {action : Action} (hc : w.cluster.Filed)
    (haccounted : w.cluster.Accounted ctx passed) (hok : x.1 = .ok action)
    (h : Program.Runs world (reconcile ctx now i seen) w t x w') :
    w'.cluster.Accounted ctx (i :: passed) := by
  obtain ⟨-, y, hfinalize⟩ | ⟨-, -, -, e, hrefused⟩ | ⟨hlive, y, hall, houtcome⟩ := runs_reconcile h
  · exact haccounted.of_tagsOnly (Teardown.tagsOnly_finalize (Q := fun _ _ => False) hfinalize)
      fun _ _ h => h.elim
  · cases hrefused.symm.trans hok
  · cases y with
    | error e => cases houtcome.symm.trans hok
    | ok q =>
      exact haccounted.of_tagsOnly (Pass.tagsOnly_runAll hplatforms hm hc hall)
        fun _ _ h => ⟨hlive, h⟩

/-- **In a history everything tagged was installed for an instance that was reconciled.** -/
theorem History.accounted {passed : List Instance} (hc : w₀.cluster.Filed)
    (huntagged : ∀ key x, w₀.cluster.object? key = some x → x.isTagged = false)
    (h : History ctx w₀ passed w) : w.cluster.Filed ∧ w.cluster.Accounted ctx passed := by
  induction h with
  | start =>
    refine ⟨hc, fun key x hx htag => ?_⟩
    rw [huntagged key x hx] at htag
    cases htag
  | changed _ objects ih =>
    exact ⟨fun key x hx => ih.1 key x (objects key x hx),
      fun key x hx => ih.2 key x (objects key x hx)⟩
  | @reconciled passed w before now i seen action ok ih =>
    have hrun := Program.runs_handler answer (reconcile ctx now i seen) w
    exact ⟨Cluster.filed_runs ih.1 hrun, reconcile_accounted hplatforms hm ih.1 ih.2 ok hrun⟩

/-- **What the last teardown leaves.** Take any history from a cluster without tagged objects, and
an instance that is marked for deletion, when no instance is live any more. If it waits for its
release to be removed then, behind a pass on it that succeeds and in which no deletion claims that
an object is not there which is, every tagged object but the definitions of kinds belongs to an
instance that was reconciled, or was installed into another namespace for one that could not own it.
If it does not wait for that, nothing happens. -/
theorem last_teardown_leaves {passed : List Instance} (hc : w₀.cluster.Filed)
    (huntagged : ∀ key x, w₀.cluster.object? key = some x → x.isTagged = false)
    (h : History ctx w₀ passed w) (hhonest : w.Honest)
    (hlast : ∀ e ∈ w.instances, e.2.isDeleting = true) (hdeleting : i.isDeleting = true)
    (now : Timestamp) (seen : Generations) :
    let ran := Program.run answer (reconcile ctx now i seen) w
    (i.hasFinalizer = true → ∀ action, ran.1.1 = .ok action →
      ∀ key x, ran.2.cluster.object? key = some x → x.isTagged = true →
        key.kind ≠ "CustomResourceDefinition" → Left ctx passed i key x) ∧
    (i.hasFinalizer = false → ran.1.1 = .ok .awaitChange ∧ ran.2 = w) := by
  intro ran
  constructor
  · intro hbound action hok key x hx htag hkind
    obtain ⟨y, hfinalize, hy⟩ := runs_reconcile_deleting hdeleting
      (Program.runs_handler answer (reconcile ctx now i seen) w)
    cases y with
    | error e => cases hy.symm.trans hok
    | ok _ =>
      -- the object was there before, and is not under one of the keys that were cleared
      have halone : ∀ e ∈ w.instances, Teardown.needs i e.2 = false := fun e he => by
        simp [Teardown.needs, hlast e he]
      have hcleared := Teardown.finalize_cleared hhonest hbound halone hfinalize
      obtain hbefore | ⟨⟨⟩⟩ :=
        Teardown.tagsOnly_finalize (Q := fun _ _ => False) hfinalize key x hx htag
      have hkey : key ∉ (Teardown.placed ctx i).map Resource.key := by
        intro hplaced
        have hgone := hcleared key
        rw [if_pos ⟨Teardown.mem_keys_withoutDefinitions.2 ⟨hplaced, hkind⟩,
          Cluster.mark_eq_some_iff.2 ⟨x, hbefore, htag⟩⟩, Cluster.mark, hx] at hgone
        cases hgone
      obtain ⟨j, hj, hlive, hinstalled⟩ :=
        (h.accounted hplatforms hm hc huntagged).2 key x hbefore htag
      exact hinstalled.left hj hlive hkey
  · intro hunbound
    have hran : ran = ((.ok .awaitChange, seen.forget i.key), w) :=
      congrArg (Program.run answer · w) (reconcile_of_not_hasFinalizer hdeleting hunbound)
    rw [hran]
    exact ⟨rfl, rfl⟩

end

/-! ## An instance that was moved -/

namespace Moved

/-- A release of the definition of a kind and a config map, with the platforms that are looked for. -/
def context : Context :=
  { Domain.context with platforms := [Platform.openShift, Platform.minikube] }

/-- An instance in a namespace that asks to be installed into another one. Someone else keeps it
from going away. -/
def serving (ns : String) : Instance where
  metadata := {
    name := some "serving", namespaceName := some ns, uid := some ns
    finalizers := some ["other"] }
  spec := { targetNamespace := some "a" }

/-- An OpenShift cluster with two instances, of which nobody reconciles the first. -/
def before : Rehearsal where
  cluster := Cluster.serve "route.openshift.io/v1" "Route" {}
  instances := [(("m", "serving"), serving "m"), (("n", "serving"), serving "n")]

def stored (ns : String) (w : Rehearsal) : Instance :=
  (w.instances.lookup (ns, "serving")).getD default

def edit (f : Instance → Instance) (ns : String) (w : Rehearsal) : Rehearsal :=
  { w with instances := Table.adjust (ns, "serving") f w.instances }

/-- The stored instance of a namespace asks to be installed elsewhere. -/
def retarget : String → Rehearsal → Rehearsal :=
  edit fun i => { i with spec := { i.spec with targetNamespace := some "b" } }

/-- The stored instance of a namespace is marked for deletion. -/
def mark : String → Rehearsal → Rehearsal :=
  edit fun i => { i with metadata := { i.metadata with deletionTimestamp := some Domain.epoch } }

/-- A pass on the stored instance of a namespace. -/
def pass (ns : String) (w : Rehearsal) : (Except Error Action × Generations) × Rehearsal :=
  Program.run answer (reconcile context Domain.epoch (stored ns w) []) w

/-- The release was installed for the second instance, which then asks for another namespace before
both are marked for deletion. -/
def moved : Rehearsal := mark "m" (mark "n" (retarget "n" (pass "n" before).2))

/-- The release was installed for the second instance, which was released while the first was live;
then that one is marked for deletion. -/
def shared : Rehearsal := mark "m" (pass "n" (mark "n" (pass "n" before).2)).2

/-- The key of the config map where it was installed. -/
def configKey : ResourceKey := { Domain.configKey with namespaceName := some "a" }

/-- Whether no instance is live any more, and a pass succeeds that leaves an object of the operator
that nobody owns. -/
def leaks (ns : String) (w : Rehearsal) : Bool :=
  w.instances.all (·.2.isDeleting) && (pass ns w).1.1 = .ok .awaitChange &&
    (pass ns w).2.cluster.objects.any fun e =>
      e.1.kind ≠ "CustomResourceDefinition" && e.2.isTagged && e.2.owners.isEmpty

section
variable {passed : List Instance} {w : Rehearsal} (ns : String) (h : History context before passed w)
include h

theorem history_retarget : History context before passed (retarget ns w) :=
  h.changed fun _ _ hx => hx

theorem history_mark : History context before passed (mark ns w) := h.changed fun _ _ hx => hx

theorem history_pass (hok : (pass ns w).1.1 = .ok .awaitChange) :
    History context before (stored ns w :: passed) (pass ns w).2 :=
  h.reconciled _ _ _ hok

end

theorem history_installed :
    History context before [stored "n" before] (pass "n" before).2 :=
  history_pass "n" .start (by decide +kernel)

theorem history_moved : History context before [stored "n" before] moved :=
  history_mark "m" (history_mark "n" (history_retarget "n" history_installed))

theorem history_shared : ∃ passed, History context before passed shared := by
  have hreleased : (pass "n" (mark "n" (pass "n" before).2)).1.1 = .ok .awaitChange := by
    decide +kernel
  exact ⟨_, history_mark "m" (history_pass "n" (history_mark "n" history_installed) hreleased)⟩

theorem honest_of_outages {w : Rehearsal} (h : w.outages.isEmpty = true) : w.Honest := fun o ho => by
  rw [List.isEmpty_iff.1 h] at ho
  cases ho

end Moved

open Moved in
/-- The config map that was installed for the instance before it was moved is left; and a pass on
the instance that was never reconciled leaves everything. -/
theorem last_teardown_leaves_moved :
    ((pass "n" moved).1.1 = .ok .awaitChange ∧ ∃ x,
      (pass "n" moved).2.cluster.object? configKey = some x ∧
        Left context [stored "n" before] (stored "n" moved) configKey x) ∧
    (pass "m" shared).1.1 = .ok .awaitChange ∧ (pass "m" shared).2 = shared := by
  have hplatforms : ∀ p ∈ context.platforms, p = Platform.openShift ∨ p = Platform.minikube := by
    simp [context]
  have hproper : ∀ r ∈ context.manifest, r.Proper := fun r hr => (Domain.installable r hr).proper
  have hleaves {w : Rehearsal} {passed : List Instance} (h : History context before passed w)
      (houtages : w.outages.isEmpty = true) (hlast : w.instances.all (·.2.isDeleting) = true)
      (ns : String) (hdeleting : (stored ns w).isDeleting = true) :
      ((stored ns w).hasFinalizer = true → ∀ action, (pass ns w).1.1 = .ok action →
        ∀ key x, (pass ns w).2.cluster.object? key = some x → x.isTagged = true →
          key.kind ≠ "CustomResourceDefinition" → Left context passed (stored ns w) key x) ∧
      ((stored ns w).hasFinalizer = false → (pass ns w).1.1 = .ok .awaitChange ∧
        (pass ns w).2 = w) :=
    last_teardown_leaves hplatforms hproper (by rintro key r ⟨⟩) (by rintro key r ⟨⟩) h
      (honest_of_outages houtages) (List.all_eq_true.1 hlast) hdeleting Domain.epoch []
  constructor
  · obtain ⟨houtages, hlast, hdeleting, hbound⟩ : moved.outages.isEmpty = true ∧
        moved.instances.all (·.2.isDeleting) = true ∧ (stored "n" moved).isDeleting = true ∧
        (stored "n" moved).hasFinalizer = true := by decide +kernel
    obtain ⟨hok, hmark⟩ : (pass "n" moved).1.1 = .ok .awaitChange ∧
        (pass "n" moved).2.cluster.mark configKey = some true := by decide +kernel
    obtain ⟨x, hx, htag⟩ := Cluster.mark_eq_some_iff.1 hmark
    exact ⟨hok, x, hx, (hleaves history_moved houtages hlast "n" hdeleting).1 hbound _ hok
      configKey x hx htag (by decide)⟩
  · obtain ⟨passed, hshared⟩ := history_shared
    obtain ⟨houtages, hlast, hdeleting, hunbound⟩ : shared.outages.isEmpty = true ∧
        shared.instances.all (·.2.isDeleting) = true ∧ (stored "m" shared).isDeleting = true ∧
        (stored "m" shared).hasFinalizer = false := by decide +kernel
    exact (hleaves hshared houtages hlast "m" hdeleting).2 hunbound

open Moved in
/-- **Not everything that was installed is taken away.** An instance that was moved leaves what was
installed before it was moved; and an instance that was never reconciled takes nothing away, though
it is the last. -/
theorem last_teardown_leaks :
    before.cluster.objects = [] ∧
      History context before [stored "n" before] moved ∧
      (stored "n" moved).hasFinalizer = true ∧ leaks "n" moved = true ∧
      (∃ passed, History context before passed shared) ∧
      (stored "m" shared).hasFinalizer = false ∧ leaks "m" shared = true :=
  ⟨rfl, history_moved, by decide +kernel, by decide +kernel, history_shared, by decide +kernel,
    by decide +kernel⟩

end ReleaseKeeper
