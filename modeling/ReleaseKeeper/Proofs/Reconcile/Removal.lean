import ReleaseKeeper.Proofs.Cluster.Tags
import ReleaseKeeper.Proofs.Instance.Store
import ReleaseKeeper.Proofs.Reconcile.Addresses
import ReleaseKeeper.Proofs.Reconcile.Cleared
import ReleaseKeeper.Proofs.Reconcile.Convergence
import ReleaseKeeper.Proofs.Reconcile.Written

/-!
# A teardown undoes an install

An install tags exactly what was absent (`Pass.mark_installed`), and a teardown clears those keys of
the release that are tagged, definitions of kinds aside. So of an install that is followed by a
teardown only the definitions of kinds are left, and what was there before is still there
(`teardown_undoes_install`).
-/
namespace ReleaseKeeper

open Operation Rehearsal

/-- The store has a single instance, which is the given one but for its finalizers and status. -/
structure Rehearsal.Sole (i j : Instance) (w : Rehearsal) : Prop where
  instances : w.instances = [(i.identity, j)]
  spec : j.spec = i.spec
  metadata : j.metadata = { i.metadata with finalizers := j.metadata.finalizers }

/-- An install was undone: what was there before is there untagged, unless it is obsolete, all else
that was installed is gone, and the definitions of kinds are left. -/
structure Cluster.Undone (ctx : Context) (i : Instance) (c c' : Cluster) : Prop where
  stored (key : ResourceKey) : (c'.object? key).isSome = true ↔
    (c.object? key).isSome = true ∧ key ∉ Obsolete.keys i.targetNamespace ∨
    ∃ r ∈ ctx.manifest, r.isDefinition = true ∧
      (Transformer.moveTo i.targetNamespace r).key = key
  kept (key : ResourceKey) (r : Resource) : c.object? key = some r →
    key ∉ Obsolete.keys i.targetNamespace → ∃ r', c'.object? key = some r' ∧ r'.isTagged = false
  removed (r : Resource) : r ∈ ctx.manifest → r.isDefinition = false →
    c.object? (Transformer.moveTo i.targetNamespace r).key = none →
    c'.object? (Transformer.moveTo i.targetNamespace r).key = none

variable {w w' : Rehearsal} {t : Program.Trace Call Call.Answer} {ctx : Context} {now : Timestamp}
  {i j : Instance}

/-! ## The store of a single instance -/

theorem Rehearsal.Sole.refl (h : w.instances = [(i.identity, i)]) : w.Sole i i := ⟨h, rfl, rfl⟩

theorem Rehearsal.Sole.congr (h : w.Sole i j) (hw : w'.instances = w.instances) : w'.Sole i j :=
  ⟨hw.trans h.instances, h.spec, h.metadata⟩

/-- A change of the single instance's finalizers or status. -/
theorem Rehearsal.Sole.put {f : Instance → Instance} (h : w.Sole i j) (hspec : (f j).spec = j.spec)
    (hmeta : (f j).metadata = { j.metadata with finalizers := (f j).metadata.finalizers })
    (hput : ∃ k, w.instances.lookup i.identity = some k ∧
      w'.instances = Table.put i.identity (f k) w.instances) : w'.Sole i (f j) := by
  obtain ⟨k, hk, hw'⟩ := hput
  rw [h.instances] at hk hw'
  obtain rfl : j = k := by simpa using hk
  refine ⟨?_, hspec.trans h.spec, ?_⟩
  · simpa [Table.put] using hw'
  · rw [hmeta, h.metadata]

/-- The single instance has the finalizer once it was added. -/
theorem Rehearsal.sole_addFinalizer {a : Except Error Unit} (hw : w.Sole i j)
    (h : world w (.addFinalizer i.namespaceName i.name Instance.finalizer) a w') :
    ∃ j', w'.Sole i j' ∧ (j.hasFinalizer = true ∨ a = .ok () → j'.hasFinalizer = true) := by
  obtain ⟨e, rfl, hkept⟩ | ⟨-, hput⟩ := world_addFinalizer h
  · exact ⟨j, hw.congr hkept, by simp⟩
  · obtain ⟨finalizers, hbound⟩ := j.bound_eq Instance.finalizer
    refine ⟨_, hw.put (f := (·.bound Instance.finalizer)) ?_ ?_ hput,
      fun _ => j.hasFinalizer_bound⟩
    · rw [hbound]
      rfl
    · rw [hbound]
      rfl

/-- A call of a pass leaves the single instance in the store, with the finalizers that it had. -/
theorem Rehearsal.sole_world {P : InstanceStatus → Prop} {c : Call} {a : c.Answer}
    (hw : w.Sole i j) (hc : c.OfPass i P) (h : world w c a w') :
    ∃ j', w'.Sole i j' ∧ (j.hasFinalizer = true → j'.hasFinalizer = true) := by
  obtain honcluster | ⟨status, rfl, -⟩ | rfl := Call.ofPass_cases hc
  · exact ⟨j, hw.congr (world_onCluster honcluster h), id⟩
  · obtain ⟨-, -, hkept⟩ | ⟨-, hput⟩ := world_patchStatus h
    · exact ⟨j, hw.congr hkept, id⟩
    · exact ⟨_, hw.put (f := fun k => { k with status := some status }) rfl rfl hput, id⟩
  · obtain ⟨j', hj', hfinalizer⟩ := sole_addFinalizer hw h
    exact ⟨j', hj', fun hj => hfinalizer (.inl hj)⟩

theorem Rehearsal.sole_runs {α : Type} {P : InstanceStatus → Prop} {Q : α → Prop}
    {p : Operation.Steps α} {x : α} (h : p.Ensures (Call.OfPass i P) Q)
    (hrun : Program.Runs world p w t x w') : ∀ {j}, w.Sole i j →
    ∃ j', w'.Sole i j' ∧ (j.hasFinalizer = true → j'.hasFinalizer = true) := by
  induction hrun with
  | done x s => exact fun hw => ⟨_, hw, id⟩
  | call answered _ ih =>
    intro j hw
    obtain ⟨j₁, hj₁, hfinalizer₁⟩ := sole_world hw h.1 answered
    obtain ⟨j₂, hj₂, hfinalizer₂⟩ := ih (h.2 _) hj₁
    exact ⟨j₂, hj₂, hfinalizer₂ ∘ hfinalizer₁⟩

/-- Behind the first stage the single instance has its finalizer. -/
theorem Pass.runs_ensureFinalizer_sole {m : Manifest} {q : Pass} (hw : w.Sole i i)
    (h : Runs world (start i m).ensureFinalizer w t (.ok q) w') :
    ∃ j, w'.Sole i j ∧ j.hasFinalizer = true := by
  rw [ensureFinalizer] at h
  split at h
  · next hbound =>
    obtain ⟨-, -, rfl⟩ := runs_pure.1 h
    exact ⟨i, hw, hbound⟩
  · obtain ⟨e | _, -, answered, hq⟩ := runs_ask_map.1 h
    · cases hq
    obtain ⟨j, hj, hfinalizer⟩ := sole_addFinalizer hw answered
    exact ⟨j, hj, hfinalizer (.inr rfl)⟩

/-- A pass that comes to its end leaves its instance waiting for its release to be removed. -/
theorem Pass.runs_runAll_sole (hctx : ∀ f ∈ ctx.platforms, f.Confined) {q : Pass}
    (hw : w.Sole i i)
    (h : Runs world ((Pass.start i ctx.manifest).runAll ctx now) w t (.ok q) w') :
    ∃ j, w'.Sole i j ∧ j.hasFinalizer = true := by
  have hkept : InstanceStatus.Kept now i.metadata.generation fun _ => True := InstanceStatus.kept_true
  have hstart := on_start (P := fun _ => True) (i := i) ctx.manifest trivial
  obtain ⟨_, ⟨⟩, -⟩ | ⟨p₆, t', w₆, t₇, rfl, hall, hend⟩ := runs_bind.1 h
  obtain ⟨p₁, t₁, w₁, t₂, hfirst, hrest⟩ := runs_runEach_cons_ok hall
  have hon₁ := ((ensures_ensureFinalizer hstart).of_runs hfirst).2 p₁ rfl
  have hrestEnsures : (runEach ctx now
      [.initStatus, .transform, .install, .checkDeployments, .deleteObsolete] p₁).Ensures
      (Call.OfPass i fun _ => True) (Pass.On i fun _ => True) :=
    ensures_runEach hkept hctx hon₁
  have hon₆ := (hrestEnsures.of_runs hrest).2 p₆ rfl
  have hendEnsures : Operation.Ensures (Call.OfPass i fun _ => True) (Pass.On i fun _ => True)
      (if p₆.isUnwritten then p₆.writeStatus else return p₆) := by
    split
    · exact ensures_writeStatus hkept hon₆
    · exact ensures_pure hon₆
  -- it is given its finalizer first, and nothing takes it away
  obtain ⟨j₁, hj₁, hfinalizer₁⟩ := runs_ensureFinalizer_sole hw hfirst
  obtain ⟨j₆, hj₆, hfinalizer₆⟩ := sole_runs hrestEnsures hrest hj₁
  obtain ⟨j₇, hj₇, hfinalizer₇⟩ := sole_runs hendEnsures hend hj₆
  exact ⟨j₇, hj₇, hfinalizer₇ (hfinalizer₆ hfinalizer₁)⟩

/-! ## The two passes -/

/-- The keys of the definitions of kinds. -/
theorem Teardown.mem_keys_definitions {key : ResourceKey} :
    (∃ r ∈ ctx.manifest, r.isDefinition = true ∧
      (Transformer.moveTo i.targetNamespace r).key = key) ↔
      key ∈ (placed ctx i).map Resource.key ∧ key.kind = "CustomResourceDefinition" := by
  have hkind : ∀ r, (Transformer.moveTo i.targetNamespace r).key.kind = r.kind :=
    Transformer.kind_moveTo
  simp only [placed, List.map_map, List.mem_map, Function.comp_apply, Resource.isDefinition,
    decide_eq_true_eq]
  constructor
  · rintro ⟨r, hr, hdefinition, rfl⟩
    exact ⟨⟨r, hr, rfl⟩, (hkind r).trans hdefinition⟩
  · rintro ⟨⟨r, hr, rfl⟩, hdefinition⟩
    exact ⟨r, hr, (hkind r).symm.trans hdefinition, rfl⟩

/-- No definition of a kind is obsolete. -/
theorem Obsolete.kind_ne {ns : String} {key : ResourceKey} (h : key ∈ Obsolete.keys ns) :
    key.kind ≠ "CustomResourceDefinition" := by
  simp only [keys, List.mem_cons, List.not_mem_nil, or_false] at h
  rcases h with rfl | rfl | rfl | rfl <;> simp

/-- What a release is transformed to can be installed, under the keys that moving it gives. -/
theorem Pass.transformed_installable (hm : ∀ r ∈ ctx.manifest, r.Installable) {m : Manifest}
    (h : (Pass.start i ctx.manifest).transformed = .ok m) :
    (∀ r ∈ m, r.Installable) ∧
      m.map Resource.key = (Teardown.placed ctx i).map Resource.key := by
  obtain ⟨p, hp, hrun⟩ := Pass.transformed_eq_ok.1 h
  have hextra : ∀ f ∈ (Pass.start i ctx.manifest).contributions.transformers, f.Aside := by
    rintro f ⟨⟩
  refine ⟨fun out hout => ?_, (sameIdentities_run hp hextra hrun).keys⟩
  obtain ⟨r, hr, happly⟩ := Pipeline.exists_of_mem_run hrun out hout
  obtain ⟨hkeeps, hordered⟩ := Pipeline.keeps_apply hp hextra happly
  have hbase := hm r hr
  have hannotations : ∀ r : Resource, r.valueAt? ["metadata", "annotations"] =
      r.metadata.lookup "annotations" := fun r => by
    simp [Resource.valueAt?, Resource.metadata, Json.lookup_objectAt, Json.get?, Json.asObj?]
  refine ⟨hordered hbase.ordered, hkeeps.valid (Transformer.valid_moveTo hbase.valid), ?_⟩
  intro x hx
  rw [hannotations, hkeeps.metadata _ (by decide),
    Transformer.lookup_metadata_moveTo (by decide), ← hannotations] at hx
  exact hbase.untagged x hx

/-- **What a pass that installs makes of the marks.** Every resource of the release that was absent
is tagged now, the other marks are as they were, and then all that is obsolete is gone. -/
theorem Pass.mark_installed (hctx : ctx.platforms = []) (hm : ∀ r ∈ ctx.manifest, r.Installable)
    (hfresh : i.status.any InstanceStatus.isInstalled = false) (hw : w.Calm) (hc : w.cluster.Filed)
    {q : Pass} (h : Runs world ((Pass.start i ctx.manifest).runAll ctx now) w t (.ok q) w')
    (key : ResourceKey) :
    w'.cluster.mark key = if key ∈ Obsolete.keys i.targetNamespace then none
      else if key ∈ (Teardown.placed ctx i).map Resource.key then
        some ((w.cluster.mark key).getD true)
      else w.cluster.mark key := by
  have hleaves : ∀ f ∈ ctx.platforms, f.LeavesObjects := by simp [hctx]
  obtain ⟨contributions, m, w₀, t₁, w₁, v, t₂, v', ⟨-, -, hw₁⟩, hdetect, htransformed, hcases,
    hdeleted, hcalm, hw'⟩ := runs_runAll_parts hleaves h
  obtain rfl : contributions = [] := by
    rw [hctx] at hdetect
    exact Except.ok.inj (runs_pure.1 hdetect).2.1
  obtain ⟨hinstallable, hkeys⟩ := transformed_installable (i := i) hm htransformed
  have hv : v.cluster = m.applyOrder.foldl Cluster.applied w.cluster := by
    obtain ⟨hwaiting, -⟩ | ⟨-, subject, t₃, w₃, hbefore, happlied⟩ := hcases
    · -- what is not installed is not waited for
      have hnot : (start i ctx.manifest).isDeploying = false := by
        change i.status.any InstanceStatus.isDeploying = false
        cases hs : i.status with
        | none => rfl
        | some s =>
          rw [hs] at hfresh
          replace hfresh : s.isInstalled = false := hfresh
          simp [InstanceStatus.isDeploying, hfresh]
      rw [hnot] at hwaiting
      cases hwaiting
    · obtain ⟨-, -, rfl⟩ := runs_pure.1 hbefore
      rw [happlied, hw₁]
  have hinstalled : v.cluster.mark key =
      if key ∈ (Teardown.placed ctx i).map Resource.key then some ((w.cluster.mark key).getD true)
      else w.cluster.mark key := by
    rw [hv, Cluster.mark_foldl_applied hc fun r hr =>
      hinstallable r (Manifest.mem_applyOrder.1 hr)]
    have hmem : key ∈ m.applyOrder.map Resource.key ↔
        key ∈ (Teardown.placed ctx i).map Resource.key := by
      rw [← hkeys]
      exact ((Manifest.applyOrder_perm m).map _).mem_iff
    simp only [hmem]
  rw [hw', Cluster.mark, Obsolete.deleteEach_calm (hcalm hw) hdeleted key, ← hinstalled,
    Cluster.mark]
  exact apply_ite (Option.map Resource.isTagged) _ _ _

/-- Of an object that was not tagged before an install, what is left behind the teardown. -/
theorem mark_torn {c c₁ c₂ : Cluster} {key : ResourceKey} (hnone : c.mark key ≠ some true)
    (hinstalled : c₁.mark key = if key ∈ Obsolete.keys i.targetNamespace then none
      else if key ∈ (Teardown.placed ctx i).map Resource.key then some ((c.mark key).getD true)
      else c.mark key)
    (hcleared : c₂.mark key =
      if key ∈ (Teardown.placed ctx i).withoutDefinitions.map Resource.key ∧
        c₁.mark key = some true then none else c₁.mark key) :
    c₂.mark key = if key ∈ Obsolete.keys i.targetNamespace then none
      else if key ∈ (Teardown.placed ctx i).map Resource.key ∧
        key.kind = "CustomResourceDefinition" then some ((c.mark key).getD true)
      else c.mark key := by
  simp only [Teardown.mem_keys_withoutDefinitions] at hcleared
  rw [hcleared, hinstalled]
  by_cases hobsolete : key ∈ Obsolete.keys i.targetNamespace
  · simp [hobsolete]
  · by_cases hkey : key ∈ (Teardown.placed ctx i).map Resource.key
    · by_cases hkind : key.kind = "CustomResourceDefinition"
      · simp [hobsolete, hkey, hkind]
      · -- what was absent is tagged by the install, and cleared for it
        cases hmark : c.mark key with
        | none => simp [hobsolete, hkey, hkind]
        | some b =>
          cases b with
          | true => exact absurd hmark hnone
          | false => simp [hobsolete, hkey, hkind]
    · simp [hobsolete, hkey]

/-- What the marks say about the objects. -/
theorem Cluster.undone_of_mark {c c' : Cluster} (hnone : ∀ key, c.mark key ≠ some true)
    (hmark : ∀ key, c'.mark key = if key ∈ Obsolete.keys i.targetNamespace then none
      else if key ∈ (Teardown.placed ctx i).map Resource.key ∧
        key.kind = "CustomResourceDefinition" then some ((c.mark key).getD true)
      else c.mark key) : Undone ctx i c c' where
  stored key := by
    rw [← isSome_mark, ← isSome_mark, hmark, Teardown.mem_keys_definitions]
    by_cases hkey : key ∈ Obsolete.keys i.targetNamespace
    · simp [hkey, Obsolete.kind_ne hkey]
    · rw [if_neg hkey]
      split
      · next hdefinition => simp [hdefinition]
      · next hdefinition => simp only [hkey, hdefinition, not_false_eq_true, and_true, or_false]
  kept key r hr hkey := by
    have hfalse : c.mark key = some false := by
      cases htag : r.isTagged with
      | true => exact absurd (mark_eq_some_iff.2 ⟨r, hr, htag⟩) (hnone key)
      | false => exact mark_eq_some_iff.2 ⟨r, hr, htag⟩
    refine mark_eq_some_iff.1 ?_
    rw [hmark, if_neg hkey, hfalse]
    split <;> rfl
  removed r _ hlasting habsent := by
    have hkind : (Transformer.moveTo i.targetNamespace r).key.kind ≠ "CustomResourceDefinition" := by
      rw [show (Transformer.moveTo i.targetNamespace r).key.kind = r.kind from
        Transformer.kind_moveTo r]
      simpa [Resource.isDefinition] using hlasting
    have habsent' : c.mark (Transformer.moveTo i.targetNamespace r).key = none := by
      rw [mark, habsent]
      rfl
    have hgone : c'.mark (Transformer.moveTo i.targetNamespace r).key = none := by
      rw [hmark, habsent', if_neg (c := _ ∧ _) fun h => hkind h.2, ite_self]
    simpa [mark] using hgone

/-- A pass that succeeds on a single instance that is not yet installed. -/
theorem reconcile_installs (hctx : ctx.platforms = []) (hm : ∀ r ∈ ctx.manifest, r.Installable)
    (hlive : i.isDeleting = false) (hfresh : i.status.any InstanceStatus.isInstalled = false)
    (hw : w.Calm) (hc : w.cluster.Filed) (hsole : w.instances = [(i.identity, i)])
    {seen : Generations} {x : Except Error Action × Generations} {action : Action}
    (hok : x.1 = .ok action) (h : Program.Runs world (reconcile ctx now i seen) w t x w') :
    (∃ j, w'.Sole i j ∧ j.hasFinalizer = true) ∧
      ∀ key, w'.cluster.mark key = if key ∈ Obsolete.keys i.targetNamespace then none
        else if key ∈ (Teardown.placed ctx i).map Resource.key then
          some ((w.cluster.mark key).getD true)
        else w.cluster.mark key := by
  obtain ⟨hdeleting, -⟩ | ⟨-, -, -, e, hrefused⟩ | ⟨-, y, hall, houtcome⟩ := runs_reconcile h
  · rw [hlive] at hdeleting
    cases hdeleting
  · cases hrefused.symm.trans hok
  · cases y with
    | error e => cases houtcome.symm.trans hok
    | ok q =>
      exact ⟨Pass.runs_runAll_sole (by simp [hctx]) (Sole.refl hsole) hall,
        Pass.mark_installed hctx hm hfresh hw hc hall⟩

/-- **A teardown undoes an install.** Take a cluster without tagged objects where nothing is planned
to fail, a single instance that is not yet installed, and a release that desires no tags. Once a pass
on the instance succeeded, the instance is stored as it was but for finalizers and status. When it is
marked for deletion then, a pass on it succeeds and leaves the objects that were there before without
what is obsolete, and the definitions of kinds of the release. -/
theorem teardown_undoes_install (hctx : ctx.platforms = [])
    (hm : ∀ r ∈ ctx.manifest, r.Installable) (hlive : i.isDeleting = false)
    (hfresh : i.status.any InstanceStatus.isInstalled = false) (hw : w.Calm) (hc : w.cluster.Filed)
    (huntagged : ∀ key r, w.cluster.object? key = some r → r.isTagged = false)
    (hsole : w.instances = [(i.identity, i)]) (now : Timestamp) (seen : Generations)
    {action : Action} (hok : (Program.run answer (reconcile ctx now i seen) w).1.1 = .ok action) :
    let installed := (Program.run answer (reconcile ctx now i seen) w).2
    ∃ j, installed.instances = [(i.identity, j)] ∧ j.spec = i.spec ∧
      j.metadata = { i.metadata with finalizers := j.metadata.finalizers } ∧
      ∀ (time now' : Timestamp) (seen' : Generations),
        let marked : Instance :=
          { j with metadata := { j.metadata with deletionTimestamp := some time } }
        let torn := Program.run answer (reconcile ctx now' marked seen')
          { installed with instances := [(i.identity, marked)] }
        torn.1.1 = .ok .awaitChange ∧ Cluster.Undone ctx i w.cluster torn.2.cluster := by
  have h := Program.runs_handler answer (reconcile ctx now i seen) w
  generalize Program.run answer (reconcile ctx now i seen) w = ran at h hok
  intro installed
  obtain ⟨⟨j, hj, hbound⟩, hinstalled⟩ :=
    reconcile_installs hctx hm hlive hfresh hw hc hsole hok h
  have hcalm : installed.Calm := runs_calm hw h
  refine ⟨j, hj.instances, hj.spec, hj.metadata, fun time now' seen' => ?_⟩
  intro marked torn
  have htarget : marked.targetNamespace = i.targetNamespace := by
    have hns : marked.metadata.namespaceName = i.metadata.namespaceName := by
      change j.metadata.namespaceName = _
      rw [hj.metadata]
    have hspec : marked.spec = i.spec := hj.spec
    rw [Instance.targetNamespace, hspec, hns, Instance.targetNamespace]
  let w₁ : Rehearsal := { installed with instances := [(i.identity, marked)] }
  have hw₁ : w₁.Calm := ⟨hcalm.outages, hcalm.failures⟩
  have hbound' : marked.hasFinalizer = true := hbound
  obtain ⟨y, hfinalize, hy⟩ := runs_reconcile_deleting rfl
    (Program.runs_handler answer (reconcile ctx now' marked seen') w₁)
  obtain rfl := Teardown.finalize_succeeds hw₁ hfinalize
  have halone : ∀ e ∈ w₁.instances, Teardown.needs marked e.2 = false := by
    intro e he
    obtain rfl := List.mem_singleton.1 he
    simp [Teardown.needs]
  have hcleared := Teardown.finalize_cleared hw₁.honest hbound' halone hfinalize
  rw [Teardown.placed, htarget, ← Teardown.placed] at hcleared
  have hnone : ∀ key, w.cluster.mark key ≠ some true := fun key htag => by
    obtain ⟨r, hr, hr'⟩ := Cluster.mark_eq_some_iff.1 htag
    rw [huntagged key r hr] at hr'
    cases hr'
  exact ⟨hy, Cluster.undone_of_mark hnone fun key =>
    mark_torn (hnone key) (hinstalled key) (hcleared key)⟩

/-! ## A cluster with a leftover -/

namespace Domain

/-- A config map with a name, in the namespace that is installed into. -/
def configNamed (name : String) : Resource := ⟨[("apiVersion", .str "v1"),
  ("kind", .str "ConfigMap"), ("metadata", .obj [("name", .str name), ("namespace", .str "n")])]⟩

/-- A cluster with an obsolete config map and one of someone else. -/
def before : Rehearsal where
  cluster := Cluster.insert (configNamed "config-controller") (Cluster.insert (configNamed "mine") {})
  instances := [(serving.identity, serving)]

def epoch : Timestamp := ⟨1970, 1, 1, 0, 0, 0, 0⟩

theorem installable : ∀ r ∈ context.manifest, r.Installable := by
  have hplain : ∀ r ∈ context.manifest, r.valueAt? ["metadata", "annotations"] = none := by
    simp only [context, List.forall_mem_cons, List.not_mem_nil, false_imp_iff, implies_true, and_true]
    exact ⟨rfl, rfl⟩
  have hvalid : ∀ r ∈ context.manifest, Resource.ofJson r.toJson = .ok r := by
    simp only [context, List.forall_mem_cons, List.not_mem_nil, false_imp_iff, implies_true, and_true]
    exact ⟨rfl, rfl⟩
  have hordered : ∀ r ∈ context.manifest, r.Ordered := by
    simp only [context, List.forall_mem_cons, List.not_mem_nil, false_imp_iff, implies_true, and_true]
    constructor <;> constructor <;>
      simp only [definition, config, Resource.metadata, Table.Sorted] <;> decide
  intro r hr
  refine ⟨hordered r hr, hvalid r hr, fun x hx => ?_⟩
  rw [hplain r hr] at hx
  cases hx

end Domain

/-- The definition of a kind is left, and the config map of someone else; the obsolete one is gone. -/
theorem teardown_undoes_install_domain :
    Domain.before.Calm ∧
      (Program.run answer (reconcile Domain.context Domain.epoch Domain.serving [])
        Domain.before).1.1 = .ok .awaitChange ∧
      ∃ torn : Cluster, Cluster.Undone Domain.context Domain.serving Domain.before.cluster torn ∧
        (torn.object? Domain.definition.key).isSome = true ∧
        (torn.object? (Domain.configNamed "mine").key).isSome = true ∧
        (torn.object? (Domain.configNamed "config-controller").key).isSome = false ∧
        (torn.object? Domain.configKey).isSome = false := by
  have hcalm : Domain.before.Calm := ⟨rfl, rfl⟩
  have hok : (Program.run answer (reconcile Domain.context Domain.epoch Domain.serving [])
      Domain.before).1.1 = .ok .awaitChange := by decide +kernel
  have hfiled : Domain.before.cluster.Filed := Cluster.filed_of_forall (by decide)
  have hstored : ∀ e ∈ Domain.before.cluster.objects, e.2.isTagged = false := by decide
  have huntagged : ∀ key r, Domain.before.cluster.object? key = some r → r.isTagged = false :=
    fun key r hr => hstored _ (Cluster.mem_objects hr)
  obtain ⟨j, -, -, -, htorn⟩ := teardown_undoes_install rfl Domain.installable rfl
    (i := Domain.serving) rfl hcalm hfiled huntagged rfl Domain.epoch [] hok
  obtain ⟨torn, hundone⟩ :
      ∃ torn, Cluster.Undone Domain.context Domain.serving Domain.before.cluster torn :=
    ⟨_, (htorn Domain.epoch Domain.epoch []).2⟩
  refine ⟨hcalm, hok, torn, hundone, ?_, ?_, ?_, ?_⟩
  · exact (hundone.stored _).2 (.inr (by decide))
  · exact (hundone.stored _).2 (.inl (by decide))
  · exact Bool.eq_false_iff.2 fun h => absurd ((hundone.stored _).1 h) (by decide)
  · exact Bool.eq_false_iff.2 fun h => absurd ((hundone.stored _).1 h) (by decide)

end ReleaseKeeper