import ReleaseKeeper.Cluster.Rehearsal
import ReleaseKeeper.Proofs.Manifest.Delete
import ReleaseKeeper.Proofs.Transform.Identity
import ReleaseKeeper.Reconcile.Teardown

/-!
# Teardown, whatever the calls are answered

`Finalized` lists the ways a finalization can go, with all of its calls: it does nothing, it fails
to list the instances, it only releases the instance, it gets stuck with an obstacle, or it deletes
all phases and releases the instance. Every run is one of these (`runs_finalize`); what a run may do,
and when the instance is released, is read off them (`finalize_calls`).
-/
namespace ReleaseKeeper.Teardown

open Operation Manifest

/-- The release in the namespace of an instance. -/
def placed (ctx : Context) (i : Instance) : Manifest :=
  ctx.manifest.map (Transformer.moveTo i.targetNamespace)

def deployments (m : Manifest) : Manifest := m.applyOrder.reverse.filter (·.hasKind "Deployment")

/-- What goes next: neither permissions nor definitions of kinds. -/
def ordinary (m : Manifest) : Manifest :=
  m.applyOrder.reverse.filter fun r =>
    !(r.hasKind "Deployment" || r.isAccessControl || r.isDefinition)

def permissions (m : Manifest) : Manifest := m.applyOrder.reverse.filter Resource.isAccessControl

/-- All that is deleted of a release. -/
def phases (m : Manifest) : List (List Resource) := [deployments m, ordinary m, permissions m]

/-- The ways a finalization can go, with its calls and what it comes to. -/
inductive Finalized (ctx : Context) (i : Instance) :
    Program.Trace Call Call.Answer → Except Error Unit → Prop
  | idle (unbound : i.hasFinalizer = false) : Finalized ctx i [] (.ok ())
  | blind (bound : i.hasFinalizer = true) (e : Error) :
    Finalized ctx i [⟨.listInstances, .error e⟩] (.error e)
  | shared {others : List Instance} (bound : i.hasFinalizer = true)
    (needed : ∃ other ∈ others, other.isDeleting = false ∧ other.key ≠ i.key)
    (a : Except Error Unit) :
    Finalized ctx i [⟨.listInstances, .ok others⟩,
      ⟨.removeFinalizer i.namespaceName i.name Instance.finalizer, a⟩] a
  | stuck {others : List Instance} {t : Program.Trace Call Call.Answer} {e : Error}
    (bound : i.hasFinalizer = true)
    (alone : ∀ other ∈ others, other.isDeleting = true ∨ other.key = i.key)
    (deletions : Phased (phases (placed ctx i)) t (some e)) :
    Finalized ctx i (⟨.listInstances, .ok others⟩ :: t) (.error e)
  | released {others : List Instance} {t : Program.Trace Call Call.Answer}
    (bound : i.hasFinalizer = true)
    (alone : ∀ other ∈ others, other.isDeleting = true ∨ other.key = i.key)
    (deletions : Phased (phases (placed ctx i)) t none) (a : Except Error Unit) :
    Finalized ctx i (⟨.listInstances, .ok others⟩ ::
      (t ++ [⟨.removeFinalizer i.namespaceName i.name Instance.finalizer, a⟩])) a

/-- The calls that a finalization may make. Nothing is created or replaced, and an object is deleted
only directly after it was found tagged, and never one that defines a kind. -/
inductive Allowed (i : Instance) (t : Program.Trace Call Call.Answer) :
    (c : Call) × c.Answer → Prop
  | list (a : Except Error (List Instance)) : Allowed i t ⟨.listInstances, a⟩
  | look (key : ResourceKey) (a : Except Error (Option Resource)) : Allowed i t ⟨.get key, a⟩
  | delete {key : ResourceKey} {live : Resource} {a : Except Error Unit}
    (lasting : key.kind ≠ "CustomResourceDefinition") (tagged : live.isTagged = true)
    (found : [⟨.get key, .ok (some live)⟩, ⟨.delete key, a⟩] <:+: t) :
    Allowed i t ⟨.delete key, a⟩
  | release (a : Except Error Unit) :
    Allowed i t ⟨.removeFinalizer i.namespaceName i.name Instance.finalizer, a⟩

/-- That the instance was asked to be released. -/
def Released (i : Instance) (t : Program.Trace Call Call.Answer) : Prop :=
  ∃ a, ⟨.removeFinalizer i.namespaceName i.name Instance.finalizer, a⟩ ∈ t

/-! ## The phases -/

section
variable {r : Resource} {m : Manifest}

theorem not_isAccessControl_of_hasKind (h : r.hasKind "Deployment" = true) :
    r.isAccessControl = false := by
  have hkind : r.kind = "Deployment" := by simpa [Resource.hasKind] using h
  simp [Resource.isAccessControl, Resource.isRole, Resource.isRoleBinding, hkind]

theorem not_isDefinition_of_hasKind (h : r.hasKind "Deployment" = true) :
    r.isDefinition = false := by
  have hkind : r.kind = "Deployment" := by simpa [Resource.hasKind] using h
  simp [Resource.isDefinition, hkind]

theorem not_isDefinition_of_isAccessControl (h : r.isAccessControl = true) :
    r.isDefinition = false := by
  by_contra hdef
  have hkind : r.kind = "CustomResourceDefinition" := by simpa [Resource.isDefinition] using hdef
  simp [Resource.isAccessControl, Resource.isRole, Resource.isRoleBinding, hkind] at h

theorem withoutDefinitions_hasKind (m : Manifest) :
    m.withoutDefinitions.filter (·.hasKind "Deployment") = m.filter (·.hasKind "Deployment") := by
  rw [withoutDefinitions, List.filter_filter]
  refine List.filter_congr fun r _ => ?_
  cases hkind : r.hasKind "Deployment" with
  | false => rfl
  | true => simp [not_isDefinition_of_hasKind hkind]

theorem withoutDefinitions_isAccessControl (m : Manifest) :
    m.withoutDefinitions.filter Resource.isAccessControl = m.filter Resource.isAccessControl := by
  rw [withoutDefinitions, List.filter_filter]
  refine List.filter_congr fun r _ => ?_
  cases haccess : r.isAccessControl with
  | false => rfl
  | true => simp [not_isDefinition_of_isAccessControl haccess]

theorem withoutDefinitions_ordinary (m : Manifest) :
    (m.withoutDefinitions.filter fun r => !(r.hasKind "Deployment" || r.isAccessControl)) =
      m.filter fun r => !(r.hasKind "Deployment" || r.isAccessControl || r.isDefinition) := by
  rw [withoutDefinitions, List.filter_filter]
  exact List.filter_congr fun r _ => (Bool.not_or _ _).symm

/-- A part of a release is deleted in reverse order of application. -/
theorem reverse_applyOrder_filter (p : Resource → Bool) (m : Manifest) :
    (applyOrder (m.filter p)).reverse = m.applyOrder.reverse.filter p := by
  rw [applyOrder_filter, List.filter_reverse]

theorem deployments_eq (m : Manifest) :
    (applyOrder (m.withoutDefinitions.filter (·.hasKind "Deployment"))).reverse = deployments m := by
  rw [withoutDefinitions_hasKind, reverse_applyOrder_filter, deployments]

theorem ordinary_eq (m : Manifest) :
    (applyOrder (m.withoutDefinitions.filter fun r =>
      !(r.hasKind "Deployment" || r.isAccessControl))).reverse = ordinary m := by
  rw [withoutDefinitions_ordinary, reverse_applyOrder_filter, ordinary]

theorem permissions_eq (m : Manifest) :
    (applyOrder (m.withoutDefinitions.filter Resource.isAccessControl)).reverse =
      permissions m := by
  rw [withoutDefinitions_isAccessControl, reverse_applyOrder_filter, permissions]

/-- All phases together are the release without definitions of kinds. -/
theorem phases_perm (m : Manifest) : (phases m).flatten.Perm m.withoutDefinitions := by
  let others := m.withoutDefinitions.filter fun r => !r.hasKind "Deployment"
  have haccess : others.filter Resource.isAccessControl = m.filter Resource.isAccessControl := by
    rw [← withoutDefinitions_isAccessControl m, List.filter_filter]
    refine List.filter_congr fun r _ => ?_
    cases hkind : r.hasKind "Deployment" with
    | false => simp
    | true => simp [not_isAccessControl_of_hasKind hkind]
  have hordinary : (others.filter fun r => !r.isAccessControl) =
      m.filter fun r => !(r.hasKind "Deployment" || r.isAccessControl || r.isDefinition) := by
    rw [← withoutDefinitions_ordinary, List.filter_filter]
    exact List.filter_congr fun r _ => by rw [Bool.not_or, Bool.and_comm]
  have hreversed : m.applyOrder.reverse.Perm m := (List.reverse_perm _).trans (applyOrder_perm m)
  calc (phases m).flatten
    _ = deployments m ++ (ordinary m ++ permissions m) := by simp [phases]
    _ |>.Perm (m.filter (·.hasKind "Deployment") ++
        ((m.filter fun r => !(r.hasKind "Deployment" || r.isAccessControl || r.isDefinition)) ++
          m.filter Resource.isAccessControl)) :=
      (hreversed.filter _).append ((hreversed.filter _).append (hreversed.filter _))
    _ = m.withoutDefinitions.filter (·.hasKind "Deployment") ++
        ((others.filter fun r => !r.isAccessControl) ++ others.filter Resource.isAccessControl) := by
      rw [withoutDefinitions_hasKind, haccess, hordinary]
    _ |>.Perm (m.withoutDefinitions.filter (·.hasKind "Deployment") ++ others) :=
      (List.perm_append_comm.trans (List.filter_append_perm _ _)).append_left _
    _ |>.Perm m.withoutDefinitions := List.filter_append_perm _ _

/-- Bindings go before the roles that they grant. -/
theorem permissions_order (m : Manifest) :
    permissions m = (m.filter Resource.isRoleBinding).reverse ++ (m.filter Resource.isRole).reverse := by
  have hroles : (m.filter Resource.isRole).filter Resource.isAccessControl =
      m.filter Resource.isRole :=
    List.filter_eq_self.2 fun r hr => by simp [Resource.isAccessControl, (List.mem_filter.1 hr).2]
  have hbindings : (m.filter Resource.isRoleBinding).filter Resource.isAccessControl =
      m.filter Resource.isRoleBinding :=
    List.filter_eq_self.2 fun r hr => by simp [Resource.isAccessControl, (List.mem_filter.1 hr).2]
  have hrest : (m.filter fun r => !r.isAccessControl).filter Resource.isAccessControl = [] :=
    List.filter_eq_nil_iff.2 fun r hr => by simpa using (List.mem_filter.1 hr).2
  rw [permissions, List.filter_reverse, applyOrder, List.filter_append, List.filter_append,
    hroles, hbindings, hrest, List.append_nil, List.reverse_append]

theorem isDefinition_of_mem_phases (h : r ∈ (phases m).flatten) : r.isDefinition = false := by
  simp only [phases, List.flatten_cons, List.flatten_nil, List.append_nil, List.mem_append,
    deployments, ordinary, permissions, List.mem_filter] at h
  obtain ⟨-, hkind⟩ | ⟨-, hother⟩ | ⟨-, haccess⟩ := h
  · exact not_isDefinition_of_hasKind hkind
  · simp only [Bool.not_eq_eq_eq_not, Bool.not_true, Bool.or_eq_false_iff] at hother
    exact hother.2
  · exact not_isDefinition_of_isAccessControl haccess

end

/-! ## Runs -/

variable {σ : Type} {world : Program.World Call Call.Answer σ} {s s' : σ}
  {t : Program.Trace Call Call.Answer} {x : Except Error Unit} {ctx : Context} {i : Instance}

theorem any_needs_iff {others : List Instance} : others.any (needs i) = true ↔
    ∃ other ∈ others, other.isDeleting = false ∧ other.key ≠ i.key := by
  simp [needs]

theorem any_needs_eq_false {others : List Instance} : others.any (needs i) = false ↔
    ∀ other ∈ others, other.isDeleting = true ∨ other.key = i.key := by
  simp only [List.any_eq_false, needs, Bool.and_eq_true, not_and_or, Bool.not_eq_true,
    Bool.not_eq_false', bne_eq_false_iff_eq]

/-- Moving never fails. -/
theorem installed_eq (ctx : Context) (i : Instance) :
    installed ctx i = .ok (placed ctx i).withoutDefinitions := by
  have hmove : ctx.manifest.mapM (Transformer.inNamespace i.targetNamespace).apply =
      .ok (placed ctx i) := List.mapM_pure
  rw [installed, hmove]
  rfl

theorem runs_deleteInstalled (h : Runs world (deleteInstalled ctx i) s t x s') :
    ∃ e?, Phased (phases (placed ctx i)) t e? ∧ x = outcome e? := by
  rw [deleteInstalled, installed_eq] at h
  change ∃ e?, Phased ([deployments (placed ctx i)] ++ ([ordinary (placed ctx i)] ++
    [permissions (placed ctx i)])) t e? ∧ x = outcome e?
  refine phased_bind (fun h => ?_) (fun h => ?_) h
  · rw [← deployments_eq]
    refine runs_deleteAll_pure (b := false) (fun r hr => ?_) h
    exact not_isAccessControl_of_hasKind (List.mem_filter.1 hr).2
  · refine phased_bind (fun h => ?_) (fun h => ?_) h
    · rw [← ordinary_eq]
      refine runs_deleteAll_pure (b := false) (fun r hr => ?_) h
      have hother := (List.mem_filter.1 hr).2
      simp only [Bool.not_or, Bool.and_eq_true, Bool.not_eq_eq_eq_not, Bool.not_true] at hother
      exact hother.2
    · rw [← permissions_eq]
      exact runs_deleteAll_pure (b := true) (fun r hr => (List.mem_filter.1 hr).2) h

/-- **Every finalization is one of those listed.** -/
theorem runs_finalize (h : Runs world (finalize ctx i) s t x s') : Finalized ctx i t x := by
  rw [finalize] at h
  split at h
  · next hbound =>
    obtain ⟨rfl, rfl, -⟩ := runs_pure.1 h
    exact .idle (by simpa using hbound)
  · next hbound =>
    replace hbound : i.hasFinalizer = true := by simpa using hbound
    obtain ⟨e, rfl, -, rfl⟩ | ⟨others, s₁, t₁, rfl, -, hnext⟩ := runs_ask_bind.1 h
    · exact .blind hbound e
    · dsimp only at hnext
      split at hnext
      · next halone =>
        replace halone := any_needs_eq_false.1 (by simpa using halone)
        obtain ⟨e, rfl, hdelete⟩ | ⟨_, t₃, s₂, t₄, rfl, hdelete, hrelease⟩ :=
          runs_bind.1 hnext
        · obtain ⟨e?, hphased, hx⟩ := runs_deleteInstalled hdelete
          cases e? with
          | none => cases hx
          | some e' =>
            obtain rfl := Except.error.inj hx
            exact .stuck hbound halone hphased
        · obtain ⟨e?, hphased, hx⟩ := runs_deleteInstalled hdelete
          cases e? with
          | some e' => cases hx
          | none =>
            obtain ⟨rfl, -⟩ := runs_ask.1 hrelease
            exact .released hbound halone hphased x
      · next hneeded =>
        obtain ⟨rfl, -⟩ := runs_ask.1 hnext
        exact .shared hbound (any_needs_iff.1 (by simpa using hneeded)) x

/-! ## What the calls come to -/

/-- The calls of deletions are allowed, also among others. -/
theorem allowed_of_phased {t' : Program.Trace Call Call.Answer} {e? : Option Error}
    (h : Phased (phases (placed ctx i)) t e?) (ht : t <:+: t') : ∀ e ∈ t, Allowed i t' e := by
  intro e he
  obtain ⟨r, -, hget⟩ | ⟨r, hr, live, a, rfl, htag, hfound⟩ := h.sound e he
  · obtain ⟨c, a⟩ := e
    obtain rfl : c = .get r.key := hget
    exact .look r.key a
  · have hlasting : r.key.kind ≠ "CustomResourceDefinition" := by
      simpa [Resource.isDefinition, Resource.key] using isDefinition_of_mem_phases hr
    exact .delete hlasting htag (hfound.trans ht)

theorem not_released_of_phased {e? : Option Error} (h : Phased (phases (placed ctx i)) t e?) :
    ¬ Released i t := by
  rintro ⟨a, hmem⟩
  obtain ⟨r, -, hget⟩ | ⟨r, -, live, b, hdelete, -⟩ := h.sound _ hmem
  · cases hget
  · cases hdelete

theorem Finalized.allowed (h : Finalized ctx i t x) : ∀ e ∈ t, Allowed i t e := by
  cases h with
  | idle => simp
  | blind _ e => exact List.forall_mem_singleton.2 (.list _)
  | shared =>
    exact List.forall_mem_cons.2 ⟨.list _, List.forall_mem_singleton.2 (.release x)⟩
  | stuck _ _ deletions =>
    exact List.forall_mem_cons.2 ⟨.list _, allowed_of_phased deletions (List.suffix_cons _ _).isInfix⟩
  | @released others t _ _ deletions =>
    refine List.forall_mem_cons.2 ⟨.list _, List.forall_mem_append.2 ⟨?_, ?_⟩⟩
    · exact allowed_of_phased deletions
        ((List.prefix_append t _).isInfix.trans (List.suffix_cons _ _).isInfix)
    · exact List.forall_mem_singleton.2 (.release x)

/-- The instance is released exactly if it waits for that and nothing is in the way. -/
theorem Finalized.released_iff (h : Finalized ctx i t x) :
    Released i t ↔ i.hasFinalizer = true ∧ firstObstacle? t = none := by
  cases h with
  | idle unbound => simp [Released, unbound]
  | blind bound e => simp [Released, firstObstacle?, obstacle?]
  | shared bound needed => simp [Released, firstObstacle?, obstacle?, bound]
  | @stuck others t e bound alone deletions =>
    have hno : ¬ Released i (⟨.listInstances, .ok others⟩ :: t) := by
      rintro ⟨a, hmem⟩
      exact not_released_of_phased deletions ⟨a, by simpa using hmem⟩
    have hobstacle : firstObstacle? (⟨.listInstances, .ok others⟩ :: t) = some e :=
      deletions.firstObstacle?
    simp [hno, hobstacle]
  | @released others t bound alone deletions =>
    have hobstacle : firstObstacle? (⟨.listInstances, .ok others⟩ :: (t ++
        [⟨.removeFinalizer i.namespaceName i.name Instance.finalizer, x⟩])) = none := by
      show firstObstacle? (t ++ [_]) = none
      rw [firstObstacle?_append, deletions.firstObstacle?]
      rfl
    exact iff_of_true ⟨x, by simp⟩ ⟨bound, hobstacle⟩

/-- What is in the way is told. -/
theorem Finalized.error_of_obstacle (h : Finalized ctx i t x) {e : Error}
    (hobstacle : firstObstacle? t = some e) : x = .error e := by
  cases h with
  | idle => cases hobstacle
  | blind _ e' =>
    obtain rfl := Option.some.inj hobstacle
    rfl
  | shared => cases hobstacle
  | @stuck _ t _ _ _ deletions =>
    obtain rfl := Option.some.inj (deletions.firstObstacle?.symm.trans hobstacle)
    rfl
  | @released _ t _ _ deletions =>
    replace hobstacle : firstObstacle? (t ++ [_]) = some e := hobstacle
    rw [firstObstacle?_append, deletions.firstObstacle?] at hobstacle
    cases hobstacle

/-- **Teardown, whatever the calls are answered.** A finalization goes in one of the ways listed: an
instance without the finalizer makes no call; while another instance is not being deleted, it is
only released; and else the phases are deleted, each in reverse order of application and to its end,
up to the first phase with an obstacle. Nothing is created or replaced, and only what was found
tagged is deleted, never the definition of a kind. The instance is released exactly if nothing was
in the way, and what was first in the way is told. -/
theorem finalize_calls (ctx : Context) (i : Instance)
    (handle : Program.Handler Call Call.Answer σ) (s : σ) :
    let t := Program.calls handle (finalize ctx i).run s
    let x := (Program.run handle (finalize ctx i).run s).1
    Finalized ctx i t x ∧
    permissions (placed ctx i) =
      ((placed ctx i).filter Resource.isRoleBinding).reverse ++
        ((placed ctx i).filter Resource.isRole).reverse ∧
    (∀ e ∈ t, Allowed i t e) ∧
    (Released i t ↔ i.hasFinalizer = true ∧ firstObstacle? t = none) ∧
    ∀ e, firstObstacle? t = some e → x = .error e := by
  intro t x
  have hfinalized : Finalized ctx i t x :=
    runs_finalize (Program.runs_handler handle (finalize ctx i).run s)
  exact ⟨hfinalized, permissions_order _, hfinalized.allowed, hfinalized.released_iff,
    fun _ => hfinalized.error_of_obstacle⟩

namespace Shared

def context : Context where
  manifest := [⟨[("apiVersion", .str "v1"), ("kind", .str "ConfigMap"),
    ("metadata", .obj [("name", .str "config")])]⟩]

def leaving : Instance where
  metadata := {
    name := some "serving", namespaceName := some "a"
    finalizers := some [Instance.finalizer], deletionTimestamp := some ⟨1970, 1, 1, 0, 0, 0, 0⟩ }
  spec := {}

/-- A second instance, which nobody deletes. -/
def staying : Instance where
  metadata := { name := some "serving", namespaceName := some "b" }
  spec := {}

def before : Rehearsal where
  instances := [(("a", "serving"), leaving), (("b", "serving"), staying)]

end Shared

/-- A second instance is live, so the instance that is deleted is released and nothing else happens. -/
theorem finalize_calls_shared :
    let t := Program.calls Rehearsal.answer (finalize Shared.context Shared.leaving).run Shared.before
    let x := (Program.run Rehearsal.answer (finalize Shared.context Shared.leaving).run
      Shared.before).1
    t.map (·.1) = [.listInstances, .removeFinalizer "a" "serving" Instance.finalizer] ∧
      x = .ok () ∧ Finalized Shared.context Shared.leaving t x ∧ Released Shared.leaving t := by
  obtain ⟨hfinalized, -, -, hreleased, -⟩ :=
    finalize_calls Shared.context Shared.leaving Rehearsal.answer Shared.before
  exact ⟨rfl, by decide +kernel, hfinalized, hreleased.2 ⟨rfl, rfl⟩⟩

end ReleaseKeeper.Teardown
