import ReleaseKeeper.Proofs.Platform.Calls
import ReleaseKeeper.Reconcile.Basic

/-!
# What a pass calls

Applying a release is about the cluster, whatever the calls are answered. Looking at deployments,
removing what is obsolete and a teardown make but a few kinds of calls, so they keep every condition
on calls that those fulfil.
-/
namespace ReleaseKeeper

open Operation

theorem Manifest.ensures_apply (r : Resource) :
    (Manifest.apply r).Ensures Call.OnCluster fun _ => True := by
  refine ensures_bind (ensures_ask trivial) fun live? _ => ?_
  cases live? with
  | none => exact ensures_bind (ensures_ask trivial) fun _ _ => ensures_pure trivial
  | some live =>
    dsimp only
    split
    · exact ensures_bind (ensures_ask trivial) fun _ _ => ensures_pure trivial
    · exact ensures_pure trivial

theorem Manifest.ensures_applyEach :
    ∀ rs, (Manifest.applyEach rs).Ensures Call.OnCluster fun _ => True
  | [] => trivial
  | r :: rest => by
    refine Program.Ensures.bind (Manifest.ensures_apply r) fun x _ => ?_
    cases x with
    | error e => trivial
    | ok _ =>
      refine Program.Ensures.bind (Manifest.ensures_applyEach rest) fun y _ => ?_
      cases y <;> trivial

/-- What is made of what a look at a deployment finds. -/
def Deployment.verdict : Except Error (Option Resource) → Except Error Bool
  | .error e => .error e
  | .ok none => .ok false
  | .ok (some live) => (check live).map fun _ => isAvailable live

/-- Whether a deployment is available is found by one look. -/
theorem Pass.runs_isDeploymentAvailable {σ : Type} {world : Program.World Call Call.Answer σ}
    {s s' : σ} {t : Program.Trace Call Call.Answer} {r : Resource} {x : Except Error Bool}
    (h : Runs world (isDeploymentAvailable r) s t x s') :
    ∃ a, t = [⟨.get r.key, a⟩] ∧ world s (.get r.key) a s' ∧ x = Deployment.verdict a := by
  obtain ⟨e, rfl, looked, rfl⟩ | ⟨live?, s₁, t₁, rfl, looked, hnext⟩ := runs_ask_bind.1 h
  · exact ⟨_, rfl, looked, rfl⟩
  · cases live? with
    | none =>
      obtain ⟨rfl, rfl, rfl⟩ := runs_pure.1 hnext
      exact ⟨_, rfl, looked, rfl⟩
    | some live =>
      obtain ⟨e, rfl, hcheck⟩ | ⟨_, t₃, s₂, t₄, rfl, hcheck, hend⟩ := runs_bind.1 hnext
      · obtain ⟨rfl, hchecked, rfl⟩ := runs_except.1 hcheck
        exact ⟨_, rfl, looked, by rw [Deployment.verdict, ← hchecked]; rfl⟩
      · obtain ⟨rfl, hchecked, rfl⟩ := runs_except.1 hcheck
        obtain ⟨rfl, rfl, rfl⟩ := runs_pure.1 hend
        exact ⟨_, rfl, looked, by rw [Deployment.verdict, ← hchecked]; rfl⟩

section
variable {P : Call → Prop} (hget : ∀ key, P (.get key)) (hdelete : ∀ key, P (.delete key))

include hdelete in
theorem Obsolete.ensures_deleteEach : ∀ keys, (Obsolete.deleteEach keys).Ensures P fun _ => True
  | [] => ensures_pure trivial
  | key :: rest => by
    refine ensures_bind (ensures_outcome (ensures_ask (hdelete key))) fun x _ => ?_
    cases x with
    | ok _ => exact Obsolete.ensures_deleteEach rest
    | error e =>
      dsimp only
      split
      · exact Obsolete.ensures_deleteEach rest
      · exact ensures_throw

include hget

theorem Pass.ensures_isDeploymentAvailable (r : Resource) :
    (Pass.isDeploymentAvailable r).Ensures P fun _ => True := by
  refine ensures_bind (ensures_ask (hget _)) fun live? _ => ?_
  cases live? with
  | none => exact ensures_pure trivial
  | some live =>
    exact ensures_bind (ensures_except (Q := fun _ => True) fun _ _ => trivial) fun _ _ =>
      ensures_pure trivial

include hdelete

theorem Manifest.ensures_delete (r : Resource) : (Manifest.delete r).Ensures P fun _ => True := by
  refine ensures_bind (ensures_ask (hget _)) fun live? _ => ?_
  cases live? with
  | none => exact ensures_pure trivial
  | some live =>
    dsimp only
    split
    · exact ensures_pure trivial
    · refine ensures_bind (ensures_outcome (ensures_ask (hdelete _))) fun x _ => ?_
      cases x with
      | ok _ => exact ensures_pure trivial
      | error e =>
        dsimp only
        split
        · exact ensures_pure trivial
        · exact ensures_throw

theorem Manifest.ensures_deleteEach : ∀ rs, (Manifest.deleteEach rs).Ensures P fun _ => True
  | [] => trivial
  | r :: rest => by
    refine Program.Ensures.bind (Manifest.ensures_delete hget hdelete r) fun _ _ => ?_
    exact Program.Ensures.bind (Manifest.ensures_deleteEach rest) fun _ _ => trivial

theorem Manifest.ensures_deletePhase (rs : List Resource) :
    (Manifest.deletePhase rs).Ensures P fun _ => True := by
  refine ensures_bind (ensures_lift (Manifest.ensures_deleteEach hget hdelete rs)) fun e? _ => ?_
  cases e? with
  | none => exact ensures_pure trivial
  | some e => exact ensures_throw

theorem Manifest.ensures_deleteAll (m : Manifest) :
    (Manifest.deleteAll m).Ensures P fun _ => True :=
  ensures_bind (Manifest.ensures_deletePhase hget hdelete _) fun _ _ =>
    Manifest.ensures_deletePhase hget hdelete _

theorem Teardown.ensures_deleteInstalled (ctx : Context) (i : Instance) :
    (Teardown.deleteInstalled ctx i).Ensures P fun _ => True := by
  have hall := Manifest.ensures_deleteAll hget hdelete
  refine ensures_bind (ensures_except (Q := fun _ => True) fun _ _ => trivial) fun m _ => ?_
  exact ensures_bind (hall _) fun _ _ => ensures_bind (hall _) fun _ _ => hall _

theorem Teardown.ensures_finalize (hlist : P .listInstances)
    (hrelease : ∀ ns name finalizer, P (.removeFinalizer ns name finalizer)) (ctx : Context)
    (i : Instance) : (Teardown.finalize ctx i).Ensures P fun _ => True := by
  have hlast : (ask (.removeFinalizer i.namespaceName i.name Instance.finalizer)).Ensures P
      fun _ => True := ensures_ask (hrelease _ _ _)
  rw [Teardown.finalize]
  split
  · exact ensures_pure trivial
  · refine ensures_bind (ensures_ask hlist) fun instances _ => ?_
    dsimp only
    split
    · exact ensures_bind (Teardown.ensures_deleteInstalled hget hdelete ctx i) fun _ _ => hlast
    · exact hlast

end

end ReleaseKeeper
