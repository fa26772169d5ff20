import ReleaseKeeper.Proofs.Cluster.Rehearsal
import ReleaseKeeper.Proofs.Cluster.Tags
import ReleaseKeeper.Proofs.Reconcile.Teardown

/-!
# What a deletion clears

A deletion that succeeds clears exactly those of its keys that are tagged (`Clears`), as long as no
call fails as if something were not there, for not finding an object counts as its deletion. So a
teardown that succeeds clears the keys of the release without the definitions of kinds
(`Teardown.clears_deleteInstalled`, `Teardown.finalize_cleared`). Where nothing is planned to fail a
teardown meets no obstacle, and succeeds (`Teardown.finalize_succeeds`).
-/
namespace ReleaseKeeper

open Operation Rehearsal

/-- The tagged objects among some keys are gone, and no other mark has changed. -/
def Cluster.Cleared (keys : List ResourceKey) (c c' : Cluster) : Prop :=
  ∀ key, c'.mark key = if key ∈ keys ∧ c.mark key = some true then none else c.mark key

/-- Whenever an operation succeeds in an honest rehearsal, it has cleared some keys. -/
def Operation.Clears {α : Type} (keys : List ResourceKey) (op : Operation α) : Prop :=
  ∀ ⦃w w' : Rehearsal⦄ ⦃t : Program.Trace Call Call.Answer⦄ ⦃y : α⦄, w.Honest →
    Runs world op w t (.ok y) w' → w.cluster.Cleared keys w'.cluster

variable {w w' : Rehearsal} {t : Program.Trace Call Call.Answer} {ctx : Context} {i : Instance}

namespace Cluster.Cleared

variable {keys keys' : List ResourceKey} {c c₁ c' : Cluster}

theorem refl (c : Cluster) : Cleared [] c c := fun key => by simp

theorem trans (h : Cleared keys c c₁) (h' : Cleared keys' c₁ c') : Cleared (keys ++ keys') c c' := by
  intro key
  simp only [h' key, h key, List.mem_append]
  by_cases hin : key ∈ keys <;> by_cases hin' : key ∈ keys' <;>
    by_cases htag : c.mark key = some true <;> simp [hin, hin', htag]

/-- Only which keys there are matters. -/
theorem congr (h : Cleared keys c c') (hkeys : ∀ key, key ∈ keys' ↔ key ∈ keys) :
    Cleared keys' c c' := fun key => by simp only [h key, hkeys]

/-- What is not tagged stays. -/
theorem of_untagged {key : ResourceKey} (hmark : c.mark key ≠ some true) : Cleared [key] c c := by
  intro j
  rw [if_neg]
  rintro ⟨hj, htag⟩
  rw [List.mem_singleton.1 hj] at htag
  exact hmark htag

end Cluster.Cleared

/-! ## Deletions that succeed -/

/-- What clears some keys and then others clears them all. -/
theorem Operation.Clears.bind {first second : Operation Unit} {keys keys' : List ResourceKey}
    (hfirst : first.Clears keys) (hsecond : second.Clears keys') :
    (first >>= fun _ => second).Clears (keys ++ keys') := by
  intro w w' t y hw h
  obtain ⟨_, ⟨⟩, -⟩ | ⟨_, t₁, w₁, t₂, rfl, hrun, hnext⟩ := runs_bind.1 h
  exact (hfirst hw hrun).trans (hsecond (runs_honest hw hrun) hnext)

namespace Manifest

theorem clears_delete (r : Resource) : (Manifest.delete r).Clears [r.key] := by
  intro w w' t done hw h
  obtain ⟨_, -, -, ⟨⟩⟩ | ⟨-, hget, -⟩ | ⟨live, -, hget, htag, -⟩ |
    ⟨live, w₁, a, -, hget, htag, hdelete, hdone⟩ := delete_cases h
  · obtain ⟨hcluster, ⟨_, ⟨⟩⟩ | hlive⟩ := world_get hget
    rw [hcluster]
    refine .of_untagged ?_
    rw [Cluster.mark, ← Except.ok.inj hlive]
    simp
  · obtain ⟨hcluster, ⟨_, ⟨⟩⟩ | hlive⟩ := world_get hget
    rw [hcluster]
    refine .of_untagged ?_
    rw [Cluster.mark, ← Except.ok.inj hlive, Option.map_some, htag]
    simp
  · obtain ⟨hcluster, ⟨_, ⟨⟩⟩ | hlive⟩ := world_get hget
    have hmark : w.cluster.mark r.key = some true := by
      rw [Cluster.mark, ← Except.ok.inj hlive, Option.map_some, htag]
    have hnotFound : ∀ e, a = .error e → e.isNotFound = true := by
      rintro e rfl
      by_contra hfound
      rw [deletion, if_neg hfound] at hdone
      cases hdone
    intro key
    rw [Cluster.mark, world_delete_honest (world_honest hw hget).1 hdelete hnotFound, hcluster]
    by_cases hkey : key = r.key
    · simp [hkey, hmark]
    · simp [hkey, Cluster.mark]

theorem deleteEach_cleared : ∀ {rs : List Resource} {w w' : Rehearsal}
    {t : Program.Trace Call Call.Answer}, w.Honest →
    Program.Runs world (deleteEach rs) w t none w' →
    w.cluster.Cleared (rs.map Resource.key) w'.cluster
  | [], w, w', t, _, h => by
    obtain ⟨-, -, rfl⟩ := Program.runs_done_iff.1 h
    exact .refl _
  | r :: rest, w, w', t, hw, h => by
    obtain ⟨t₁, x, w₁, t₂, rfl, hr, h⟩ := Program.runs_bind_iff.1 h
    obtain ⟨t₃, later, w₂, t₄, rfl, hrest, hend⟩ := Program.runs_bind_iff.1 h
    obtain ⟨-, hnone, rfl⟩ := Program.runs_done_iff.1 hend
    cases x with
    | error e => cases hnone
    | ok done =>
      obtain rfl : none = later := hnone
      exact (clears_delete r hw hr).trans (deleteEach_cleared (runs_honest hw hr) hrest)

theorem clears_deletePhase (rs : List Resource) :
    (deletePhase rs).Clears (rs.map Resource.key) := by
  intro w w' t _ hw h
  obtain ⟨e?, t₁, w₁, t₂, rfl, heach, hend⟩ := runs_lift_bind.1 h
  cases e? with
  | some e => cases (runs_throw.1 hend).2.1
  | none =>
    obtain ⟨-, -, rfl⟩ := runs_pure.1 hend
    exact deleteEach_cleared hw heach

theorem clears_deleteAll (m : Manifest) : (deleteAll m).Clears (m.map Resource.key) := by
  intro w w' t _ hw h
  refine Cluster.Cleared.congr ((clears_deletePhase _).bind (clears_deletePhase _) hw h) fun key => ?_
  rw [← List.map_append]
  refine List.Perm.mem_iff (List.Perm.map _ ?_)
  exact ((perm_isAccessControl _).trans (deleteOrder_perm m)).symm

end Manifest

/-! ## Teardowns -/

namespace Teardown

/-- A teardown clears the keys of the release without the definitions of kinds. -/
theorem clears_deleteInstalled (ctx : Context) (i : Instance) :
    (deleteInstalled ctx i).Clears ((placed ctx i).withoutDefinitions.map Resource.key) := by
  intro w w' t _ hw h
  rw [deleteInstalled, installed_eq] at h
  let m := (placed ctx i).withoutDefinitions
  have hall := (Manifest.clears_deleteAll (m.filter (·.hasKind "Deployment"))).bind
    ((Manifest.clears_deleteAll (m.filter fun r => !(r.hasKind "Deployment" || r.isAccessControl))).bind
      (Manifest.clears_deleteAll (m.filter Resource.isAccessControl)))
  refine Cluster.Cleared.congr (hall hw h) fun key => ?_
  have hpart : ∀ p : Resource → Bool,
      (m.filter p).Perm (Manifest.applyOrder (m.filter p)).reverse := fun p =>
    ((List.reverse_perm _).trans (Manifest.applyOrder_perm _)).symm
  have hparts := (hpart (·.hasKind "Deployment")).append
    ((hpart fun r => !(r.hasKind "Deployment" || r.isAccessControl)).append
      (hpart Resource.isAccessControl))
  rw [deployments_eq, ordinary_eq, permissions_eq] at hparts
  have hperm := hparts.trans (by simpa [phases] using phases_perm (placed ctx i))
  rw [← List.map_append, ← List.map_append]
  exact (hperm.map _).symm.mem_iff

/-- The keys of what is torn down. -/
theorem mem_keys_withoutDefinitions {m : Manifest} {key : ResourceKey} :
    key ∈ m.withoutDefinitions.map Resource.key ↔
      key ∈ m.map Resource.key ∧ key.kind ≠ "CustomResourceDefinition" := by
  simp only [Manifest.withoutDefinitions, List.mem_map, List.mem_filter, Resource.isDefinition]
  constructor
  · rintro ⟨r, ⟨hr, hkind⟩, rfl⟩
    exact ⟨⟨r, hr, rfl⟩, by simpa [Resource.key] using hkind⟩
  · rintro ⟨⟨r, hr, rfl⟩, hkind⟩
    exact ⟨r, ⟨hr, by simpa [Resource.key] using hkind⟩, rfl⟩

/-- A successful teardown of an instance whose release no other needs clears it. -/
theorem finalize_cleared (hw : w.Honest) (hbound : i.hasFinalizer = true)
    (halone : ∀ e ∈ w.instances, needs i e.2 = false)
    (h : Runs world (finalize ctx i) w t (.ok ()) w') :
    w.cluster.Cleared ((placed ctx i).withoutDefinitions.map Resource.key) w'.cluster := by
  rw [finalize, if_neg (not_not_intro hbound)] at h
  obtain ⟨_, -, -, ⟨⟩⟩ | ⟨others, w₁, t₁, rfl, listed, hnext⟩ := runs_ask_bind.1 h
  obtain ⟨hcluster, ⟨_, ⟨⟩⟩ | hothers⟩ := world_listInstances listed
  obtain rfl := Except.ok.inj hothers
  have hfree : (w.instances.map (·.2)).any (needs i) = false := by
    rw [List.any_map, List.any_eq_false]
    exact fun e he => Bool.eq_false_iff.1 (halone e he)
  dsimp only at hnext
  rw [hfree, if_pos (by simp)] at hnext
  obtain ⟨_, ⟨⟩, -⟩ | ⟨_, t₃, w₂, t₄, rfl, hdelete, hrelease⟩ := runs_bind.1 hnext
  rw [world_keeps (c := .removeFinalizer ..) trivial (runs_ask.1 hrelease).2, ← hcluster]
  exact clears_deleteInstalled ctx i (world_honest hw listed).1 hdelete

/-! ## Where nothing is planned to fail -/

theorem obstacle?_calm {c : Call} {a : c.Answer} (hw : w.Calm) (h : world w c a w') :
    Manifest.obstacle? ⟨c, a⟩ = none := by
  have hdone := world_of_calm hw.outages h
  cases c with
  | get | listInstances =>
    obtain ⟨rfl, -⟩ := Prod.mk.inj hdone
    rfl
  | delete key =>
    obtain ⟨-, rfl | ⟨-, e, rfl, hnotFound⟩⟩ := world_delete_calm hw h
    · rfl
    · exact if_pos hnotFound
  | _ => rfl

/-- If an instance is asked to be released, it is. -/
def Granted : (c : Call) × c.Answer → Prop
  | ⟨.removeFinalizer .., a⟩ => a = .ok ()
  | _ => True

theorem granted_calm {c : Call} {a : c.Answer} (hw : w.Calm) (h : world w c a w') :
    Granted ⟨c, a⟩ := by
  have hdone := world_of_calm hw.outages h
  cases c with
  | removeFinalizer => exact (Prod.mk.inj hdone).1.symm
  | _ => trivial

/-- Where nothing is planned to fail, a teardown succeeds. -/
theorem finalize_succeeds {x : Except Error Unit} (hw : w.Calm)
    (h : Runs world (finalize ctx i) w t x w') : x = .ok () := by
  have hclear : Manifest.firstObstacle? t = none :=
    List.findSome?_eq_none_iff.2 (forall_calm obstacle?_calm hw h)
  have hgranted : ⟨.removeFinalizer i.namespaceName i.name Instance.finalizer, x⟩ ∈ t →
      x = .ok () := forall_calm granted_calm hw h _
  cases runs_finalize h with
  | idle => rfl
  | blind => cases hclear
  | shared => exact hgranted (by simp)
  | stuck _ _ deletions => cases deletions.firstObstacle?.symm.trans hclear
  | released => exact hgranted (by simp)

end Teardown

end ReleaseKeeper
