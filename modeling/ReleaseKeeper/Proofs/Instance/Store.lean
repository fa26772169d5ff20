import Mathlib.Logic.Basic
import ReleaseKeeper.Proofs.Cluster.Rehearsal

/-!
# What calls make of the stored instances

A call that is about the cluster leaves the store alone (`Rehearsal.world_onCluster`). A status that
is accepted and a finalizer that is added change the one instance that they are meant for
(`Rehearsal.world_patchStatus`, `Rehearsal.world_addFinalizer`), and what fails changes nothing.
-/
namespace ReleaseKeeper

/-- The instance with the finalizer behind the others, unless it is there. -/
def Instance.bound (i : Instance) (finalizer : String) : Instance :=
  if i.finalizers.contains finalizer then i.withFinalizers i.finalizers
  else i.withFinalizers (i.finalizers ++ [finalizer])

theorem Instance.bound_eq (i : Instance) (finalizer : String) :
    ∃ finalizers, i.bound finalizer = i.withFinalizers finalizers := by
  rw [bound]
  split <;> exact ⟨_, rfl⟩

theorem Instance.hasFinalizer_append (i : Instance) :
    (i.withFinalizers (i.finalizers ++ [Instance.finalizer])).hasFinalizer = true := by
  simp [hasFinalizer, finalizers, withFinalizers]

theorem Instance.hasFinalizer_bound (i : Instance) :
    (i.bound Instance.finalizer).hasFinalizer = true := by
  rw [bound]
  split
  · next h => exact h
  · exact i.hasFinalizer_append

namespace InstanceStore

variable {id other : String × String} {j : Instance} {store store' : InstanceStore}

theorem lookup_put (id other : String × String) (j : Instance) (store : InstanceStore) :
    (Table.put id j store).lookup other = if other = id then some j else store.lookup other := by
  -- the keys are compared as pairs here, and as keys of a table there
  rw [show (instBEqProd : BEq (String × String)) = instBEqOfDecidableEq from lawful_beq_subsingleton ..]
  exact Table.lookup_put id other j store

theorem modify_ok_iff {f : Instance → Instance} :
    store.modify id f = .ok store' ↔
      ∃ j, store.lookup id = some j ∧ Table.put id (f j) store = store' := by
  rw [modify]
  cases store.lookup id <;> simp

end InstanceStore

namespace Rehearsal

variable {w w' : Rehearsal}

theorem keepInstances_cases {changed : Except Error InstanceStore} {x : Except Error Unit}
    (h : w.keepInstances changed = (x, w')) :
    (∃ e, x = .error e ∧ w' = w) ∨
      ∃ instances, changed = .ok instances ∧ x = .ok () ∧ w' = { w with instances } := by
  cases changed with
  | error e =>
    obtain ⟨rfl, rfl⟩ := Prod.mk.inj h
    exact .inl ⟨e, rfl, rfl⟩
  | ok instances =>
    obtain ⟨rfl, rfl⟩ := Prod.mk.inj h
    exact .inr ⟨instances, rfl, rfl, rfl⟩

theorem perform_instances {c : Call} (hc : c.OnCluster) (w : Rehearsal) :
    (w.perform c).2.instances = w.instances := by
  have hkeep : ∀ changed, (w.keepCluster changed).2.instances = w.instances := by
    rintro (_ | _) <;> rfl
  cases c with
  | create | update | delete => exact hkeep _
  | patchStatus | addFinalizer | removeFinalizer | listInstances | getInstance | createInstance =>
    exact hc.elim
  | _ => rfl

/-- What is about the cluster leaves the instances as they are. -/
theorem world_onCluster {c : Call} {a : c.Answer} (hc : c.OnCluster) (h : world w c a w') :
    w'.instances = w.instances := by
  obtain ⟨outages, ⟨e, rfl, rfl⟩ | hdone⟩ := world_cases h
  · rfl
  · have hkept := perform_instances hc (w.noted c outages)
    rwa [hdone] at hkept

theorem runs_onCluster {α : Type} {p : Operation.Steps α} {Q : α → Prop} {x : α}
    {t : Program.Trace Call Call.Answer} (h : p.Ensures Call.OnCluster Q)
    (hrun : Program.Runs world p w t x w') : w'.instances = w.instances := by
  induction hrun with
  | done x s => rfl
  | call answered _ ih =>
    obtain ⟨hc, hnext⟩ := h
    rw [ih (hnext _), world_onCluster hc answered]

/-- A change of a stored instance fails and changes nothing, or changes just that instance. -/
theorem keepInstances_modify {id : String × String} {f : Instance → Instance} {v : Rehearsal}
    {a : Except Error Unit} (h : v.keepInstances (v.instances.modify id f) = (a, w')) :
    (∃ e, a = .error e ∧ w'.instances = v.instances) ∨
      a = .ok () ∧ ∃ j, v.instances.lookup id = some j ∧
        w'.instances = Table.put id (f j) v.instances := by
  obtain ⟨e, rfl, rfl⟩ | ⟨instances, hok, rfl, rfl⟩ := keepInstances_cases h
  · exact .inl ⟨e, rfl, rfl⟩
  · obtain ⟨j, hj, rfl⟩ := InstanceStore.modify_ok_iff.1 hok
    exact .inr ⟨rfl, j, hj, rfl⟩

theorem world_patchStatus {ns name : String} {status : InstanceStatus} {a : Except Error Unit}
    (h : world w (.patchStatus ns name status) a w') :
    (∃ e, a = .error e ∧ w'.instances = w.instances) ∨
      a = .ok () ∧ ∃ j, w.instances.lookup (ns, name) = some j ∧
        w'.instances = Table.put (ns, name) { j with status := some status } w.instances := by
  obtain ⟨outages, ⟨e, rfl, rfl⟩ | hdone⟩ := world_cases h
  · exact .inl ⟨e, rfl, rfl⟩
  · exact keepInstances_modify (v := w.noted _ outages) hdone

theorem world_addFinalizer {ns name finalizer : String} {a : Except Error Unit}
    (h : world w (.addFinalizer ns name finalizer) a w') :
    (∃ e, a = .error e ∧ w'.instances = w.instances) ∨
      a = .ok () ∧ ∃ j, w.instances.lookup (ns, name) = some j ∧
        w'.instances = Table.put (ns, name) (j.bound finalizer) w.instances := by
  obtain ⟨outages, ⟨e, rfl, rfl⟩ | hdone⟩ := world_cases h
  · exact .inl ⟨e, rfl, rfl⟩
  · exact keepInstances_modify (v := w.noted _ outages) (f := (·.bound finalizer)) hdone

end Rehearsal

end ReleaseKeeper
