import ReleaseKeeper.Api.Instances
import ReleaseKeeper.Proofs.Instance.Json

/-!
# What an API server stores of a status

The change that writes a status is merged into the stored object. It leaves metadata and spec alone,
and of the stored status it keeps what the new one leaves out (`Stored.change`), so a status that was
merged in is read back only where it leaves out nothing that was there
(`InstanceStatus.onto_eq_iff`).
-/
namespace ReleaseKeeper

open Typed Typed.Reader Json

/-- An object that stands for an instance; its status is no list. -/
structure Stored (x : Json) (i : Instance) : Prop where
  read : Instance.ofJson x = .ok i
  object : x.asObj?.isSome = true
  status : (x.get? "status").bind asArr? = none

namespace Stored

variable {x : Json} {i : Instance} {status : InstanceStatus}

theorem eq_obj (h : Stored x i) : ∃ fields, x = .obj fields := by
  cases x with
  | obj fields => exact ⟨fields, rfl⟩
  | _ => exact absurd h.object Bool.false_ne_true

theorem generation (h : Stored x i) :
    ∀ g ∈ i.metadata.generation, -9223372036854775808 ≤ g ∧ g ≤ 9223372036854775807 := by
  obtain ⟨fields, rfl⟩ := h.eq_obj
  obtain ⟨_, -, hread⟩ := of_field?_eq_some (Instance.ofJson_obj_iff.1 h.read).1
  exact (Metadata.storable_of_ofJson hread).generation

/-- The stored status is read from the members that a change is merged into. -/
theorem status_read {fields : Dict Json} (h : Stored (.obj fields) i) :
    InstanceStatus.ofJson (.obj (((fields.lookup "status").getD .null).asObj?.getD [])) =
      .ok i.currentStatus := by
  obtain ⟨-, -, s?, hs, hstatus⟩ := Instance.ofJson_obj_iff.1 h.read
  have hempty : InstanceStatus.ofJson (.obj []) = .ok {} := by
    rw [InstanceStatus.ofJson_obj_iff]
    exact ⟨⟨none, rfl, rfl⟩, ⟨none, rfl, rfl⟩, ⟨none, rfl, rfl⟩, none, rfl, rfl⟩
  have hlist := h.status
  rw [Instance.currentStatus, hstatus]
  rw [field?] at hs
  change (fields.lookup "status").bind asArr? = none at hlist
  cases hx : fields.lookup "status" with
  | none =>
    rw [hx] at hs
    obtain rfl := Except.ok.inj hs
    exact hempty
  | some x =>
    rw [hx] at hs hlist
    cases x with
    | null =>
      obtain rfl := Except.ok.inj hs
      exact hempty
    | obj found =>
      obtain ⟨_, hoption, rfl⟩ := map_eq_ok.1 hs
      obtain ⟨s, hread, rfl⟩ := map_eq_ok.1 hoption
      exact hread
    | arr => cases hlist
    | _ => cases hs

theorem times (h : Stored x i) : ∀ c ∈ i.currentStatus.conditions, c.lastTransitionTime.Valid := by
  obtain ⟨fields, rfl⟩ := h.eq_obj
  exact (InstanceStatus.storable_of_ofJson h.status_read).times

/-- **What a change leaves stored.** It is the instance with the new status over the old one. -/
theorem change (h : Stored x i) (hs : status.Storable) :
    Stored ((Api.Instances.statusChange status).patch x) (i.mapStatus status.onto) := by
  obtain ⟨fields, rfl⟩ := h.eq_obj
  obtain ⟨hm, hspec, -⟩ := Instance.ofJson_obj_iff.1 h.read
  obtain ⟨found, hfound, hread⟩ := InstanceStatus.ofJson_patch hs h.status_read
  have hpatched : (Api.Instances.statusChange status).patch (.obj fields) =
      .obj (Table.put "status" (.obj found) fields) := by
    rw [← hfound, Api.Instances.statusChange, patch]
    rfl
  have hput : ∀ name, name ≠ "status" →
      (Table.put "status" (.obj found) fields).lookup name = fields.lookup name := fun name hne => by
    rw [Table.lookup_put, if_neg hne]
  have hstatus : (Table.put "status" (.obj found) fields).lookup "status" = some (.obj found) := by
    rw [Table.lookup_put, if_pos rfl]
  rw [hpatched]
  refine ⟨Instance.ofJson_obj_iff.2 ⟨?_, ?_, some (some (status.onto i.currentStatus)), ?_, rfl⟩,
    rfl, ?_⟩
  · exact (field?_congr (hput "metadata" (by decide))).trans hm
  · exact (field?_congr (hput "spec" (by decide))).trans hspec
  · refine field?_eq_some hstatus ?_
    rw [option, hread]
    · rfl
    · rintro ⟨⟩
  · simp [get?, asObj?, hstatus, asArr?]

/-- Changes are merged in one after another. -/
theorem changes : ∀ {statuses : List InstanceStatus} {x : Json} {i : Instance}, Stored x i →
    (∀ status ∈ statuses, status.Storable) →
    Stored (statuses.foldl (fun x status => (Api.Instances.statusChange status).patch x) x)
      (statuses.foldl (fun i status => i.mapStatus status.onto) i)
  | [], _, _, h, _ => h
  | _ :: _, _, _, h, hs => by
    obtain ⟨hstatus, hrest⟩ := List.forall_mem_cons.1 hs
    rw [List.foldl_cons, List.foldl_cons]
    exact changes (h.change hstatus) hrest

end Stored

end ReleaseKeeper
