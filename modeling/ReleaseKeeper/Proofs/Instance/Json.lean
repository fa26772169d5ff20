import ReleaseKeeper.Instance.Basic
import ReleaseKeeper.Proofs.Metadata

/-!
# Instances and their JSON

The conditions and references of a status are read back from what was written of them
(`Condition.ofJson_toJson`, `Reference.ofJson_toJson`), conditions as long as their times are points
of the calendar, which all times that were read are (`Condition.valid_of_ofJson`). So every status
that was read is read back (`InstanceStatus.storable_of_ofJson`, `InstanceStatus.ofJson_toJson`). A
status that is merged into the JSON of another one is read as the one put onto the other
(`InstanceStatus.ofJson_patch`).
-/
namespace ReleaseKeeper

open Typed Typed.Reader Json

variable {x : Json}

namespace Condition

def members (c : Condition) : List (String × Option Json) := [
  ("lastTransitionTime", some (.str c.lastTransitionTime.precise)),
  ("message", nonemptyText c.message),
  ("reason", nonemptyText c.reason),
  ("status", some (.str c.status.name)),
  ("type", some (.str c.type))]

theorem ofJson_toJson {c : Condition} (h : c.lastTransitionTime.Valid) :
    Condition.ofJson c.toJson = .ok c := by
  have hn : (c.members.map (·.1)).Nodup := by
    change ["lastTransitionTime", "message", "reason", "status", "type"].Nodup
    decide
  have htime : field? (keptMembers c.members) "lastTransitionTime" timestamp =
      .ok (some c.lastTransitionTime) :=
    field?_keptMembers_some hn (by simp [members]) (timestamp_precise h)
  obtain ⟨message?, hmessage, hm⟩ : ∃ s?, field? (keptMembers c.members) "message" text = .ok s? ∧
      s?.getD "" = c.message := field?_nonemptyText hn (by simp [members, List.lookup_cons])
  obtain ⟨reason?, hreason, hr⟩ : ∃ s?, field? (keptMembers c.members) "reason" text = .ok s? ∧
      s?.getD "" = c.reason := field?_nonemptyText hn (by simp [members, List.lookup_cons])
  have hstatus : field? (keptMembers c.members) "status" ConditionStatus.ofJson =
      .ok (some c.status) :=
    field?_keptMembers_some hn (by simp [members, List.lookup_cons]; rfl) (by cases c.status <;> rfl)
  have htype : field? (keptMembers c.members) "type" text = .ok (some c.type) :=
    field?_keptMembers_some hn (by simp [members, List.lookup_cons]; rfl) rfl
  have hjson : c.toJson = .obj (keptMembers c.members) := rfl
  rw [hjson, ofJson, record, htime, hmessage, hreason, hstatus, htype]
  change Except.ok ({ c with message := message?.getD "", reason := reason?.getD "" } : Condition) = _
  rw [hm, hr]

theorem valid_of_ofJson {c : Condition} (h : Condition.ofJson x = .ok c) :
    c.lastTransitionTime.Valid := by
  refine of_record (P := fun c => c.lastTransitionTime.Valid) (fun fields c h => ?_) ?_ h
  · obtain ⟨time?, htime, h⟩ := bind_eq_ok.1 h
    iterate 6 obtain ⟨_, -, h⟩ := bind_eq_ok.1 h
    obtain ⟨time, hmissing, h⟩ := bind_eq_ok.1 h
    obtain rfl := Except.ok.inj h
    cases time? with
    | none => cases hmissing
    | some t =>
      obtain rfl := Except.ok.inj hmissing
      obtain ⟨_, -, hread⟩ := of_field?_eq_some htime
      exact valid_of_timestamp hread
  · refine gives_bind (gives_any _) fun _ _ => gives_bind (gives_any _) fun _ _ => ?_
    refine gives_bind (gives_any _) fun _ _ => gives_bind (gives_any _) fun _ _ => ?_
    exact gives_bind (gives_next fun _ _ => valid_of_timestamp) fun _ ht => gives_pure ht

end Condition

namespace Reference

def members (r : Reference) : List (String × Option Json) := [
  ("group", some (.str r.group)),
  ("kind", some (.str r.kind)),
  ("name", some (.str r.name)),
  ("namespace", r.namespaceName.map .str),
  ("version", some (.str r.version))]

theorem ofJson_toJson (r : Reference) : Reference.ofJson r.toJson = .ok r := by
  have hn : (r.members.map (·.1)).Nodup := by
    change ["group", "kind", "name", "namespace", "version"].Nodup
    decide
  have hgroup : field? (keptMembers r.members) "group" text = .ok (some r.group) :=
    field?_keptMembers_some hn (by simp [members]; rfl) rfl
  have hkind : field? (keptMembers r.members) "kind" text = .ok (some r.kind) :=
    field?_keptMembers_some hn (by simp [members, List.lookup_cons]; rfl) rfl
  have hname : field? (keptMembers r.members) "name" text = .ok (some r.name) :=
    field?_keptMembers_some hn (by simp [members, List.lookup_cons]; rfl) rfl
  obtain ⟨ns?, hnamespace, hns⟩ : ∃ ns?, field? (keptMembers r.members) "namespace" (option text) =
      .ok ns? ∧ ns?.join = r.namespaceName := field?_optional hn rfl fun _ _ => ⟨rfl, rfl⟩
  have hversion : field? (keptMembers r.members) "version" text = .ok (some r.version) :=
    field?_keptMembers_some hn (by simp [members, List.lookup_cons]; rfl) rfl
  have hjson : r.toJson = .obj (keptMembers r.members) := rfl
  rw [hjson, ofJson, record, hgroup, hkind, hname, hnamespace, hversion]
  change Except.ok ({ r with namespaceName := ns?.join } : Reference) = _
  rw [hns]

end Reference

namespace InstanceStatus

variable {fields : Dict Json} {s : InstanceStatus}

/-- A status is read field by field. -/
theorem ofJson_obj_iff : InstanceStatus.ofJson (.obj fields) = .ok s ↔
    (∃ c?, field? fields "conditions" (list Condition.ofJson) = .ok c? ∧ s.conditions = c?.getD []) ∧
    (∃ g?, field? fields "observedGeneration" (option int64) = .ok g? ∧
      s.observedGeneration = g?.join) ∧
    (∃ r?, field? fields "resources" (list Reference.ofJson) = .ok r? ∧ s.resources = r?.getD []) ∧
    ∃ v?, field? fields "version" (option text) = .ok v? ∧ s.version = v?.join := by
  constructor
  · intro h
    obtain ⟨c?, hc, h⟩ := bind_eq_ok.1 h
    obtain ⟨g?, hg, h⟩ := bind_eq_ok.1 h
    obtain ⟨r?, hr, h⟩ := bind_eq_ok.1 h
    obtain ⟨v?, hv, h⟩ := bind_eq_ok.1 h
    obtain rfl := Except.ok.inj h
    exact ⟨⟨c?, hc, rfl⟩, ⟨g?, hg, rfl⟩, ⟨r?, hr, rfl⟩, v?, hv, rfl⟩
  · rintro ⟨⟨c?, hc, hconditions⟩, ⟨g?, hg, hgeneration⟩, ⟨r?, hr, hresources⟩, v?, hv, hversion⟩
    rw [ofJson, record, hc, hg, hr, hv]
    change Except.ok (InstanceStatus.mk v?.join (r?.getD []) (c?.getD []) g?.join) = _
    rw [← hconditions, ← hgeneration, ← hresources, ← hversion]

def members (s : InstanceStatus) : List (String × Option Json) := [
  ("conditions", some (.arr (s.conditions.map Condition.toJson))),
  ("observedGeneration", s.observedGeneration.map .int),
  ("resources", nonemptyList s.resources Reference.toJson),
  ("version", s.version.map .str)]

/-- A status that is read back as it was written. -/
structure Storable (s : InstanceStatus) : Prop where
  times : ∀ c ∈ s.conditions, c.lastTransitionTime.Valid
  generation : ∀ g ∈ s.observedGeneration, -9223372036854775808 ≤ g ∧ g ≤ 9223372036854775807

/-- Whatever status was read can be stored again. -/
theorem storable_of_ofJson (h : InstanceStatus.ofJson x = .ok s) : s.Storable := by
  have hconditions : ∀ y cs, list Condition.ofJson y = .ok cs →
      ∀ c ∈ cs, c.lastTransitionTime.Valid := fun _ _ =>
    forall_mem_of_list fun _ _ => Condition.valid_of_ofJson
  have hgeneration : ∀ y g?, option int64 y = .ok g? →
      ∀ g ∈ g?, -9223372036854775808 ≤ g ∧ g ≤ 9223372036854775807 := by
    rintro y _ hread g rfl
    exact of_intWithin (of_option_eq_some hread)
  refine of_record (P := Storable) (fun fields s h => ?_) ?_ h
  · obtain ⟨⟨c?, hc, hcs⟩, ⟨g?, hg, hobserved⟩, -⟩ := ofJson_obj_iff.1 h
    refine ⟨?_, ?_⟩
    · rw [hcs]
      cases c? with
      | none => simp
      | some cs =>
        obtain ⟨_, -, hread⟩ := of_field?_eq_some hc
        exact hconditions _ _ hread
    · rw [hobserved]
      cases g? with
      | none => simp
      | some g? =>
        obtain ⟨_, -, hread⟩ := of_field?_eq_some hg
        exact hgeneration _ _ hread
  · refine gives_bind (gives_any _) fun _ _ => gives_bind (gives_any _) fun _ _ => ?_
    refine gives_bind (gives_nextOr (by simp) hconditions) fun _ htimes => ?_
    exact gives_bind (gives_nextOr (by simp) hgeneration) fun _ hbounds =>
      gives_pure ⟨htimes, hbounds⟩

theorem members_nodup (s : InstanceStatus) : (s.members.map (·.1)).Nodup := by
  change ["conditions", "observedGeneration", "resources", "version"].Nodup
  decide

/-- A status that can be stored is read back. -/
theorem ofJson_toJson (h : s.Storable) : InstanceStatus.ofJson s.toJson = .ok s := by
  have hn := s.members_nodup
  have hjson : s.toJson = .obj (keptMembers s.members) := rfl
  rw [hjson, ofJson_obj_iff]
  refine ⟨⟨some s.conditions, ?_, rfl⟩, ?_, ?_, ?_⟩
  · exact field?_keptMembers_some hn (x := .arr (s.conditions.map Condition.toJson)) rfl
      (items_map fun c hc => Condition.ofJson_toJson (h.times c hc))
  · obtain ⟨g??, hg, hgeneration⟩ : ∃ g??, field? (keptMembers s.members) "observedGeneration"
        (option int64) = .ok g?? ∧ g??.join = s.observedGeneration :=
      field?_optional hn rfl fun g hobserved =>
        ⟨rfl, by rw [int64, intWithin, if_pos (h.generation g hobserved)]⟩
    exact ⟨g??, hg, hgeneration.symm⟩
  · obtain ⟨r?, hr, hresources⟩ : ∃ r?, field? (keptMembers s.members) "resources"
        (list Reference.ofJson) = .ok r? ∧ r?.getD [] = s.resources :=
      field?_nonemptyList hn rfl fun r _ => Reference.ofJson_toJson r
    exact ⟨r?, hr, hresources.symm⟩
  · obtain ⟨v??, hv, hversion⟩ : ∃ v??, field? (keptMembers s.members) "version" (option text) =
        .ok v?? ∧ v??.join = s.version := field?_optional hn rfl fun _ _ => ⟨rfl, rfl⟩
    exact ⟨v??, hv, hversion.symm⟩

/-- What is stored once a status was merged into another: what it leaves out stays. -/
def onto (s stored : InstanceStatus) : InstanceStatus where
  version := s.version.or stored.version
  resources := if s.resources.isEmpty then stored.resources else s.resources
  conditions := s.conditions
  observedGeneration := s.observedGeneration.or stored.observedGeneration

theorem onto_version (s stored : InstanceStatus) :
    (s.onto stored).version = s.version.or stored.version := rfl

theorem onto_observedGeneration (s stored : InstanceStatus) :
    (s.onto stored).observedGeneration = s.observedGeneration.or stored.observedGeneration := rfl

theorem onto_eq_iff {stored : InstanceStatus} : s.onto stored = s ↔
    (s.version = none → stored.version = none) ∧ (s.resources = [] → stored.resources = []) ∧
      (s.observedGeneration = none → stored.observedGeneration = none) := by
  obtain ⟨version, resources, conditions, generation⟩ := s
  cases version <;> cases resources <;> cases generation <;> simp [onto]

/-- A status that is merged into another one takes the place of what it does not leave out. -/
theorem ofJson_patch {target : Json} {stored : InstanceStatus} (hs : s.Storable)
    (h : InstanceStatus.ofJson (.obj (target.asObj?.getD [])) = .ok stored) :
    ∃ fields, patch s.toJson target = .obj fields ∧
      InstanceStatus.ofJson (.obj fields) = .ok (s.onto stored) := by
  obtain ⟨-, ⟨g?, hg, hgeneration⟩, ⟨r?, hr, hresources⟩, v?, hv, hversion⟩ := ofJson_obj_iff.1 h
  have hn := s.members_nodup
  have hjson : s.toJson = .obj (keptMembers s.members) := rfl
  refine ⟨_, by rw [hjson, patch], ?_⟩
  rw [ofJson_obj_iff]
  refine ⟨⟨some s.conditions, ?_, rfl⟩, ?_, ?_, ?_⟩
  · exact field?_patch_some hn (x := .arr (s.conditions.map Condition.toJson)) (by simp [members])
      rfl rfl (items_map fun c hc => Condition.ofJson_toJson (hs.times c hc))
  · rw [onto_observedGeneration, hgeneration]
    refine field?_patch_option .int hn (by simp [members, List.lookup_cons])
      (fun g hobserved => ⟨rfl, rfl, ?_⟩) hg
    rw [int64, intWithin, if_pos (hs.generation g hobserved)]
  · cases happlied : s.resources with
    | nil =>
      refine ⟨r?, (field?_patch_none hn ?_).trans hr, by simp [onto, happlied, hresources]⟩
      simp [members, List.lookup_cons, happlied, nonemptyList]
    | cons r rs =>
      refine ⟨some (r :: rs), field?_patch_some hn (x := .arr ((r :: rs).map Reference.toJson)) ?_
        rfl rfl (items_map fun r _ => Reference.ofJson_toJson r), by simp [onto, happlied]⟩
      simp [members, List.lookup_cons, happlied, nonemptyList]
  · rw [onto_version, hversion]
    exact field?_patch_option .str hn (by simp [members, List.lookup_cons])
      (fun _ _ => ⟨rfl, rfl, rfl⟩) hv

end InstanceStatus

/-! ## Instances -/

theorem Instance.ofJson_obj_iff {fields : Dict Json} {i : Instance} :
    Instance.ofJson (.obj fields) = .ok i ↔
      field? fields "metadata" Metadata.ofJson = .ok (some i.metadata) ∧
      field? fields "spec" InstanceSpec.ofJson = .ok (some i.spec) ∧
      ∃ s?, field? fields "status" (option InstanceStatus.ofJson) = .ok s? ∧ i.status = s?.join := by
  constructor
  · intro h
    obtain ⟨m?, hm, h⟩ := bind_eq_ok.1 h
    obtain ⟨spec?, hspec, h⟩ := bind_eq_ok.1 h
    obtain ⟨s?, hs, h⟩ := bind_eq_ok.1 h
    obtain ⟨m, hm?, h⟩ := bind_eq_ok.1 h
    obtain ⟨spec, hspec?, h⟩ := bind_eq_ok.1 h
    obtain rfl := Except.ok.inj h
    obtain rfl := orMissing_eq_ok.1 hm?
    obtain rfl := orMissing_eq_ok.1 hspec?
    exact ⟨hm, hspec, s?, hs, rfl⟩
  · rintro ⟨hm, hspec, s?, hs, hstatus⟩
    rw [ofJson, record, hm, hspec, hs]
    change Except.ok (Instance.mk i.metadata i.spec s?.join) = _
    rw [← hstatus]

end ReleaseKeeper
