import ReleaseKeeper.Metadata
import ReleaseKeeper.Proofs.Timestamp
import ReleaseKeeper.Proofs.Typed.Members

/-!
# Metadata and its JSON

Metadata is read field by field (`Metadata.ofJson_obj_iff`), and all of it that was read can be
written: its times are points of the calendar, and its numbers fit (`Metadata.storable_of_ofJson`).
What was written is read back, its times to the second (`Metadata.ofJson_toJson`).
-/
namespace ReleaseKeeper

open Typed Typed.Reader Json

variable {x : Json}

/-! ## Times -/

theorem timestamp_precise {t : Timestamp} (h : t.Valid) : timestamp (.str t.precise) = .ok t := by
  rw [timestamp, Timestamp.read_precise h]
  rfl

theorem valid_of_timestamp {t : Timestamp} (h : timestamp x = .ok t) : t.Valid := by
  cases x with
  | str s =>
    rw [timestamp] at h
    cases hread : Timestamp.read s with
    | error flaw => rw [hread] at h; cases h
    | ok u =>
      rw [hread] at h
      obtain rfl := Except.ok.inj h
      exact Timestamp.valid_of_read hread
  | _ => cases h

def Timestamp.coarse (t : Timestamp) : Timestamp := { t with nanos := 0 }

theorem Timestamp.toSeconds_eq (t : Timestamp) : t.toSeconds = t.coarse.precise := by
  have hplaces : writePlaces 0 = [] := rfl
  rw [toSeconds, precise, coarse, hplaces, List.append_nil]
  rfl

theorem timestamp_toSeconds {t : Timestamp} (h : t.Valid) :
    timestamp (.str t.toSeconds) = .ok t.coarse := by
  have hcoarse : t.coarse.Valid := {
    told := h.told
    dated := ⟨h.dated.month, h.dated.day⟩
    timed := ⟨h.timed.hour, h.timed.minute, h.timed.second, Nat.zero_lt_succ _⟩ }
  rw [Timestamp.toSeconds_eq]
  exact timestamp_precise hcoarse

/-! ## Fields for which null stands for nothing -/

section
variable {α β : Type} {fields other : Dict Json} {name : String} {read : Typed.Reader α} {y : α}

theorem known?_congr (h : fields.lookup name = other.lookup name) :
    known? fields name read = known? other name read := by
  rw [known?, known?, field?_congr h]

theorem of_known?_eq_some (h : known? fields name read = .ok (some y)) : ∃ x, read x = .ok y := by
  obtain ⟨y??, hfield, hend⟩ := bind_eq_ok.1 h
  obtain rfl := Option.join_eq_some_iff.1 (Except.ok.inj hend)
  obtain ⟨x, -, hread⟩ := of_field?_eq_some hfield
  exact ⟨x, of_option_eq_some hread⟩

theorem not_null_of_known? {x : Json} (h : known? fields name .ok = .ok (some x)) :
    x.isNull = false := by
  obtain ⟨y??, hfield, hend⟩ := bind_eq_ok.1 h
  obtain rfl := Option.join_eq_some_iff.1 (Except.ok.inj hend)
  obtain ⟨y, -, hread⟩ := of_field?_eq_some hfield
  cases y with
  | null => cases hread
  | _ =>
    obtain rfl := Option.some.inj (Except.ok.inj hread)
    rfl

/-- What holds of all that a reader answers with holds of a field that was read. -/
theorem forall_of_known? {P : α → Prop} {y? : Option α} (hread : ∀ x y, read x = .ok y → P y)
    (h : known? fields name read = .ok y?) : ∀ y ∈ y?, P y := by
  rintro y rfl
  obtain ⟨x, hx⟩ := of_known?_eq_some h
  exact hread x y hx

variable {members : List (String × Option Json)} {write : β → Json} {f : β → α}

/-- A field that was written, unless it was left out, is read as what its value is read as. -/
theorem known?_written {y? : Option β} (hn : (members.map (·.1)).Nodup)
    (h : (members.lookup name).join = y?.map write)
    (hwrite : ∀ y ∈ y?, (write y).isNull = false ∧ read (write y) = .ok (f y)) :
    known? (keptMembers members) name read = .ok (y?.map f) := by
  cases y? with
  | none =>
    rw [known?, field?_keptMembers_none hn h]
    rfl
  | some y =>
    obtain ⟨hnull, hread⟩ := hwrite y rfl
    rw [known?, field?_keptMembers_some hn h (option_eq_some hnull hread)]
    rfl

theorem known?_kept {write : α → Json} {y? : Option α} (hn : (members.map (·.1)).Nodup)
    (h : (members.lookup name).join = y?.map write)
    (hwrite : ∀ y ∈ y?, (write y).isNull = false ∧ read (write y) = .ok y) :
    known? (keptMembers members) name read = .ok y? := by
  have hread : known? (keptMembers members) name read = .ok (y?.map id) := known?_written hn h hwrite
  rwa [Option.map_id] at hread

theorem known?_text {s? : Option String} (hn : (members.map (·.1)).Nodup)
    (h : (members.lookup name).join = s?.map .str) :
    known? (keptMembers members) name text = .ok s? :=
  known?_kept hn h fun _ _ => ⟨rfl, rfl⟩

theorem known?_bool {b? : Option Bool} (hn : (members.map (·.1)).Nodup)
    (h : (members.lookup name).join = b?.map .bool) :
    known? (keptMembers members) name bool = .ok b? :=
  known?_kept hn h fun _ _ => ⟨rfl, rfl⟩

theorem known?_int64 {n? : Option Int} (hn : (members.map (·.1)).Nodup)
    (h : (members.lookup name).join = n?.map .int)
    (hfits : ∀ n ∈ n?, -9223372036854775808 ≤ n ∧ n ≤ 9223372036854775807) :
    known? (keptMembers members) name int64 = .ok n? := by
  refine known?_kept hn h fun n hmem => ⟨rfl, ?_⟩
  rw [int64, intWithin, if_pos (hfits n hmem)]

theorem known?_timestamp {t? : Option Timestamp} (hn : (members.map (·.1)).Nodup)
    (h : (members.lookup name).join = t?.map fun t => .str t.toSeconds)
    (hvalid : ∀ t ∈ t?, t.Valid) :
    known? (keptMembers members) name timestamp = .ok (t?.map Timestamp.coarse) :=
  known?_written hn h fun t hmem => ⟨rfl, timestamp_toSeconds (hvalid t hmem)⟩

theorem known?_texts {d? : Option (Dict String)} (hn : (members.map (·.1)).Nodup)
    (h : (members.lookup name).join = d?.map .ofTexts) :
    known? (keptMembers members) name (dict text) = .ok d? := by
  have htext : ∀ s, text (.str s) = .ok s := fun _ => rfl
  exact known?_kept hn h fun d _ => ⟨rfl, entries_map htext d⟩

end

/-! ## Parts of metadata -/

namespace OwnerReference

def members (r : OwnerReference) : List (String × Option Json) := [
  ("apiVersion", some (.str r.apiVersion)),
  ("blockOwnerDeletion", r.blockOwnerDeletion.map .bool),
  ("controller", r.controller.map .bool),
  ("kind", some (.str r.kind)),
  ("name", some (.str r.name)),
  ("uid", some (.str r.uid))]

theorem ofJson_toJson (r : OwnerReference) : OwnerReference.ofJson r.toJson = .ok r := by
  have hn : (r.members.map (·.1)).Nodup := by
    change ["apiVersion", "blockOwnerDeletion", "controller", "kind", "name", "uid"].Nodup
    decide
  have hversion : known? (keptMembers r.members) "apiVersion" text = .ok (some r.apiVersion) :=
    known?_text hn (by simp [members])
  have hblock : known? (keptMembers r.members) "blockOwnerDeletion" bool =
      .ok r.blockOwnerDeletion := known?_bool hn (by simp [members, List.lookup_cons])
  have hcontroller : known? (keptMembers r.members) "controller" bool = .ok r.controller :=
    known?_bool hn (by simp [members, List.lookup_cons])
  have hkind : known? (keptMembers r.members) "kind" text = .ok (some r.kind) :=
    known?_text hn (by simp [members, List.lookup_cons])
  have hname : known? (keptMembers r.members) "name" text = .ok (some r.name) :=
    known?_text hn (by simp [members, List.lookup_cons])
  have huid : known? (keptMembers r.members) "uid" text = .ok (some r.uid) :=
    known?_text hn (by simp [members, List.lookup_cons])
  have hjson : r.toJson = .obj (keptMembers r.members) := rfl
  rw [hjson, ofJson, platformRecord, hversion, hblock, hcontroller, hkind, hname, huid]
  rfl

end OwnerReference

namespace ManagedFields

def members (m : ManagedFields) : List (String × Option Json) := [
  ("apiVersion", m.apiVersion.map .str),
  ("fieldsType", m.fieldsType.map .str),
  ("fieldsV1", m.fieldsV1),
  ("manager", m.manager.map .str),
  ("operation", m.operation.map .str),
  ("subresource", m.subresource.map .str),
  ("time", m.time.map fun t => .str t.toSeconds)]

/-- An entry that is read back as it was written. -/
structure Storable (m : ManagedFields) : Prop where
  fields : ∀ x ∈ m.fieldsV1, x.isNull = false
  time : ∀ t ∈ m.time, t.Valid

def coarse (m : ManagedFields) : ManagedFields := { m with time := m.time.map Timestamp.coarse }

theorem ofJson_toJson {m : ManagedFields} (h : m.Storable) :
    ManagedFields.ofJson m.toJson = .ok m.coarse := by
  have hn : (m.members.map (·.1)).Nodup := by
    change ["apiVersion", "fieldsType", "fieldsV1", "manager", "operation", "subresource",
      "time"].Nodup
    decide
  have hversion : known? (keptMembers m.members) "apiVersion" text = .ok m.apiVersion :=
    known?_text hn (by simp [members])
  have htype : known? (keptMembers m.members) "fieldsType" text = .ok m.fieldsType :=
    known?_text hn (by simp [members, List.lookup_cons])
  have hset : (m.members.lookup "fieldsV1").join = m.fieldsV1.map id := by
    simp [members, List.lookup_cons]
  have hfields : known? (keptMembers m.members) "fieldsV1" .ok = .ok m.fieldsV1 :=
    known?_kept hn hset fun x hx => ⟨h.fields x hx, rfl⟩
  have hmanager : known? (keptMembers m.members) "manager" text = .ok m.manager :=
    known?_text hn (by simp [members, List.lookup_cons])
  have hoperation : known? (keptMembers m.members) "operation" text = .ok m.operation :=
    known?_text hn (by simp [members, List.lookup_cons])
  have hsubresource : known? (keptMembers m.members) "subresource" text = .ok m.subresource :=
    known?_text hn (by simp [members, List.lookup_cons])
  have htime : known? (keptMembers m.members) "time" timestamp =
      .ok (m.time.map Timestamp.coarse) :=
    known?_timestamp hn (by simp [members, List.lookup_cons]) h.time
  have hjson : m.toJson = .obj (keptMembers m.members) := rfl
  rw [hjson, ofJson, platformRecord, hversion, htype, hfields, hmanager, hoperation, hsubresource,
    htime]
  rfl

theorem storable_of_ofJson {m : ManagedFields} (h : ManagedFields.ofJson x = .ok m) :
    m.Storable := by
  cases x with
  | obj fields =>
    obtain ⟨_, -, h⟩ := bind_eq_ok.1 h
    obtain ⟨_, -, h⟩ := bind_eq_ok.1 h
    obtain ⟨fieldsV1, hfields, h⟩ := bind_eq_ok.1 h
    obtain ⟨_, -, h⟩ := bind_eq_ok.1 h
    obtain ⟨_, -, h⟩ := bind_eq_ok.1 h
    obtain ⟨_, -, h⟩ := bind_eq_ok.1 h
    obtain ⟨time, htime, h⟩ := bind_eq_ok.1 h
    obtain rfl := Except.ok.inj h
    refine ⟨?_, forall_of_known? (fun _ _ => valid_of_timestamp) htime⟩
    rintro y rfl
    exact not_null_of_known? hfields
  | _ => cases h

end ManagedFields

namespace Metadata

/-- Metadata is read field by field. -/
theorem ofJson_obj_iff {fields : Dict Json} {m : Metadata} : Metadata.ofJson (.obj fields) = .ok m ↔
    known? fields "annotations" (dict text) = .ok m.annotations ∧
    known? fields "creationTimestamp" timestamp = .ok m.creationTimestamp ∧
    known? fields "deletionGracePeriodSeconds" int64 = .ok m.deletionGracePeriodSeconds ∧
    known? fields "deletionTimestamp" timestamp = .ok m.deletionTimestamp ∧
    known? fields "finalizers" (list text) = .ok m.finalizers ∧
    known? fields "generateName" text = .ok m.generateName ∧
    known? fields "generation" int64 = .ok m.generation ∧
    known? fields "labels" (dict text) = .ok m.labels ∧
    known? fields "managedFields" (list ManagedFields.ofJson) = .ok m.managedFields ∧
    known? fields "name" text = .ok m.name ∧
    known? fields "namespace" text = .ok m.namespaceName ∧
    known? fields "ownerReferences" (list OwnerReference.ofJson) = .ok m.ownerReferences ∧
    known? fields "resourceVersion" text = .ok m.resourceVersion ∧
    known? fields "selfLink" text = .ok m.selfLink ∧
    known? fields "uid" text = .ok m.uid := by
  constructor
  · intro h
    obtain ⟨_, hannotations, h⟩ := bind_eq_ok.1 h
    obtain ⟨_, hcreation, h⟩ := bind_eq_ok.1 h
    obtain ⟨_, hgrace, h⟩ := bind_eq_ok.1 h
    obtain ⟨_, hdeletion, h⟩ := bind_eq_ok.1 h
    obtain ⟨_, hfinalizers, h⟩ := bind_eq_ok.1 h
    obtain ⟨_, hgenerate, h⟩ := bind_eq_ok.1 h
    obtain ⟨_, hgeneration, h⟩ := bind_eq_ok.1 h
    obtain ⟨_, hlabels, h⟩ := bind_eq_ok.1 h
    obtain ⟨_, hmanaged, h⟩ := bind_eq_ok.1 h
    obtain ⟨_, hname, h⟩ := bind_eq_ok.1 h
    obtain ⟨_, hnamespace, h⟩ := bind_eq_ok.1 h
    obtain ⟨_, howners, h⟩ := bind_eq_ok.1 h
    obtain ⟨_, hversion, h⟩ := bind_eq_ok.1 h
    obtain ⟨_, hlink, h⟩ := bind_eq_ok.1 h
    obtain ⟨_, huid, h⟩ := bind_eq_ok.1 h
    obtain rfl := Except.ok.inj h
    exact ⟨hannotations, hcreation, hgrace, hdeletion, hfinalizers, hgenerate, hgeneration, hlabels,
      hmanaged, hname, hnamespace, howners, hversion, hlink, huid⟩
  · rintro ⟨hannotations, hcreation, hgrace, hdeletion, hfinalizers, hgenerate, hgeneration, hlabels,
      hmanaged, hname, hnamespace, howners, hversion, hlink, huid⟩
    rw [ofJson, platformRecord, hannotations, hcreation, hgrace, hdeletion, hfinalizers, hgenerate,
      hgeneration, hlabels, hmanaged, hname, hnamespace, howners, hversion, hlink, huid]
    rfl

/-- Only what the members are matters, not where they stand. -/
theorem ofJson_congr {fields other : Dict Json}
    (h : ∀ name, fields.lookup name = other.lookup name) :
    Metadata.ofJson (.obj fields) = Metadata.ofJson (.obj other) := by
  have hknown : ∀ {α : Type} (name : String) (read : Typed.Reader α),
      known? fields name read = known? other name read := fun name read => known?_congr (h name)
  simp only [ofJson, platformRecord, hknown]

/-- Metadata that is read back as it was written. -/
structure Storable (m : Metadata) : Prop where
  creation : ∀ t ∈ m.creationTimestamp, t.Valid
  gracePeriod : ∀ n ∈ m.deletionGracePeriodSeconds,
    -9223372036854775808 ≤ n ∧ n ≤ 9223372036854775807
  deletion : ∀ t ∈ m.deletionTimestamp, t.Valid
  generation : ∀ n ∈ m.generation, -9223372036854775808 ≤ n ∧ n ≤ 9223372036854775807
  managed : ∀ ms ∈ m.managedFields, ∀ f ∈ ms, f.Storable

/-- Metadata with its times to the second. -/
def coarse (m : Metadata) : Metadata := { m with
  creationTimestamp := m.creationTimestamp.map Timestamp.coarse
  deletionTimestamp := m.deletionTimestamp.map Timestamp.coarse
  managedFields := m.managedFields.map (·.map ManagedFields.coarse) }

theorem storable_of_ofJson {m : Metadata} (h : Metadata.ofJson x = .ok m) : m.Storable := by
  cases x with
  | obj fields =>
    obtain ⟨-, hcreation, hgrace, hdeletion, -, -, hgeneration, -, hmanaged, -⟩ := ofJson_obj_iff.1 h
    exact {
      creation := forall_of_known? (fun _ _ => valid_of_timestamp) hcreation
      gracePeriod := forall_of_known? (fun _ _ => of_intWithin) hgrace
      deletion := forall_of_known? (fun _ _ => valid_of_timestamp) hdeletion
      generation := forall_of_known? (fun _ _ => of_intWithin) hgeneration
      managed := forall_of_known?
        (fun _ _ => forall_mem_of_list fun _ _ => ManagedFields.storable_of_ofJson) hmanaged }
  | _ => cases h

def members (m : Metadata) : List (String × Option Json) := [
  ("annotations", m.annotations.map .ofTexts),
  ("creationTimestamp", m.creationTimestamp.map fun t => .str t.toSeconds),
  ("deletionGracePeriodSeconds", m.deletionGracePeriodSeconds.map .int),
  ("deletionTimestamp", m.deletionTimestamp.map fun t => .str t.toSeconds),
  ("finalizers", m.finalizers.map fun fs => .arr (fs.map .str)),
  ("generateName", m.generateName.map .str),
  ("generation", m.generation.map .int),
  ("labels", m.labels.map .ofTexts),
  ("managedFields", m.managedFields.map fun ms => .arr (ms.map ManagedFields.toJson)),
  ("name", m.name.map .str),
  ("namespace", m.namespaceName.map .str),
  ("ownerReferences", m.ownerReferences.map fun rs => .arr (rs.map OwnerReference.toJson)),
  ("resourceVersion", m.resourceVersion.map .str),
  ("selfLink", m.selfLink.map .str),
  ("uid", m.uid.map .str)]

theorem members_nodup (m : Metadata) : (m.members.map (·.1)).Nodup := by
  change ["annotations", "creationTimestamp", "deletionGracePeriodSeconds", "deletionTimestamp",
    "finalizers", "generateName", "generation", "labels", "managedFields", "name", "namespace",
    "ownerReferences", "resourceVersion", "selfLink", "uid"].Nodup
  decide

/-- **Metadata that was written is read back**, its times to the second. -/
theorem ofJson_toJson {m : Metadata} (h : m.Storable) : Metadata.ofJson m.toJson = .ok m.coarse := by
  have hn := m.members_nodup
  have hjson : m.toJson = .obj (keptMembers m.members) := rfl
  have hfinalizers : (m.members.lookup "finalizers").join =
      m.finalizers.map fun fs => .arr (fs.map .str) := by simp [members, List.lookup_cons]
  have hmanaged : (m.members.lookup "managedFields").join =
      m.managedFields.map fun ms => .arr (ms.map ManagedFields.toJson) := by
    simp [members, List.lookup_cons]
  have howners : (m.members.lookup "ownerReferences").join =
      m.ownerReferences.map fun rs => .arr (rs.map OwnerReference.toJson) := by
    simp [members, List.lookup_cons]
  rw [hjson, ofJson_obj_iff]
  refine ⟨?_, ?_, ?_, ?_, ?_, ?_, ?_, ?_, ?_, ?_, ?_, ?_, ?_, ?_, ?_⟩
  · exact known?_texts hn (by simp [members, coarse])
  · exact known?_timestamp hn (by simp [members, List.lookup_cons]) h.creation
  · exact known?_int64 hn (by simp [members, coarse, List.lookup_cons]) h.gracePeriod
  · exact known?_timestamp hn (by simp [members, List.lookup_cons]) h.deletion
  · refine known?_kept hn hfinalizers fun fs _ => ⟨rfl, ?_⟩
    exact items_map fun _ _ => rfl
  · exact known?_text hn (by simp [members, coarse, List.lookup_cons])
  · exact known?_int64 hn (by simp [members, coarse, List.lookup_cons]) h.generation
  · exact known?_texts hn (by simp [members, coarse, List.lookup_cons])
  · refine known?_written hn hmanaged fun ms hms => ⟨rfl, ?_⟩
    exact items_written fun f hf => ManagedFields.ofJson_toJson (h.managed ms hms f hf)
  · exact known?_text hn (by simp [members, coarse, List.lookup_cons])
  · exact known?_text hn (by simp [members, coarse, List.lookup_cons])
  · refine known?_kept hn howners fun rs _ => ⟨rfl, ?_⟩
    exact items_map fun r _ => OwnerReference.ofJson_toJson r
  · exact known?_text hn (by simp [members, coarse, List.lookup_cons])
  · exact known?_text hn (by simp [members, coarse, List.lookup_cons])
  · exact known?_text hn (by simp [members, coarse, List.lookup_cons])

/-- Metadata that was written and then given a version is read. -/
theorem Storable.ofJson_versioned {m : Metadata} (h : m.Storable) (v : String) :
    Metadata.ofJson (.obj (Table.put "resourceVersion" (.str v) (keptMembers m.members))) =
      .ok (coarse { m with resourceVersion := some v }) := by
  have hstorable : Storable { m with resourceVersion := some v } :=
    ⟨h.creation, h.gracePeriod, h.deletion, h.generation, h.managed⟩
  have hjson : toJson { m with resourceVersion := some v } =
      .obj (keptMembers (members { m with resourceVersion := some v })) := rfl
  rw [← ofJson_toJson hstorable, hjson]
  refine ofJson_congr fun name => ?_
  rw [Table.lookup_put, lookup_keptMembers m.members_nodup, lookup_keptMembers (members_nodup _)]
  split
  · next hname => simp [hname, members, List.lookup_cons]
  · next hname => simp [members, List.lookup_cons, beq_false_of_ne hname]

end Metadata

end ReleaseKeeper
