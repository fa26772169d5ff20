import ReleaseKeeper.Proofs.Json.Forms
import ReleaseKeeper.Proofs.Metadata

/-!
# Metadata that stays as it is

Metadata goes through a typed form, which keeps what it knows and nothing else. So it is written as it
was read exactly if it has known members only, none of them null, its times are whole seconds in UTC, and
its owner references and managed fields are of that kind too (`Metadata.retains`).
-/
namespace ReleaseKeeper

open Typed Typed.Reader Json

variable {α : Type} {read : Typed.Reader α} {write : α → Json} {form : Json → Prop}
  {fields : Dict Json} {name : String}

/-- The text of a point in time in whole seconds. -/
def InSeconds (x : Json) : Prop := ∃ t : Timestamp, t.Valid ∧ x = .str t.toSeconds

def OwnerReference.forms : Forms := [("apiVersion", Required Given),
  ("blockOwnerDeletion", Optional Given), ("controller", Optional Given), ("kind", Required Given),
  ("name", Required Given), ("uid", Required Given)]

def ManagedFields.forms : Forms := [("apiVersion", Optional Given), ("fieldsType", Optional Given),
  ("fieldsV1", Optional Given), ("manager", Optional Given), ("operation", Optional Given),
  ("subresource", Optional Given), ("time", Optional InSeconds)]

def Metadata.forms : Forms := [("annotations", Optional Given), ("creationTimestamp", Optional InSeconds),
  ("deletionGracePeriodSeconds", Optional Given), ("deletionTimestamp", Optional InSeconds),
  ("finalizers", Optional (ListOf Given)), ("generateName", Optional Given), ("generation", Optional Given),
  ("labels", Optional Given), ("managedFields", Optional (ListOf (Record ManagedFields.forms))),
  ("name", Optional Given), ("namespace", Optional Given),
  ("ownerReferences", Optional (ListOf (Record OwnerReference.forms))),
  ("resourceVersion", Optional Given), ("selfLink", Optional Given), ("uid", Optional Given)]

/-! ## Single values -/

/-- Of what can be read, the values of a form and no others are written as they were read. -/
def Retains (read : Typed.Reader α) (write : α → Json) (form : Json → Prop) : Prop :=
  ∀ x y, read x = .ok y → (write y = x ↔ form x)

theorem retains_text : Retains text .str Given := by
  intro x y h
  cases x with
  | str s =>
    obtain rfl := Except.ok.inj h
    exact iff_of_true rfl rfl
  | _ => cases h

theorem retains_bool : Retains bool .bool Given := by
  intro x y h
  cases x with
  | bool b =>
    obtain rfl := Except.ok.inj h
    exact iff_of_true rfl rfl
  | _ => cases h

theorem retains_int64 : Retains int64 .int Given := by
  intro x y h
  cases x with
  | int n =>
    rw [int64, intWithin] at h
    split at h
    · obtain rfl := Except.ok.inj h
      exact iff_of_true rfl rfl
    · cases h
  | _ => cases h

theorem retains_timestamp : Retains timestamp (fun t => .str t.toSeconds) InSeconds := by
  intro x t h
  refine ⟨fun heq => ⟨t, valid_of_timestamp h, heq.symm⟩, ?_⟩
  rintro ⟨u, hu, rfl⟩
  obtain rfl := Except.ok.inj ((timestamp_toSeconds hu).symm.trans h)
  have hcoarse : u.coarse.toSeconds = u.toSeconds := by
    rw [Timestamp.toSeconds_eq, Timestamp.toSeconds_eq]
    rfl
  exact congrArg Json.str hcoarse

theorem map_of_entries : ∀ {members : Dict Json} {ys : Dict String},
    entries text members = .ok ys → ys.map (fun e => (e.1, Json.str e.2)) = members
  | [], _, h => by
    obtain rfl := Except.ok.inj h
    rfl
  | (k, x) :: rest, _, h => by
    obtain ⟨y, hy, h⟩ := bind_eq_ok.1 h
    obtain ⟨ys, hys, hend⟩ := bind_eq_ok.1 h
    obtain rfl := Except.ok.inj hend
    cases x with
    | str s =>
      obtain rfl := Except.ok.inj hy
      rw [List.map_cons, map_of_entries hys]
    | _ => cases hy

theorem retains_texts : Retains (dict text) .ofTexts Given := by
  intro x ys h
  cases x with
  | obj members => exact iff_of_true (congrArg Json.obj (map_of_entries h)) rfl
  | _ => cases h

theorem map_eq_iff_of_items (h : Retains read write form) : ∀ {xs : List Json} {ys : List α},
    items read xs = .ok ys → (ys.map write = xs ↔ ∀ x ∈ xs, form x)
  | [], _, hread => by
    obtain rfl := Except.ok.inj hread
    simp
  | x :: xs, _, hread => by
    obtain ⟨y, hy, hread⟩ := bind_eq_ok.1 hread
    obtain ⟨ys, hys, hend⟩ := bind_eq_ok.1 hread
    obtain rfl := Except.ok.inj hend
    rw [List.map_cons, List.cons.injEq, List.forall_mem_cons, h x y hy, map_eq_iff_of_items h hys]

theorem retains_list (h : Retains read write form) :
    Retains (list read) (fun ys => .arr (ys.map write)) (ListOf form) := by
  intro x ys hread
  cases x with
  | arr xs =>
    rw [Json.arr.injEq, map_eq_iff_of_items h hread]
    exact ⟨fun hall => ⟨xs, rfl, hall⟩, fun ⟨_, heq, hall⟩ => Json.arr.inj heq ▸ hall⟩
  | _ => cases hread

/-! ## Members -/

/-- A member that is absent or null is read as nothing. -/
theorem known?_cases {y? : Option α} (h : known? fields name read = .ok y?) :
    (fields.lookup name = none ∧ y? = none) ∨ (fields.lookup name = some .null ∧ y? = none) ∨
      ∃ x y, fields.lookup name = some x ∧ x.isNull = false ∧ read x = .ok y ∧ y? = some y := by
  obtain ⟨y??, hfield, hend⟩ := bind_eq_ok.1 h
  obtain rfl : y??.join = y? := Except.ok.inj hend
  rw [field?] at hfield
  cases hx : fields.lookup name with
  | none =>
    rw [hx] at hfield
    obtain rfl := Except.ok.inj hfield
    exact .inl ⟨rfl, rfl⟩
  | some x =>
    rw [hx] at hfield
    obtain ⟨y?, hread, rfl⟩ := map_eq_ok.1 hfield
    cases x with
    | null =>
      obtain rfl := Except.ok.inj hread
      exact .inr (.inl ⟨rfl, rfl⟩)
    | _ =>
      obtain ⟨y, hy, rfl⟩ := map_eq_ok.1 hread
      exact .inr (.inr ⟨_, y, rfl, rfl, hy, rfl⟩)

/-- A member is written as it was read, or left out, exactly if it was of the form, or absent. -/
theorem map_write_eq_iff {y? : Option α} (hnull : ¬ form .null)
    (h : known? fields name read = .ok y?)
    (hform : ∀ x y, x.isNull = false → read x = .ok y → (write y = x ↔ form x)) :
    y?.map write = fields.lookup name ↔ Optional form (fields.lookup name) := by
  obtain ⟨hx, rfl⟩ | ⟨hx, rfl⟩ | ⟨x, y, hx, hgiven, hread, rfl⟩ := known?_cases h
  · rw [hx]
    exact iff_of_true rfl nofun
  · rw [hx]
    exact iff_of_false nofun fun hnone => hnull (hnone _ rfl)
  · rw [hx, Option.map_some, Option.some.injEq, hform x y hgiven hread]
    exact ⟨fun h => by rintro _ ⟨⟩; exact h, fun h => h x rfl⟩

theorem Retains.known? {y? : Option α} (hretains : Retains read write form) (hnull : ¬ form .null)
    (h : known? fields name read = .ok y?) :
    y?.map write = fields.lookup name ↔ Optional form (fields.lookup name) :=
  map_write_eq_iff hnull h fun x y _ => hretains x y

/-- A text that is written in any case has to be there. -/
theorem text_eq_iff {s? : Option String} (h : known? fields name text = .ok s?) :
    some (.str (s?.getD "")) = fields.lookup name ↔ Required Given (fields.lookup name) := by
  obtain ⟨hx, rfl⟩ | ⟨hx, rfl⟩ | ⟨x, s, hx, hgiven, hread, rfl⟩ := known?_cases h
  · rw [hx]
    exact iff_of_false nofun (by rintro ⟨_, ⟨⟩, -⟩)
  · rw [hx]
    exact iff_of_false nofun (by rintro ⟨_, ⟨⟩, ⟨⟩⟩)
  · rw [hx, Option.some.injEq, Option.getD_some, retains_text x s hread]
    exact ⟨fun h => ⟨x, rfl, h⟩, fun _ => hgiven⟩

/-- A record is written as it was read exactly if its members are. -/
theorem obj_eq_iff {members : List (String × Option Json)} {forms : Forms}
    (hm : (members.map (·.1)).Pairwise (· < ·))
    (h : List.Forall₂ (fun m f => m.1 = f.1 ∧ (m.2 = fields.lookup f.1 ↔ f.2 (fields.lookup f.1)))
      members forms) :
    Json.obj (keptMembers members) = .obj fields ↔ Record forms (.obj fields) := by
  rw [Json.obj.injEq, keptMembers_eq_iff hm h]
  exact ⟨fun h => ⟨fields, rfl, h⟩, fun ⟨_, heq, h⟩ => Json.obj.inj heq ▸ h⟩

theorem optional_map {y? : Option α} (h : ∀ y ∈ y?, form (write y)) : Optional form (y?.map write) := by
  intro x hx
  obtain ⟨y, hy, rfl⟩ := Option.map_eq_some_iff.1 hx
  exact h y hy

/-! ## Parts of metadata -/

theorem not_given_null : ¬ Given .null := nofun

theorem not_inSeconds_null : ¬ InSeconds .null := by
  rintro ⟨_, -, h⟩
  injection h

theorem not_listOf_null : ¬ ListOf form .null := nofun

theorem respectsSame_inSeconds : RespectsSame InSeconds := by
  rintro _ y hsame ⟨t, ht, rfl⟩
  exact ⟨t, ht, exact_str _ y (by rwa [same_comm])⟩

namespace OwnerReference

theorem members_sorted (r : OwnerReference) : (r.members.map (·.1)).Pairwise (· < ·) := by
  change ["apiVersion", "blockOwnerDeletion", "controller", "kind", "name", "uid"].Pairwise (· < ·)
  decide

/-- An owner reference is written as it was read if nothing of it is unknown, null or missing. -/
theorem retains : Retains OwnerReference.ofJson toJson (Record forms) := by
  intro x r h
  cases x with
  | obj fields =>
    obtain ⟨apiVersion?, hversion, h⟩ := bind_eq_ok.1 h
    obtain ⟨block?, hblock, h⟩ := bind_eq_ok.1 h
    obtain ⟨controller?, hcontroller, h⟩ := bind_eq_ok.1 h
    obtain ⟨kind?, hkind, h⟩ := bind_eq_ok.1 h
    obtain ⟨name?, hname, h⟩ := bind_eq_ok.1 h
    obtain ⟨uid?, huid, h⟩ := bind_eq_ok.1 h
    obtain rfl := Except.ok.inj h
    refine obj_eq_iff (members_sorted _) ?_
    refine .cons ⟨rfl, text_eq_iff hversion⟩ (.cons ⟨rfl, retains_bool.known? not_given_null hblock⟩ ?_)
    refine .cons ⟨rfl, retains_bool.known? not_given_null hcontroller⟩ (.cons ⟨rfl, text_eq_iff hkind⟩ ?_)
    exact .cons ⟨rfl, text_eq_iff hname⟩ (.cons ⟨rfl, text_eq_iff huid⟩ .nil)
  | _ => cases h

theorem respectsSame_record : RespectsSame (Record forms) := by
  have hoptional := respectsSame_optional respectsSame_given
  have hrequired := respectsSame_required respectsSame_given
  refine Json.respectsSame_record ?_
  simp only [forms, List.forall_mem_cons, List.not_mem_nil, false_imp_iff, implies_true, and_true,
    hoptional, hrequired]

theorem record_toJson (r : OwnerReference) : Record forms r.toJson := by
  have hsome : ∀ {x : Json}, x.isNull = false → Required Given (some x) := fun h => ⟨_, rfl, h⟩
  refine ⟨keptMembers r.members, rfl, formed_keptMembers r.members_sorted ?_⟩
  refine .cons ⟨rfl, hsome rfl⟩ (.cons ⟨rfl, optional_map fun _ _ => rfl⟩ ?_)
  refine .cons ⟨rfl, optional_map fun _ _ => rfl⟩ (.cons ⟨rfl, hsome rfl⟩ ?_)
  exact .cons ⟨rfl, hsome rfl⟩ (.cons ⟨rfl, hsome rfl⟩ .nil)

end OwnerReference

namespace ManagedFields

theorem members_sorted (m : ManagedFields) : (m.members.map (·.1)).Pairwise (· < ·) := by
  change ["apiVersion", "fieldsType", "fieldsV1", "manager", "operation", "subresource",
    "time"].Pairwise (· < ·)
  decide

/-- An entry is written as it was read if nothing of it is unknown or null and its time is in seconds. -/
theorem retains : Retains ManagedFields.ofJson toJson (Record forms) := by
  intro x m h
  cases x with
  | obj fields =>
    obtain ⟨apiVersion?, hversion, h⟩ := bind_eq_ok.1 h
    obtain ⟨type?, htype, h⟩ := bind_eq_ok.1 h
    obtain ⟨fields?, hfields, h⟩ := bind_eq_ok.1 h
    obtain ⟨manager?, hmanager, h⟩ := bind_eq_ok.1 h
    obtain ⟨operation?, hoperation, h⟩ := bind_eq_ok.1 h
    obtain ⟨subresource?, hsubresource, h⟩ := bind_eq_ok.1 h
    obtain ⟨time?, htime, h⟩ := bind_eq_ok.1 h
    obtain rfl := Except.ok.inj h
    have hset : fields?.map id = fields.lookup "fieldsV1" ↔
        Optional Given (fields.lookup "fieldsV1") :=
      map_write_eq_iff not_given_null hfields fun x y hx hread =>
        iff_of_true (Except.ok.inj hread).symm hx
    rw [Option.map_id] at hset
    have htext : ∀ {name : String} {s? : Option String}, known? fields name text = .ok s? →
        (s?.map .str = fields.lookup name ↔ Optional Given (fields.lookup name)) :=
      retains_text.known? not_given_null
    refine obj_eq_iff (members_sorted _) ?_
    refine .cons ⟨rfl, htext hversion⟩ (.cons ⟨rfl, htext htype⟩ (.cons ⟨rfl, hset⟩ ?_))
    refine .cons ⟨rfl, htext hmanager⟩ (.cons ⟨rfl, htext hoperation⟩ (.cons ⟨rfl, htext hsubresource⟩ ?_))
    exact .cons ⟨rfl, retains_timestamp.known? not_inSeconds_null htime⟩ .nil
  | _ => cases h

theorem respectsSame_record : RespectsSame (Record forms) := by
  have hgiven := respectsSame_optional respectsSame_given
  have htime := respectsSame_optional respectsSame_inSeconds
  refine Json.respectsSame_record ?_
  simp only [forms, List.forall_mem_cons, List.not_mem_nil, false_imp_iff, implies_true, and_true,
    hgiven, htime]

theorem record_toJson {m : ManagedFields} (h : m.Storable) : Record forms m.toJson := by
  have htext : ∀ s? : Option String, Optional Given (s?.map .str) := fun _ =>
    optional_map fun _ _ => rfl
  refine ⟨keptMembers m.members, rfl, formed_keptMembers m.members_sorted ?_⟩
  refine .cons ⟨rfl, htext _⟩ (.cons ⟨rfl, htext _⟩ (.cons ⟨rfl, h.fields⟩ ?_))
  refine .cons ⟨rfl, htext _⟩ (.cons ⟨rfl, htext _⟩ (.cons ⟨rfl, htext _⟩ ?_))
  exact .cons ⟨rfl, optional_map fun t ht => ⟨t, h.time t ht, rfl⟩⟩ .nil

end ManagedFields

/-! ## Metadata -/

namespace Metadata

theorem members_sorted (m : Metadata) : (m.members.map (·.1)).Pairwise (· < ·) := by
  change ["annotations", "creationTimestamp", "deletionGracePeriodSeconds", "deletionTimestamp",
    "finalizers", "generateName", "generation", "labels", "managedFields", "name", "namespace",
    "ownerReferences", "resourceVersion", "selfLink", "uid"].Pairwise (· < ·)
  decide

/-- **Metadata is written as it was read exactly if it is of the forms.** -/
theorem retains : Retains Metadata.ofJson toJson (Record forms) := by
  intro x m h
  cases x with
  | obj fields =>
    obtain ⟨hannotations, hcreation, hgrace, hdeletion, hfinalizers, hgenerate, hgeneration, hlabels,
      hmanaged, hname, hnamespace, howners, hversion, hlink, huid⟩ := ofJson_obj_iff.1 h
    have htext : ∀ {name : String} {s? : Option String}, known? fields name text = .ok s? →
        (s?.map .str = fields.lookup name ↔ Optional Given (fields.lookup name)) :=
      retains_text.known? not_given_null
    have htime : ∀ {name : String} {t? : Option Timestamp}, known? fields name timestamp = .ok t? →
        ((t?.map fun t => .str t.toSeconds) = fields.lookup name ↔
          Optional InSeconds (fields.lookup name)) := retains_timestamp.known? not_inSeconds_null
    refine obj_eq_iff m.members_sorted ?_
    refine .cons ⟨rfl, retains_texts.known? not_given_null hannotations⟩ ?_
    refine .cons ⟨rfl, htime hcreation⟩ ?_
    refine .cons ⟨rfl, retains_int64.known? not_given_null hgrace⟩ ?_
    refine .cons ⟨rfl, htime hdeletion⟩ ?_
    refine .cons ⟨rfl, (retains_list retains_text).known? not_listOf_null hfinalizers⟩ ?_
    refine .cons ⟨rfl, htext hgenerate⟩ ?_
    refine .cons ⟨rfl, retains_int64.known? not_given_null hgeneration⟩ ?_
    refine .cons ⟨rfl, retains_texts.known? not_given_null hlabels⟩ ?_
    refine .cons ⟨rfl, (retains_list ManagedFields.retains).known? not_listOf_null hmanaged⟩ ?_
    refine .cons ⟨rfl, htext hname⟩ (.cons ⟨rfl, htext hnamespace⟩ ?_)
    refine .cons ⟨rfl, (retains_list OwnerReference.retains).known? not_listOf_null howners⟩ ?_
    exact .cons ⟨rfl, htext hversion⟩ (.cons ⟨rfl, htext hlink⟩ (.cons ⟨rfl, htext huid⟩ .nil))
  | _ => cases h

/-- Metadata that is written is of the forms. -/
theorem formed_members {m : Metadata} (h : m.Storable) : Formed forms (keptMembers m.members) := by
  have htext : ∀ s? : Option String, Optional Given (s?.map .str) := fun _ =>
    optional_map fun _ _ => rfl
  have hnumber : ∀ n? : Option Int, Optional Given (n?.map .int) := fun _ =>
    optional_map fun _ _ => rfl
  have htexts : ∀ d? : Option (Dict String), Optional Given (d?.map .ofTexts) := fun _ =>
    optional_map fun _ _ => rfl
  have htime : ∀ {t? : Option Timestamp}, (∀ t ∈ t?, t.Valid) →
      Optional InSeconds (t?.map fun t => .str t.toSeconds) := fun hvalid =>
    optional_map fun t ht => ⟨t, hvalid t ht, rfl⟩
  refine formed_keptMembers m.members_sorted ?_
  refine .cons ⟨rfl, htexts _⟩ (.cons ⟨rfl, htime h.creation⟩ ?_)
  refine .cons ⟨rfl, hnumber _⟩ (.cons ⟨rfl, htime h.deletion⟩ ?_)
  refine .cons ⟨rfl, optional_map fun fs _ => ⟨_, rfl, List.forall_mem_map.2 fun _ _ => rfl⟩⟩ ?_
  refine .cons ⟨rfl, htext _⟩ (.cons ⟨rfl, hnumber _⟩ (.cons ⟨rfl, htexts _⟩ ?_))
  refine .cons ⟨rfl, optional_map fun ms hms => ⟨_, rfl, List.forall_mem_map.2 fun f hf => ?_⟩⟩ ?_
  · exact ManagedFields.record_toJson (h.managed ms hms f hf)
  refine .cons ⟨rfl, htext _⟩ (.cons ⟨rfl, htext _⟩ ?_)
  refine .cons ⟨rfl, optional_map fun rs _ => ⟨_, rfl, List.forall_mem_map.2 fun r _ => ?_⟩⟩ ?_
  · exact r.record_toJson
  exact .cons ⟨rfl, htext _⟩ (.cons ⟨rfl, htext _⟩ (.cons ⟨rfl, htext _⟩ .nil))

/-- The forms of metadata are kept by merging. -/
theorem mergeable_forms : ∀ f ∈ forms, Mergeable f.1 f.2 := by
  have hgiven : ∀ key, Mergeable key (Optional Given) := fun key =>
    mergeable_optional respectsSame_given (.inl fun _ => rfl)
  have htime : ∀ key, Mergeable key (Optional InSeconds) := fun key => by
    refine mergeable_optional respectsSame_inSeconds (.inr ?_)
    rintro m ⟨_, -, h⟩
    injection h
  have hlist : ∀ key {form : Json → Prop}, RespectsSame form →
      Mergeable key (Optional (ListOf form)) := fun key _ h =>
    mergeable_optional (respectsSame_listOf h) (.inr nofun)
  simp only [forms, List.forall_mem_cons, List.not_mem_nil, false_imp_iff, implies_true, and_true,
    hgiven, htime, hlist _ respectsSame_given, hlist _ ManagedFields.respectsSame_record,
    hlist _ OwnerReference.respectsSame_record]

end Metadata

end ReleaseKeeper
