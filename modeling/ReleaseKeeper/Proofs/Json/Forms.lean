import Mathlib.Data.List.Forall2
import ReleaseKeeper.Proofs.Json.Merge
import ReleaseKeeper.Proofs.Json.Patch
import ReleaseKeeper.Proofs.Resource.Identity

/-!
# Objects of known members

An object has a form if all its members are among some known ones, each of a form of its own (`Formed`).
A value that is the same as one of a form is of the form (`RespectsSame`). Where the form of a member
makes no difference between objects, merging keeps it: members that are of the forms are so after a merge
(`Formed.merged`), and what is desired is of the forms of the live object if that has all of it already
(`Formed.of_settled`).
-/
namespace ReleaseKeeper

namespace Table

variable {α : Type}

theorem lookup_of_mem {entries : Dict α} (hn : (entries.map (·.1)).Nodup) {e : String × α}
    (he : e ∈ entries) : entries.lookup e.1 = some e.2 := by
  induction entries with
  | nil => cases he
  | cons first rest ih =>
    obtain ⟨hfirst, hn⟩ := List.nodup_cons.1 hn
    obtain rfl | he := List.mem_cons.1 he
    · exact List.lookup_cons_self
    · have hne : e.1 ≠ first.1 := fun heq => hfirst (List.mem_map.2 ⟨e, he, heq⟩)
      rw [List.lookup_cons, beq_false_of_ne hne]
      exact ih hn he

theorem lookup_perm {a b : Dict α} (hn : (a.map (·.1)).Nodup) (h : a.Perm b) (key : String) :
    a.lookup key = b.lookup key := by
  have hn' : (b.map (·.1)).Nodup := (h.map _).nodup_iff.1 hn
  refine Option.ext fun x => ⟨fun hx => ?_, fun hx => ?_⟩
  · exact lookup_of_mem hn' (h.mem_iff.1 (mem_of_lookup hx))
  · exact lookup_of_mem hn (h.mem_iff.2 (mem_of_lookup hx))

/-- A sorted table is known by its look-ups. -/
theorem eq_of_lookup : ∀ {a b : Dict α}, Sorted a → Sorted b →
    (∀ key, a.lookup key = b.lookup key) → a = b
  | [], [], _, _, _ => rfl
  | [], (k, _) :: _, _, _, h => by simpa using h k
  | (j, _) :: _, [], _, _, h => by simpa using h j
  | (j, x) :: xs, (k, y) :: ys, ha, hb, h => by
    obtain ⟨hj, hxs⟩ := sorted_cons.1 ha
    obtain ⟨hk, hys⟩ := sorted_cons.1 hb
    have hjk : j = k := by
      have hjmem : (j, x) ∈ (k, y) :: ys := mem_of_lookup (by rw [← h j, List.lookup_cons_self])
      have hkmem : (k, y) ∈ (j, x) :: xs := mem_of_lookup (by rw [h k, List.lookup_cons_self])
      obtain heq | hjmem := List.mem_cons.1 hjmem
      · exact (Prod.mk.inj heq).1
      obtain heq | hkmem := List.mem_cons.1 hkmem
      · exact (Prod.mk.inj heq).1.symm
      · exact absurd (String.lt_trans (hj _ hkmem) (hk _ hjmem)) (String.lt_irrefl j)
    subst hjk
    have hxy := h j
    rw [List.lookup_cons_self, List.lookup_cons_self] at hxy
    obtain rfl := Option.some.inj hxy
    refine congrArg _ (eq_of_lookup hxs hys fun key => ?_)
    have hkey := h key
    rw [List.lookup_cons, List.lookup_cons] at hkey
    by_cases hne : key = j
    · subst hne
      rw [lookup_eq_none (List.nodup_cons.1 (keys_nodup ha)).1,
        lookup_eq_none (List.nodup_cons.1 (keys_nodup hb)).1]
    · rwa [beq_false_of_ne hne] at hkey

theorem put_of_lookup {entries : Dict α} {key : String} {x : α}
    (hs : Sorted entries) (h : entries.lookup key = some x) :
    put key x entries = entries := by
  refine eq_of_lookup (sorted_put hs) hs fun j => ?_
  rw [lookup_put]
  split
  · next hj => rw [hj, h]
  · rfl

end Table

namespace Json

variable {form : Json → Prop} {x y : Json}

/-- A value that is not null. -/
def Given (x : Json) : Prop := x.isNull = false

/-- A list of values of a form. -/
def ListOf (form : Json → Prop) (x : Json) : Prop := ∃ items, x = .arr items ∧ ∀ y ∈ items, form y

/-- A member that may be absent, and else is of a form. -/
def Optional (form : Json → Prop) (x? : Option Json) : Prop := ∀ x ∈ x?, form x

/-- A member that is there and of a form. -/
def Required (form : Json → Prop) (x? : Option Json) : Prop := ∃ x ∈ x?, form x

/-- The members that an object may have, and what each of them has to be. -/
abbrev Forms := List (String × (Option Json → Prop))

/-- Members in order that are all known, each of them as it has to be. -/
structure Formed (forms : Forms) (members : Dict Json) : Prop where
  sorted : Table.Sorted members
  known : ∀ key x, members.lookup key = some x → key ∈ forms.map (·.1)
  each : ∀ f ∈ forms, f.2 (members.lookup f.1)

/-- An object of such members. -/
def Record (forms : Forms) (x : Json) : Prop := ∃ members, x = .obj members ∧ Formed forms members

/-! ## The same values -/

/-- What is the same as a value of a form is of the form. -/
def RespectsSame (form : Json → Prop) : Prop := ∀ x y, x.same y = true → form x → form y

/-- The same for a member, which may be absent. -/
def RespectsSameOption (form : Option Json → Prop) : Prop := ∀ x? y?, SameOption x? y? → form x? → form y?

theorem respectsSame_given : RespectsSame Given := by
  intro x y h hx
  cases x <;> cases y <;> simp_all [same, Given, isNull]

theorem exists_mem_of_sameItems : ∀ {xs ys : List Json}, sameItems xs ys = true →
    ∀ y ∈ ys, ∃ x ∈ xs, x.same y = true
  | [], [], _, y, hy => absurd hy List.not_mem_nil
  | [], _ :: _, h, _, _ => by cases h
  | _ :: _, [], h, _, _ => by cases h
  | x :: xs, z :: zs, h, y, hy => by
    rw [sameItems, Bool.and_eq_true] at h
    obtain rfl | hy := List.mem_cons.1 hy
    · exact ⟨x, List.mem_cons_self, h.1⟩
    · obtain ⟨x', hx', hsame⟩ := exists_mem_of_sameItems h.2 y hy
      exact ⟨x', List.mem_cons_of_mem _ hx', hsame⟩

theorem respectsSame_listOf (h : RespectsSame form) : RespectsSame (ListOf form) := by
  rintro _ y hsame ⟨xs, rfl, hxs⟩
  cases y with
  | arr ys =>
    refine ⟨ys, rfl, fun y hy => ?_⟩
    obtain ⟨x, hx, hxy⟩ := exists_mem_of_sameItems hsame y hy
    exact h x y hxy (hxs x hx)
  | _ => cases hsame

theorem respectsSame_optional (h : RespectsSame form) : RespectsSameOption (Optional form) := by
  rintro _ _ (hxy | _) hx
  · rintro _ ⟨⟩
    exact h _ _ hxy (hx _ rfl)
  · exact hx

theorem respectsSame_required (h : RespectsSame form) : RespectsSameOption (Required form) := by
  rintro _ _ (hxy | _) ⟨x, hx, hform⟩
  · cases hx
    exact ⟨_, rfl, h _ _ hxy hform⟩
  · cases hx

theorem keys_of_sameMembers : ∀ {a b : List (String × Json)}, sameMembers a b = true →
    a.map (·.1) = b.map (·.1)
  | [], [], _ => rfl
  | [], _ :: _, h => by cases h
  | _ :: _, [], h => by cases h
  | (j, x) :: xs, (k, y) :: ys, h => by
    simp only [sameMembers, Bool.and_eq_true, beq_iff_eq] at h
    obtain ⟨⟨rfl, -⟩, hrest⟩ := h
    rw [List.map_cons, List.map_cons, keys_of_sameMembers hrest]

theorem respectsSame_record {forms : Forms} (h : ∀ f ∈ forms, RespectsSameOption f.2) :
    RespectsSame (Record forms) := by
  rintro _ y hsame ⟨a, rfl, ha⟩
  obtain ⟨b, rfl, hba⟩ := same_obj (by rwa [same_comm])
  have hab : sameMembers a b = true := hsame
  refine ⟨b, rfl, (Table.sorted_congr (keys_of_sameMembers hab)).1 ha.sorted, fun key y hy => ?_,
    fun f hf => ?_⟩
  · have hkey := same_lookup hba key
    rw [hy] at hkey
    generalize hx : a.lookup key = x? at hkey
    obtain _ | x := x?
    · cases hkey
    · exact ha.known key x hx
  · exact h f hf _ _ (same_lookup hab f.1) (ha.each f hf)

/-! ## Merging -/

/-- A form of a member that is kept by merging, and that a live member passes on to what is desired if
that is all there. -/
structure Mergeable (key : String) (form : Option Json → Prop) : Prop where
  absent : form none
  settled : ∀ {want live?}, mergeMember key want live? = none → form live? → form (some want)
  merged : ∀ {want? live?}, form want? → form live? → form (memberAfter key want? live?)

theorem mergeable_optional {key : String} (h : RespectsSame form)
    (hobj : (∀ m, form (.obj m)) ∨ ∀ m, ¬ form (.obj m)) : Mergeable key (Optional form) where
  absent := nofun
  settled := by
    rintro want live? hsettled hlive _ ⟨⟩
    by_cases hwhole : Whole key want live?
    · rw [mergeMember_whole hwhole] at hsettled
      split at hsettled
      · next hany =>
        obtain ⟨live, rfl, hsame⟩ := (Option.any_eq_true _ _).1 hany
        exact h _ _ hsame (hlive live rfl)
      · cases hsettled
    · obtain ⟨-, d, l, rfl, rfl⟩ := not_whole hwhole
      exact (hobj.resolve_right fun hnone => hnone l (hlive _ rfl)) d
  merged := by
    rintro (_ | want) live? hwant hlive
    · exact hlive
    by_cases hwhole : Whole key want live?
    · obtain hplaced | ⟨live, hsome, -, hkept⟩ := memberAfter_whole hwhole
      · rwa [hplaced]
      · rwa [hkept, ← hsome]
    · obtain ⟨hkey, d, l, rfl, rfl⟩ := not_whole hwhole
      have hall := hobj.resolve_right fun hnone => hnone l (hlive _ rfl)
      rw [memberAfter, mergeMember_obj _ _ hkey]
      split
      · rintro _ ⟨⟩
        exact hall _
      · exact hlive

namespace Formed

variable {forms : Forms} {desired live members : Dict Json}

/-- **What a live object has already** is of the forms that the live object is of. -/
theorem of_settled (hforms : ∀ f ∈ forms, Mergeable f.1 f.2) (hd : (Json.obj desired).WellFormed)
    (h : (mergeMembers desired live).1 = false) (hlive : Formed forms live) :
    Formed forms desired where
  sorted := hd.sorted
  known key want hw := by
    obtain ⟨x, hx⟩ := merge_settled_live hd h hw
    exact hlive.known key x hx
  each f hf := by
    cases hw : desired.lookup f.1 with
    | none => exact (hforms f hf).absent
    | some want =>
      have hsettled := (merge_settled_iff hd.keys_nodup).1 h f.1 want hw
      exact (hforms f hf).settled hsettled (hlive.each f hf)

theorem sorted_merged : ∀ {desired live : Dict Json}, Table.Sorted live →
    Table.Sorted (mergeMembers desired live).2
  | [], _, h => h
  | (key, want) :: rest, live, h => by
    rw [mergeMembers]
    split
    · exact sorted_merged h
    · exact sorted_merged (Table.sorted_put h)

/-- **Merging keeps forms.** -/
theorem merged (hforms : ∀ f ∈ forms, Mergeable f.1 f.2) (hd : Formed forms desired)
    (hlive : Formed forms live) :
    Formed forms (mergeMembers desired live).2 where
  sorted := sorted_merged hlive.sorted
  known key x hx := by
    rw [lookup_merged (Table.keys_nodup hd.sorted)] at hx
    cases hw : desired.lookup key with
    | some want => exact hd.known key want hw
    | none =>
      rw [hw] at hx
      exact hlive.known key x hx
  each f hf := by
    rw [lookup_merged (Table.keys_nodup hd.sorted)]
    exact (hforms f hf).merged (hd.each f hf) (hlive.each f hf)

theorem put {key : String} (h : Formed forms members) (hkey : key ∈ forms.map (·.1))
    (hx : ∀ f ∈ forms, f.1 = key → f.2 (some x)) : Formed forms (Table.put key x members) where
  sorted := Table.sorted_put h.sorted
  known j y hy := by
    rw [Table.lookup_put] at hy
    split at hy
    · next hj => exact hj ▸ hkey
    · exact h.known j y hy
  each f hf := by
    rw [Table.lookup_put]
    split
    · next hf' => exact hx f hf hf'
    · exact h.each f hf

end Formed

/-! ## Members that are written -/

theorem sorted_keptMembers {members : List (String × Option Json)}
    (h : (members.map (·.1)).Pairwise (· < ·)) : Table.Sorted (keptMembers members) := by
  have hkeys := h.sublist (keys_keptMembers members)
  simpa [Table.Sorted, KeyOrder.before, List.pairwise_map] using hkeys

/-- What was written member by member, those that are absent left out, is what was given if every member
is and nothing else was given. -/
theorem keptMembers_eq_iff {members : List (String × Option Json)} {forms : Forms} {given : Dict Json}
    (hm : (members.map (·.1)).Pairwise (· < ·))
    (h : List.Forall₂ (fun m f => m.1 = f.1 ∧ (m.2 = given.lookup f.1 ↔ f.2 (given.lookup f.1)))
      members forms) :
    keptMembers members = given ↔ Formed forms given := by
  have hn : (members.map (·.1)).Nodup := hm.imp String.ne_of_lt
  have hnames : members.map (·.1) = forms.map (·.1) := by
    rw [← List.forall₂_eq_eq_eq, List.forall₂_map_left_iff, List.forall₂_map_right_iff]
    exact h.imp fun _ _ hmf => hmf.1
  have heach : (∀ m ∈ members, m.2 = given.lookup m.1) ↔ ∀ f ∈ forms, f.2 (given.lookup f.1) := by
    clear hm hn hnames
    induction h with
    | nil => simp
    | cons hmf _ ih => rw [List.forall_mem_cons, List.forall_mem_cons, ih, ← hmf.2, hmf.1]
  constructor
  · rintro rfl
    refine ⟨sorted_keptMembers hm, fun key x hx => ?_, heach.1 fun m hmem => ?_⟩
    · rw [← hnames]
      exact (keys_keptMembers members).subset (List.mem_map_of_mem (Table.mem_of_lookup hx))
    · rw [lookup_keptMembers hn, Table.lookup_of_mem hn hmem]
      rfl
  · intro hformed
    refine Table.eq_of_lookup (sorted_keptMembers hm) hformed.sorted fun key => ?_
    rw [lookup_keptMembers hn]
    cases hkey : members.lookup key with
    | some x? => exact heach.2 hformed.each _ (Table.mem_of_lookup hkey)
    | none =>
      rw [Option.join_none]
      cases hx : given.lookup key with
      | none => rfl
      | some x =>
        have hmem := hformed.known key x hx
        rw [← hnames] at hmem
        obtain ⟨m, hm, rfl⟩ := List.mem_map.1 hmem
        cases hkey.symm.trans (Table.lookup_of_mem hn hm)

/-- What is written is of the forms that its members are of. -/
theorem formed_keptMembers {members : List (String × Option Json)} {forms : Forms}
    (hm : (members.map (·.1)).Pairwise (· < ·))
    (h : List.Forall₂ (fun m f => m.1 = f.1 ∧ f.2 m.2) members forms) :
    Formed forms (keptMembers members) := by
  have hn : (members.map (·.1)).Nodup := hm.imp String.ne_of_lt
  have hlookup : ∀ m ∈ members, (keptMembers members).lookup m.1 = m.2 := fun m hmem => by
    rw [lookup_keptMembers hn, Table.lookup_of_mem hn hmem]
    rfl
  have hboth := (List.forall₂_and_left members forms).2 ⟨hlookup, h⟩
  refine (keptMembers_eq_iff hm (hboth.imp fun m f hmf => ⟨hmf.2.1, ?_⟩)).1 rfl
  rw [← hmf.2.1, hmf.1]
  exact iff_of_true rfl hmf.2.2

end Json

end ReleaseKeeper
