import Mathlib.Tactic.ByContra
import ReleaseKeeper.Json.Merge
import ReleaseKeeper.Proofs.Json.Equality

/-!
# What a merge does, along every path

The merge visits the desired members one after another and writes what it changes into the live
object at once. With no key twice this is a rule for each member alone: `lookup_mergeMembers` tells
what every member of the result is, `merge_settled_iff` when nothing changes. From there on
everything is an induction over the desired value, `mergeMember` being the step. What becomes of one
member (`memberAfter`) is what was desired, if that takes the place of what was there, and a mixture
of both if both are objects.

The law (`merge_law`): the flag tells exactly whether the result differs, a second merge changes
nothing, and along a path the desired value wins from the first point where it is replaced whole
(`Replaced`), while a path that leaves the desired value before that finds what it found before.
-/
namespace ReleaseKeeper.Json

/-- A member that is not merged into but replaced: the payload, and all but an object onto an
object. -/
def Whole (key : String) (want : Json) (live : Option Json) : Prop :=
  key = payloadKey ∨ want.asObj? = none ∨ live.bind asObj? = none

instance (key : String) (want : Json) (live : Option Json) : Decidable (Whole key want live) := by
  unfold Whole; infer_instance

/-! ## One member -/

theorem mergeMember_whole {key : String} {want : Json} {live : Option Json}
    (h : Whole key want live) :
    mergeMember key want live = if live.any (·.same want) then none else some want := by
  cases live with
  | none => cases want <;> rfl
  | some live =>
    cases want with
    | obj d =>
      cases live with
      | obj l =>
        obtain rfl : key = payloadKey := by simpa [Whole, asObj?] using h
        rw [mergeMember, if_pos rfl]
        rfl
      | _ => simp [mergeMember]
    | _ => simp [mergeMember]

theorem mergeMember_obj {key : String} (want live : Dict Json) (h : key ≠ payloadKey) :
    mergeMember key (.obj want) (some (.obj live)) =
      if (mergeMembers want live).1 then some (.obj (mergeMembers want live).2) else none := by
  simp [mergeMember, h]

/-- What is not replaced whole is an object that is merged into an object. -/
theorem not_whole {key : String} {want : Json} {live : Option Json} (h : ¬ Whole key want live) :
    key ≠ payloadKey ∧ ∃ d l, want = .obj d ∧ live = some (.obj l) := by
  simp only [Whole, not_or] at h
  obtain ⟨hkey, hwant, hlive⟩ := h
  refine ⟨hkey, ?_⟩
  cases want with
  | obj d =>
    rcases live with _ | (_ | _ | _ | _ | _ | _ | l)
    case some.obj => exact ⟨d, l, rfl, rfl⟩
    all_goals simp [asObj?] at hlive
  | _ => simp [asObj?] at hwant

/-! ## All members -/

theorem mergeMembers_of_unchanged : ∀ {desired live : Dict Json},
    (mergeMembers desired live).1 = false → (mergeMembers desired live).2 = live
  | [], _, _ => rfl
  | (key, want) :: rest, live, h => by
    rw [mergeMembers] at h ⊢
    cases hm : mergeMember key want (live.lookup key) with
    | none =>
      simp only [hm] at h
      exact mergeMembers_of_unchanged h
    | some x => simp [hm] at h

/-- Each member of the result is decided by the desired and the live member of its key alone. -/
theorem lookup_mergeMembers {key : String} : ∀ {desired live : Dict Json},
    (desired.map (·.1)).Nodup →
    (mergeMembers desired live).2.lookup key =
      match desired.lookup key with
      | none => live.lookup key
      | some want => (mergeMember key want (live.lookup key)).or (live.lookup key)
  | [], _, _ => rfl
  | (k, want) :: rest, live, hn => by
    rw [List.map_cons, List.nodup_cons] at hn
    obtain ⟨hk, hn⟩ := hn
    rw [mergeMembers, List.lookup_cons]
    by_cases hkey : key = k
    · subst hkey
      have hrest : rest.lookup key = none := Table.lookup_eq_none hk
      simp only [BEq.rfl]
      cases hm : mergeMember key want (live.lookup key) with
      | none => simp [lookup_mergeMembers hn, hrest]
      | some x => simp [lookup_mergeMembers hn, hrest, Table.lookup_put]
    · simp only [beq_false_of_ne hkey]
      cases hm : mergeMember k want (live.lookup k) with
      | none => exact lookup_mergeMembers hn
      | some x => simp [lookup_mergeMembers hn, Table.lookup_put, hkey]

/-- A merge changes nothing if and only if it changes no member. -/
theorem merge_settled_iff : ∀ {desired live : Dict Json}, (desired.map (·.1)).Nodup →
    ((mergeMembers desired live).1 = false ↔
      ∀ key want, desired.lookup key = some want → mergeMember key want (live.lookup key) = none)
  | [], _, _ => by simp [mergeMembers]
  | (k, want) :: rest, live, hn => by
    rw [List.map_cons, List.nodup_cons] at hn
    obtain ⟨hk, hn⟩ := hn
    rw [mergeMembers]
    cases hm : mergeMember k want (live.lookup k) with
    | some x =>
      simp only [Bool.true_eq_false, false_iff]
      intro h
      have := h k want List.lookup_cons_self
      rw [hm] at this
      cases this
    | none =>
      simp only
      rw [merge_settled_iff hn]
      constructor
      · intro h key want' hw
        rw [List.lookup_cons] at hw
        by_cases hkey : key = k
        · subst hkey
          simp only [BEq.rfl, Option.some.injEq] at hw
          rw [← hw, hm]
        · simp only [beq_false_of_ne hkey] at hw
          exact h key want' hw
      · intro h key want' hw
        refine h key want' ?_
        have hkey : key ≠ k := by
          rintro rfl
          rw [Table.lookup_eq_none hk] at hw
          cases hw
        rw [List.lookup_cons, beq_false_of_ne hkey]
        exact hw

/-! ## Nothing to merge into the same value -/

theorem mergeMember_same {want : Json} : want.WellFormed → ∀ {key : String} {live : Json},
    live.same want = true → mergeMember key want (some live) = none := by
  induction want using objInduction with
  | other want hwant =>
    intro _ key live h
    rw [mergeMember_whole (.inr (.inl hwant))]
    simp [h]
  | obj members ih =>
    intro hw key live h
    by_cases hwhole : Whole key (.obj members) (some live)
    · rw [mergeMember_whole hwhole]
      simp [h]
    · obtain ⟨hkey, -, l, -, hl⟩ := not_whole hwhole
      cases hl
      have hsettled : (mergeMembers members l).1 = false := by
        rw [merge_settled_iff hw.keys_nodup]
        intro j want hj
        have hsame := same_lookup h j
        rw [hj] at hsame
        generalize l.lookup j = y at hsame
        cases hsame with
        | some hy => exact ih _ (Table.mem_of_lookup hj) (hw.lookup hj) hy
      rw [mergeMember_obj _ _ hkey, hsettled]
      simp

theorem mergeMember_merged_whole {key : String} {want : Json} {live : Option Json}
    (hw : want.WellFormed) (hwhole : Whole key want live) :
    mergeMember key want ((mergeMember key want live).or live) = none := by
  rw [mergeMember_whole hwhole]
  split
  · next hsame => rw [Option.none_or, mergeMember_whole hwhole, if_pos hsame]
  · exact mergeMember_same hw (same_refl hw)

/-- **A member that was merged stays as it is** when it is merged once more. -/
theorem mergeMember_merged {want : Json} : want.WellFormed → ∀ {key : String} {live : Option Json},
    mergeMember key want ((mergeMember key want live).or live) = none := by
  induction want using objInduction with
  | other want hwant => exact fun hw _ _ => mergeMember_merged_whole hw (.inr (.inl hwant))
  | obj members ih =>
    intro hw key live
    by_cases hwhole : Whole key (.obj members) live
    · exact mergeMember_merged_whole hw hwhole
    · obtain ⟨hkey, -, l, -, rfl⟩ := not_whole hwhole
      have hsettled : (mergeMembers members (mergeMembers members l).2).1 = false := by
        rw [merge_settled_iff hw.keys_nodup]
        intro j want hj
        rw [lookup_mergeMembers hw.keys_nodup, hj]
        exact ih _ (Table.mem_of_lookup hj) (hw.lookup hj)
      rw [mergeMember_obj _ _ hkey]
      cases hflag : (mergeMembers members l).1 with
      | false =>
        rw [mergeMembers_of_unchanged hflag] at hsettled
        simp [mergeMember_obj _ _ hkey, hsettled]
      | true => simp [mergeMember_obj _ _ hkey, hsettled]

theorem mergeMember_differs_whole {key : String} {want live x : Json}
    (hwhole : Whole key want (some live)) (hx : mergeMember key want (some live) = some x) :
    x.same live = false := by
  rw [mergeMember_whole hwhole] at hx
  split at hx
  · cases hx
  · next hsame =>
    obtain rfl : want = x := by simpa using hx
    rw [same_comm]
    simpa using hsame

/-- A member that is written is not what it was before. -/
theorem mergeMember_differs {want : Json} : want.WellFormed → ∀ {key : String} {live x : Json},
    mergeMember key want (some live) = some x → x.same live = false := by
  induction want using objInduction with
  | other want hwant => exact fun _ _ _ _ => mergeMember_differs_whole (.inr (.inl hwant))
  | obj members ih =>
    intro hw key live x hx
    by_cases hwhole : Whole key (.obj members) (some live)
    · exact mergeMember_differs_whole hwhole hx
    · obtain ⟨hkey, -, l, -, hl⟩ := not_whole hwhole
      cases hl
      rw [mergeMember_obj _ _ hkey] at hx
      split at hx
      · next hflag =>
        obtain rfl : Json.obj (mergeMembers members l).2 = x := by simpa using hx
        rw [Bool.eq_false_iff]
        intro hsame
        have hall := same_lookup (a := (mergeMembers members l).2) (b := l) hsame
        refine Bool.eq_false_iff.1 ?_ hflag
        rw [merge_settled_iff hw.keys_nodup]
        intro j want hj
        have hsame := hall j
        rw [lookup_mergeMembers hw.keys_nodup, hj] at hsame
        simp only at hsame
        cases hm : mergeMember j want (l.lookup j) with
        | none => rfl
        | some y =>
          -- the member was written, so by induction it is not what the live object held
          rw [hm, Option.some_or] at hsame
          generalize hz : l.lookup j = z at hsame hm
          cases hsame with
          | some hyz =>
            have := ih _ (Table.mem_of_lookup hj) (hw.lookup hj) hm
            rw [hyz] at this
            cases this
      · cases hx

/-! ## Live members that hold all that is desired -/

theorem merge_settled_same {desired live : Dict Json} (hw : (Json.obj desired).WellFormed)
    (h : sameMembers live desired = true) : (mergeMembers desired live).1 = false := by
  rw [merge_settled_iff hw.keys_nodup]
  intro key want hwant
  have hsame := same_lookup h key
  rw [hwant] at hsame
  generalize live.lookup key = y at hsame
  cases hsame with
  | some hy => exact mergeMember_same (hw.lookup hwant) hy

theorem merge_settled_self {members : Dict Json} (hw : (Json.obj members).WellFormed) :
    (mergeMembers members members).1 = false :=
  merge_settled_same hw (same_refl hw)

/-- Writing a live member leaves nothing to merge if there is nothing to merge into what is
written. -/
theorem merge_settled_put {desired live : Dict Json} {key : String} {x : Json}
    (hd : (Json.obj desired).WellFormed) (h : (mergeMembers desired live).1 = false)
    (hkey : ∀ want, desired.lookup key = some want → mergeMember key want (some x) = none) :
    (mergeMembers desired (Table.put key x live)).1 = false := by
  rw [merge_settled_iff hd.keys_nodup] at h ⊢
  intro j want hw
  rw [Table.lookup_put]
  by_cases hj : j = key
  · subst hj
    simpa using hkey want hw
  · simpa [hj] using h j want hw

/-- Where there is nothing to merge, every desired member is live. -/
theorem merge_settled_live {desired live : Dict Json} {key : String} {want : Json}
    (hd : (Json.obj desired).WellFormed) (h : (mergeMembers desired live).1 = false)
    (hw : desired.lookup key = some want) : ∃ x, live.lookup key = some x := by
  have hm := (merge_settled_iff hd.keys_nodup).1 h key want hw
  cases hl : live.lookup key with
  | some x => exact ⟨x, rfl⟩
  | none =>
    rw [hl, mergeMember_whole (by simp [Whole])] at hm
    cases hm

/-- Where there is nothing to merge, there is nothing to merge into the objects inside. -/
theorem merge_settled_obj {desired live d : Dict Json} {key : String}
    (hd : (Json.obj desired).WellFormed) (h : (mergeMembers desired live).1 = false)
    (hkey : key ≠ payloadKey) (hw : desired.lookup key = some (.obj d)) :
    ∃ l, live.lookup key = some (.obj l) ∧ (mergeMembers d l).1 = false := by
  have hm := (merge_settled_iff hd.keys_nodup).1 h key _ hw
  obtain ⟨x, hx⟩ := merge_settled_live hd h hw
  rw [hx] at hm
  cases x with
  | obj l =>
    rw [mergeMember_obj _ _ hkey] at hm
    refine ⟨l, hx, ?_⟩
    by_contra hflag
    simp [hflag] at hm
  | _ => simp [mergeMember, same] at hm

/-! ## What becomes of one member -/

section
variable {key : String} {want : Json} {live? : Option Json}

/-- What a merge makes of a member, given what is desired and what was there. -/
def memberAfter (key : String) : Option Json → Option Json → Option Json
  | none, live? => live?
  | some want, live? => (mergeMember key want live?).or live?

theorem lookup_merged {desired : Dict Json} (hd : (desired.map (·.1)).Nodup) (live : Dict Json) :
    (mergeMembers desired live).2.lookup key =
      memberAfter key (desired.lookup key) (live.lookup key) := by
  rw [lookup_mergeMembers hd]
  cases desired.lookup key <;> rfl

/-- Where nothing was there, there is what is desired. -/
theorem memberAfter_absent (key : String) (want? : Option Json) :
    memberAfter key want? none = want? := by
  cases want? with
  | none => rfl
  | some want => cases want <;> rfl

/-- What is not merged into takes the place of what was there, unless that is the same already. -/
theorem memberAfter_whole (hwhole : Whole key want live?) :
    memberAfter key (some want) live? = some want ∨
      ∃ live, live? = some live ∧ live.same want = true ∧
        memberAfter key (some want) live? = some live := by
  rw [memberAfter, mergeMember_whole hwhole]
  split
  · next hsame =>
    obtain ⟨live, rfl, hsame⟩ := (Option.any_eq_true _ _).1 hsame
    exact .inr ⟨live, rfl, hsame, rfl⟩
  · exact .inl rfl

theorem memberAfter_exact (hwhole : Whole key want live?) (hexact : want.Exact) :
    memberAfter key (some want) live? = some want := by
  obtain hplaced | ⟨live, -, hsame, hkept⟩ := memberAfter_whole hwhole
  · exact hplaced
  · rw [hkept, hexact live hsame]

/-- **An object is mixed with the object that was there**, member by member. -/
theorem memberAfter_obj {d : Dict Json} (hd : (d.map (·.1)).Nodup) (hkey : key ≠ payloadKey)
    (live? : Option Json) : ∃ m, memberAfter key (some (.obj d)) live? = some (.obj m) ∧
      ∀ j, m.lookup j = memberAfter j (d.lookup j) (live?.bind (get? j)) := by
  by_cases hwhole : Whole key (.obj d) live?
  · have hnone : live?.bind asObj? = none := by simpa [Whole, hkey, asObj?] using hwhole
    obtain hplaced | ⟨live, rfl, hsame, -⟩ := memberAfter_whole hwhole
    · refine ⟨d, hplaced, fun j => ?_⟩
      have habsent : live?.bind (get? j) = none := by
        cases live? with
        | none => rfl
        | some x => rw [Option.bind_some] at hnone ⊢; rw [get?, hnone]; rfl
      rw [habsent, memberAfter_absent]
    · obtain ⟨l, rfl, -⟩ := same_obj hsame
      cases hnone
  · obtain ⟨-, d', l, heq, rfl⟩ := not_whole hwhole
    obtain rfl := Json.obj.inj heq
    refine ⟨(mergeMembers d l).2, ?_, fun j => lookup_merged hd l⟩
    rw [memberAfter, mergeMember_obj _ _ hkey]
    cases hflag : (mergeMembers d l).1 with
    | true => rfl
    | false => rw [mergeMembers_of_unchanged hflag]; rfl

end

/-! ## Along a path -/

/-- The desired value at the end of a path is not merged into the live one but replaces it: it is a
payload or no object, or the live value is no object. -/
def Replaced (desired live : Json) (path : List String) : Prop :=
  ∃ x, desired.at? path = some x ∧
    (path.getLast? = some payloadKey ∨ x.asObj? = none ∨ (live.at? path).bind asObj? = none)

/-- The first point of a path where the desired value replaces the live one. -/
def FirstReplaced (desired live : Json) (path : List String) : Prop :=
  Replaced desired live path ∧ ∀ q, q <+: path → q ≠ path → ¬ Replaced desired live q

section
variable {desired live d l : Dict Json} {key : String} {want : Json} {path : List String}

theorem not_replaced_nil : ¬ Replaced (.obj desired) (.obj live) [] := by
  simp [Replaced, asObj?]

theorem replaced_singleton (hw : desired.lookup key = some want) :
    Replaced (.obj desired) (.obj live) [key] ↔ Whole key want (live.lookup key) := by
  have hat : ∀ members : Dict Json, (Json.obj members).at? [key] = members.lookup key :=
    fun members => by rw [at?_obj]; cases members.lookup key <;> rfl
  simp [Replaced, Whole, hat, hw]

theorem replaced_cons (hkey : key ≠ payloadKey) (hd : desired.lookup key = some (.obj d))
    (hl : live.lookup key = some (.obj l)) :
    Replaced (.obj desired) (.obj live) (key :: path) ↔ Replaced (.obj d) (.obj l) path := by
  simp only [Replaced, at?_obj, hd, hl, Option.bind_some]
  cases path with
  | nil => simp [asObj?, hkey]
  | cons k path => rw [List.getLast?_cons_cons]

theorem not_replaced_of_absent (hw : desired.lookup key = none) :
    ¬ Replaced (.obj desired) (.obj live) (key :: path) := by
  simp [Replaced, hw]

theorem lookup_merged_whole (hn : (Json.obj desired).WellFormed) (hw : desired.lookup key = some want)
    (hwhole : Whole key want (live.lookup key)) :
    SameOption ((mergeMembers desired live).2.lookup key) (some want) := by
  rw [lookup_merged hn.keys_nodup, hw]
  obtain hplaced | ⟨x, -, hsame, hkept⟩ := memberAfter_whole hwhole
  · rw [hplaced]
    exact .some (same_refl (hn.lookup hw))
  · rw [hkept]
    exact .some hsame

theorem lookup_merged_obj (hn : (desired.map (·.1)).Nodup) (hkey : key ≠ payloadKey)
    (hd : desired.lookup key = some (.obj d)) (hl : live.lookup key = some (.obj l)) :
    (mergeMembers desired live).2.lookup key = some (.obj (mergeMembers d l).2) := by
  rw [lookup_mergeMembers hn, hd, hl]
  simp only
  rw [mergeMember_obj _ _ hkey]
  cases hflag : (mergeMembers d l).1 with
  | true => rfl
  | false => rw [mergeMembers_of_unchanged hflag]; rfl

theorem lookup_merged_absent (hn : (desired.map (·.1)).Nodup) (hw : desired.lookup key = none) :
    (mergeMembers desired live).2.lookup key = live.lookup key := by
  rw [lookup_mergeMembers hn, hw]

end

/-- At the first point where it is replaced, the result is what was desired. -/
theorem at?_merged_replaced : ∀ {path : List String} {desired live : Dict Json},
    (Json.obj desired).WellFormed → FirstReplaced (.obj desired) (.obj live) path →
    SameOption ((Json.obj (mergeMembers desired live).2).at? path) ((Json.obj desired).at? path)
  | [], _, _, _, h => absurd h.1 not_replaced_nil
  | key :: path, desired, live, hn, ⟨hrep, hfirst⟩ => by
    cases hw : desired.lookup key with
    | none => exact absurd hrep (not_replaced_of_absent hw)
    | some want =>
      by_cases hwhole : Whole key want (live.lookup key)
      · -- a path that goes on behind its first key would not meet this point first
        have hpath : path = [] := by
          by_contra hne
          exact hfirst [key] ⟨path, rfl⟩ (by simpa using Ne.symm hne)
            ((replaced_singleton hw).2 hwhole)
        subst hpath
        have hsame := lookup_merged_whole hn hw hwhole
        rw [at?_obj, at?_obj, hw]
        generalize (mergeMembers desired live).2.lookup key = x at hsame
        cases hsame with
        | some h => exact .some h
      · obtain ⟨hkey, d, l, rfl, hl⟩ := not_whole hwhole
        rw [at?_obj, at?_obj, hw, lookup_merged_obj hn.keys_nodup hkey hw hl]
        refine at?_merged_replaced (hn.lookup hw) ⟨(replaced_cons hkey hw hl).1 hrep, ?_⟩
        intro q hq hne hrepq
        refine hfirst (key :: q) ((List.prefix_cons_inj key).2 hq) (by simpa using hne) ?_
        exact (replaced_cons hkey hw hl).2 hrepq

/-- A path that leaves the desired value finds in the result what it found before. -/
theorem at?_merged_outside : ∀ {path : List String} {desired live : Dict Json},
    (Json.obj desired).WellFormed →
    (∀ q, q <+: path → ¬ Replaced (.obj desired) (.obj live) q) →
    (Json.obj desired).at? path = none →
    (Json.obj (mergeMembers desired live).2).at? path = (Json.obj live).at? path
  | [], _, _, _, _, h => by simp at h
  | key :: path, desired, live, hn, hnot, hout => by
    rw [at?_obj, at?_obj]
    cases hw : desired.lookup key with
    | none => rw [lookup_merged_absent hn.keys_nodup hw]
    | some want =>
      have hwhole : ¬ Whole key want (live.lookup key) := fun h =>
        hnot [key] ⟨path, rfl⟩ ((replaced_singleton hw).2 h)
      obtain ⟨hkey, d, l, rfl, hl⟩ := not_whole hwhole
      rw [at?_obj, hw, Option.bind_some] at hout
      rw [lookup_merged_obj hn.keys_nodup hkey hw hl, hl, Option.bind_some, Option.bind_some]
      refine at?_merged_outside (hn.lookup hw) ?_ hout
      intro q hq hrepq
      exact hnot (key :: q) ((List.prefix_cons_inj key).2 hq) ((replaced_cons hkey hw hl).2 hrepq)

/-- Whatever is desired and no object is in the result. -/
theorem at?_merged_leaf : ∀ {path : List String} {desired live : Dict Json} {x : Json},
    (Json.obj desired).WellFormed → (Json.obj desired).at? path = some x → x.asObj? = none →
    SameOption ((Json.obj (mergeMembers desired live).2).at? path) (some x)
  | [], _, _, _, _, h, hx => by
    cases h
    simp [asObj?] at hx
  | key :: path, desired, live, x, hn, h, hx => by
    rw [at?_obj] at h ⊢
    cases hw : desired.lookup key with
    | none => simp [hw] at h
    | some want =>
      rw [hw, Option.bind_some] at h
      by_cases hwhole : Whole key want (live.lookup key)
      · have hsame := lookup_merged_whole hn hw hwhole
        generalize (mergeMembers desired live).2.lookup key = y at hsame
        cases hsame with
        | some hy => exact h ▸ same_at? path hy
      · obtain ⟨hkey, d, l, rfl, hl⟩ := not_whole hwhole
        rw [lookup_merged_obj hn.keys_nodup hkey hw hl]
        exact at?_merged_leaf (hn.lookup hw) h hx

/-! ## The law -/

/-- A merge tells that it changed something exactly if its result is not what was there before. -/
theorem merge_changed_iff {desired live : Dict Json} (hd : (Json.obj desired).WellFormed)
    (hl : (Json.obj live).WellFormed) :
    (mergeMembers desired live).1 = true ↔ sameMembers (mergeMembers desired live).2 live = false := by
  have hkey : "" ≠ payloadKey := by decide
  constructor
  · intro hflag
    have hx : mergeMember "" (.obj desired) (some (.obj live)) =
        some (.obj (mergeMembers desired live).2) := by
      rw [mergeMember_obj _ _ hkey, hflag]
      rfl
    exact mergeMember_differs hd hx
  · intro hdiffers
    by_contra hflag
    rw [mergeMembers_of_unchanged (by simpa using hflag)] at hdiffers
    have hrefl : sameMembers live live = true := same_refl hl
    rw [hrefl] at hdiffers
    cases hdiffers

/-- A second merge of the same desired members changes nothing. -/
theorem mergeMembers_merged {desired live : Dict Json} (hd : (Json.obj desired).WellFormed) :
    mergeMembers desired (mergeMembers desired live).2 = (false, (mergeMembers desired live).2) := by
  have hsettled : (mergeMembers desired (mergeMembers desired live).2).1 = false := by
    rw [merge_settled_iff hd.keys_nodup]
    intro key want hw
    rw [lookup_mergeMembers hd.keys_nodup, hw]
    exact mergeMember_merged (hd.lookup hw)
  exact Prod.ext hsettled (mergeMembers_of_unchanged hsettled)

/-- **The merge law.** The flag is set exactly if the result differs, and the result is the live
object itself if it is not; a second merge changes nothing; and along every path the desired value
is found at the first point where it replaces the live one, what was there before is found where the
path leaves the desired value earlier than that, and every desired value that is no object is
found. -/
theorem merge_law {desired live : Dict Json} (hd : (Json.obj desired).WellFormed)
    (hl : (Json.obj live).WellFormed) :
    let merged := (mergeMembers desired live).2
    ((mergeMembers desired live).1 = true ↔ sameMembers merged live = false) ∧
    ((mergeMembers desired live).1 = false → merged = live) ∧
    mergeMembers desired merged = (false, merged) ∧
    ∀ path : List String,
      (∀ q, q <+: path → FirstReplaced (.obj desired) (.obj live) q →
        SameOption ((Json.obj merged).at? q) ((Json.obj desired).at? q)) ∧
      ((∀ q, q <+: path → ¬ Replaced (.obj desired) (.obj live) q) →
        (Json.obj desired).at? path = none →
        (Json.obj merged).at? path = (Json.obj live).at? path) ∧
      (∀ x, (Json.obj desired).at? path = some x → x.asObj? = none →
        SameOption ((Json.obj merged).at? path) (some x)) := by
  intro merged
  refine ⟨merge_changed_iff hd hl, mergeMembers_of_unchanged, mergeMembers_merged hd, ?_⟩
  intro path
  refine ⟨fun q _ hq => at?_merged_replaced hd hq, at?_merged_outside hd, ?_⟩
  intro x hx hleaf
  exact at?_merged_leaf hd hx hleaf

/-- A config map whose payload lost a key and whose metadata someone else labelled. -/
theorem merge_law_config :
    let desired : Dict Json := [("data", .obj [("a", .str "1")]), ("metadata", .obj [("name", .str "c")])]
    let live : Dict Json := [("data", .obj [("a", .str "1"), ("b", .str "2")]),
      ("metadata", .obj [("labels", .obj []), ("name", .str "c")])]
    (Json.obj desired).WellFormed ∧ (Json.obj live).WellFormed ∧
      sameMembers (mergeMembers desired live).2 live = false ∧
      mergeMembers desired (mergeMembers desired live).2 = (false, (mergeMembers desired live).2) := by
  intro desired live
  have hd : (Json.obj desired).WellFormed := by
    simp only [desired, WellFormed, WellFormedMembers, Table.Sorted]
    decide
  have hl : (Json.obj live).WellFormed := by
    simp only [live, WellFormed, WellFormedMembers, Table.Sorted]
    decide
  have h := merge_law hd hl
  exact ⟨hd, hl, h.1.1 (by decide), h.2.2.1⟩

end ReleaseKeeper.Json
