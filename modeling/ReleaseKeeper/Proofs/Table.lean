import Mathlib.Data.List.Induction
import ReleaseKeeper.Table

/-!
# Changes keep the order of a table

Setting, dropping and changing an entry of a sorted table leave it sorted, so what was built from
sorted members by such steps can be merged again. Setting an entry again replaces it (`put_put`).
`lookup_adjust` is the look-up law of the one change that `Table` leaves without. Changes of different
entries commute (`put_comm`, `adjust_put_comm`), so setting the same entries again changes nothing
(`overlay_overlay`). Entries can be set before or after their values are changed one by one
(`map_put`, `map_overlay`). Entries of different keys are all kept (`ofEntries_perm`).
-/
namespace ReleaseKeeper.Table

variable {α : Type} {key : String} {entries : Dict α}

theorem sorted_cons {e : String × α} :
    Sorted (e :: entries) ↔ (∀ e' ∈ entries, e.1 < e'.1) ∧ Sorted entries := by
  simp [Sorted, KeyOrder.before]

theorem mem_put {κ : Type} [DecidableEq κ] [KeyOrder κ] {key : κ} {value : α} {e : κ × α} :
    ∀ {entries : Table κ α}, e ∈ put key value entries → e = (key, value) ∨ e ∈ entries
  | [], h => .inl (List.mem_singleton.1 h)
  | (k, v) :: rest, h => by
    rw [put] at h
    split at h
    · exact (List.mem_cons.1 h).imp id (List.mem_cons_of_mem _)
    · split at h
      · exact List.mem_cons.1 h
      · rcases List.mem_cons.1 h with rfl | h
        · exact .inr List.mem_cons_self
        · exact (mem_put h).imp id (List.mem_cons_of_mem _)

theorem sorted_put {value : α} : ∀ {entries : Dict α}, Sorted entries → Sorted (put key value entries)
  | [], _ => List.pairwise_singleton _ _
  | (k, v) :: rest, h => by
    obtain ⟨hk, hrest⟩ := sorted_cons.1 h
    rw [put]
    split
    · next heq => exact sorted_cons.2 ⟨heq ▸ hk, hrest⟩
    · next hne =>
      split
      · next hbefore =>
        have hlt : key < k := by simpa [KeyOrder.before] using hbefore
        refine sorted_cons.2 ⟨List.forall_mem_cons.2 ⟨hlt, fun e he => ?_⟩, h⟩
        exact String.lt_trans hlt (hk e he)
      · next hbefore =>
        have hle : ¬ key < k := by simpa [KeyOrder.before] using hbefore
        have hlt : k < key := by
          refine String.not_le.1 fun hkey => hne (String.le_antisymm hkey ?_)
          exact String.not_lt.1 hle
        refine sorted_cons.2 ⟨fun e he => ?_, sorted_put hrest⟩
        rcases mem_put he with rfl | he
        · exact hlt
        · exact hk e he

/-- Of two values that a key is set to the later counts. -/
theorem put_put (x y : α) :
    ∀ entries : Dict α, put key y (put key x entries) = put key y entries
  | [] => by simp [put]
  | (k, v) :: rest => by
    by_cases hkey : key = k
    · simp [put, hkey]
    · by_cases hbefore : KeyOrder.before key k = true
      · simp [put, hkey, hbefore]
      · simp [put, hkey, hbefore, put_put x y rest]

theorem sorted_drop (h : Sorted entries) : Sorted (drop key entries) :=
  List.Pairwise.filter _ h

theorem map_fst_adjust (f : α → α) :
    ∀ entries : Dict α, (adjust key f entries).map (·.1) = entries.map (·.1)
  | [] => rfl
  | (k, v) :: rest => by
    rw [adjust]
    split
    · rfl
    · rw [List.map_cons, map_fst_adjust f rest, List.map_cons]

/-- Only the keys matter for the order. -/
theorem sorted_congr {β : Type} {other : Dict β} (h : other.map (·.1) = entries.map (·.1)) :
    Sorted other ↔ Sorted entries := by
  have hkeys : ∀ {γ : Type} (t : Dict γ),
      Sorted t ↔ (t.map (·.1)).Pairwise fun a b => KeyOrder.before a b = true := fun t => by
    rw [Sorted, List.pairwise_map]
  rw [hkeys, hkeys, h]

theorem sorted_adjust {f : α → α} (h : Sorted entries) : Sorted (adjust key f entries) :=
  (sorted_congr (map_fst_adjust f entries)).2 h

theorem lookup_adjust (f : α → α) (j : String) : ∀ entries : Dict α,
    (adjust key f entries).lookup j =
      if j = key then (entries.lookup j).map f else entries.lookup j
  | [] => by simp [adjust]
  | (k, v) :: rest => by
    rw [adjust]
    split
    · next h =>
      subst h
      by_cases hj : j = key <;> simp [List.lookup_cons, beq_false_of_ne, hj]
    · next h =>
      rw [List.lookup_cons, List.lookup_cons, lookup_adjust f j rest]
      by_cases hj : j = k
      · have hne : ¬ k = key := fun e => h e.symm
        simp [hj, hne]
      · simp [beq_false_of_ne hj]

/-! ## Changes of different entries

These hold of every table, whether it is sorted or not: `put` and `adjust` look for their place from
the front.
-/

section

variable {j k : String} {y : α}

/-- Of two different keys one comes before the other. -/
theorem before_of_ne (h : j ≠ k) : KeyOrder.before k j = !KeyOrder.before j k := by
  have hiff : k < j ↔ ¬ j < k :=
    ⟨fun hkj hjk => String.lt_irrefl k (String.lt_trans hkj hjk), fun hjk =>
      String.not_le.1 fun hle => h (String.le_antisymm hle (String.not_lt.1 hjk))⟩
  simp only [KeyOrder.before]
  by_cases hjk : j < k <;> simp [hjk, hiff]

theorem before_trans {l : String} (hjk : KeyOrder.before j k = true)
    (hkl : KeyOrder.before k l = true) : KeyOrder.before j l = true := by
  simp only [KeyOrder.before, decide_eq_true_eq] at *
  exact String.lt_trans hjk hkl

/-- Entries of different keys are set in any order. -/
theorem put_comm (h : j ≠ k) (x y : α) :
    ∀ entries : Dict α, put j x (put k y entries) = put k y (put j x entries)
  | [] => by
    have hjk := before_of_ne h
    grind [put]
  | (l, v) :: rest => by
    have ih := put_comm h x y rest
    have hjk := before_of_ne h
    have hswap := @before_of_ne
    have htrans := @before_trans
    grind [put]

theorem adjust_put_comm (h : j ≠ k) (f : α → α) (y : α) :
    ∀ entries : Dict α, adjust j f (put k y entries) = put k y (adjust j f entries)
  | [] => by simp [put, adjust, h]
  | (l, v) :: rest => by
    have ih := adjust_put_comm h f y rest
    grind [put, adjust]

theorem adjust_adjust (f g : α → α) :
    ∀ entries : Dict α, adjust key g (adjust key f entries) = adjust key (g ∘ f) entries
  | [] => rfl
  | (k, v) :: rest => by
    have ih := adjust_adjust f g rest
    grind [adjust]

theorem adjust_congr {f g : α → α} : ∀ {entries : Dict α},
    (∀ v, entries.lookup key = some v → f v = g v) → adjust key f entries = adjust key g entries
  | [], _ => rfl
  | (k, v) :: rest, h => by
    rw [adjust, adjust]
    rw [List.lookup_cons] at h
    split
    · next hk => rw [h v (by simp [hk])]
    · next hk => rw [adjust_congr fun w hw => h w (by simpa [beq_false_of_ne hk] using hw)]

@[simp] theorem adjust_id : adjust key (id : α → α) = id := by
  funext entries
  induction entries with
  | nil => rfl
  | cons e rest ih =>
    rw [adjust]
    split
    · rfl
    · rw [ih, id, id]

/-- Nothing changes where the value of the key stays. -/
theorem adjust_eq_self {f : α → α} {entries : Dict α}
    (h : ∀ v, entries.lookup key = some v → f v = v) : adjust key f entries = entries :=
  (adjust_congr h).trans (congrFun adjust_id entries)

/-- An entry that is set stays so when another one is dropped. -/
theorem put_drop_of_eq (h : j ≠ k) : ∀ {entries : Dict α}, put k y entries = entries →
    put k y (drop j entries) = drop j entries
  | [], hset => absurd hset (by simp [put])
  | (l, v) :: rest, hset => by
    have ih := @put_drop_of_eq h rest
    have hcons : drop j ((l, v) :: rest) = if l = j then drop j rest else (l, v) :: drop j rest := by
      by_cases hl : l = j <;> simp [drop, hl]
    grind [put]

end

/-! ## Values changed one by one -/

variable {β : Type}

theorem map_put (f : α → β) (value : α) : ∀ entries : Dict α,
    (put key value entries).map (fun e => (e.1, f e.2)) =
      put key (f value) (entries.map fun e => (e.1, f e.2))
  | [] => rfl
  | (k, v) :: rest => by
    rw [put, List.map_cons, put]
    split
    · rfl
    · split
      · rfl
      · rw [List.map_cons, map_put f value rest]

theorem map_overlay (f : α → β) (base : Dict α) (entries : Dict α) :
    (overlay entries base).map (fun e => (e.1, f e.2)) =
      overlay (entries.map fun e => (e.1, f e.2)) (base.map fun e => (e.1, f e.2)) := by
  induction entries generalizing base with
  | nil => rfl
  | cons e rest ih => exact (ih _).trans (congrArg (overlay _) (map_put f e.2 base))

theorem put_ne_nil {value : α} : put key value entries ≠ [] := by
  intro h
  have hlookup := lookup_put key key value entries
  rw [h, if_pos rfl] at hlookup
  cases hlookup

@[simp] theorem overlay_nil (base : Dict α) : overlay [] base = base := rfl

/-- Only no entries, put into no table, leave none. -/
theorem overlay_eq_nil {base : Dict α} : overlay entries base = [] ↔ entries = [] ∧ base = [] := by
  induction entries generalizing base with
  | nil => simp [overlay]
  | cons e rest ih =>
    refine ⟨fun h => absurd (ih.1 h).2 put_ne_nil, ?_⟩
    rintro ⟨⟨⟩, -⟩

/-- What is set again in the end need not be set before. -/
theorem put_overlay_put (x y : α) (base : Dict α) :
    put key y (overlay entries (put key x base)) = put key y (overlay entries base) := by
  induction entries generalizing base with
  | nil => exact put_put x y base
  | cons e rest ih =>
    change put key y (overlay rest (put e.1 e.2 (put key x base))) =
      put key y (overlay rest (put e.1 e.2 base))
    by_cases hkey : e.1 = key
    · rw [hkey, put_put]
    · rw [put_comm hkey, ih]

/-- Setting the same entries again changes nothing. -/
theorem overlay_overlay (base : Dict α) :
    overlay entries (overlay entries base) = overlay entries base := by
  have hlast : ∀ (before : List (String × α)) (e : String × α) (base : Dict α),
      overlay (before ++ [e]) base = put e.1 e.2 (overlay before base) := fun before e base => by
    rw [overlay, List.foldl_append]
    rfl
  induction entries using List.reverseRecOn generalizing base with
  | nil => rfl
  | append_singleton before e ih =>
    rw [hlast, hlast, put_overlay_put, ih]

/-! ## Tables of entries with different keys -/

theorem put_perm {value : α} : ∀ {entries : Dict α}, key ∉ entries.map (·.1) →
    (put key value entries).Perm ((key, value) :: entries)
  | [], _ => .refl _
  | (k, v) :: rest, h => by
    obtain ⟨hk, hrest⟩ : key ≠ k ∧ key ∉ rest.map (·.1) := by simpa using h
    rw [put, if_neg hk]
    split
    · exact .refl _
    · exact ((put_perm hrest).cons (k, v)).trans (.swap ..)

/-- What is put into a table is in it, or was in it before. -/
theorem mem_overlay {e : String × α} : ∀ (entries base : Dict α),
    e ∈ overlay entries base → e ∈ entries ∨ e ∈ base
  | [], _, h => .inr h
  | (k, v) :: rest, base, h => by
    obtain h | h := mem_overlay rest (put k v base) h
    · exact .inl (List.mem_cons_of_mem _ h)
    · obtain rfl | h := mem_put h
      · exact .inl List.mem_cons_self
      · exact .inr h

/-- Entries of different keys are all kept. -/
theorem overlay_perm : ∀ (entries base : Dict α), ((entries ++ base).map (·.1)).Nodup →
    (overlay entries base).Perm (entries ++ base)
  | [], _, _ => .refl _
  | (k, v) :: rest, base, h => by
    obtain ⟨hk, hn⟩ := List.nodup_cons.1 h
    have hbase : base.map (·.1) ⊆ (rest ++ base).map (·.1) :=
      List.map_subset _ (List.subset_append_right rest base)
    have hput : (put k v base).Perm ((k, v) :: base) := put_perm fun hmem => hk (hbase hmem)
    have hmoved : (rest ++ put k v base).Perm ((k, v) :: (rest ++ base)) :=
      (hput.append_left rest).trans List.perm_middle
    refine .trans (overlay_perm rest (put k v base) ?_) hmoved
    exact (hmoved.map _).nodup_iff.2 (List.nodup_cons.2 ⟨hk, hn⟩)

theorem ofEntries_perm (h : (entries.map (·.1)).Nodup) : (ofEntries entries).Perm entries := by
  have hperm := overlay_perm entries [] (by rwa [List.append_nil])
  rwa [List.append_nil] at hperm

theorem lookup_map (f : α → β) (j : String) : ∀ entries : Dict α,
    (entries.map fun e => (e.1, f e.2)).lookup j = (entries.lookup j).map f
  | [] => rfl
  | (k, v) :: rest => by
    rw [List.map_cons, List.lookup_cons, List.lookup_cons]
    cases j == k
    · exact lookup_map f j rest
    · rfl

end ReleaseKeeper.Table
