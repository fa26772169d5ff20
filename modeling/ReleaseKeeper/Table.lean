/-!
# Tables in key order

A table is a list of entries in increasing order of their keys. `put` keeps that order and replaces
the entry of an equal key, so the last value given for a key is the one that is kept. The look-up
laws hold for every list of entries; only questions of order ask for `Sorted`.
-/
namespace ReleaseKeeper

class KeyOrder (κ : Type) where
  before : κ → κ → Bool

instance : KeyOrder String := ⟨fun a b => a < b⟩

/-- Entries in increasing order of their keys. -/
abbrev Table (κ α : Type) := List (κ × α)

abbrev Dict (α : Type) := Table String α

namespace Table

variable {κ α : Type} [DecidableEq κ] [KeyOrder κ]

def Sorted (entries : Table κ α) : Prop :=
  entries.Pairwise fun a b => KeyOrder.before a.1 b.1 = true

def put (key : κ) (value : α) : Table κ α → Table κ α
  | [] => [(key, value)]
  | (k, v) :: rest =>
    if key = k then (key, value) :: rest
    else if KeyOrder.before key k then (key, value) :: (k, v) :: rest
    else (k, v) :: put key value rest

def drop (key : κ) (entries : Table κ α) : Table κ α :=
  entries.filter fun e => e.1 != key

/-- Puts every entry into a table, one after another. -/
def overlay (entries : List (κ × α)) (base : Table κ α) : Table κ α :=
  entries.foldl (fun t e => put e.1 e.2 t) base

/-- The table of some entries; of two entries with one key the later counts. -/
def ofEntries (entries : List (κ × α)) : Table κ α := overlay entries []

def adjust (key : κ) (f : α → α) : Table κ α → Table κ α
  | [] => []
  | (k, v) :: rest => if key = k then (k, f v) :: rest else (k, v) :: adjust key f rest

theorem lookup_put (key j : κ) (value : α) (entries : Table κ α) :
    (put key value entries).lookup j = if j = key then some value else entries.lookup j := by
  induction entries with
  | nil => by_cases h : j = key <;> simp [put, List.lookup_cons, beq_false_of_ne, h]
  | cons e rest ih =>
    obtain ⟨k, v⟩ := e
    unfold put
    split
    · next h => subst h; by_cases hj : j = key <;> simp [List.lookup_cons, beq_false_of_ne, hj]
    · split
      · by_cases hj : j = key <;> simp [List.lookup_cons, beq_false_of_ne, hj]
      · next h _ =>
        by_cases hk : j = k
        · subst hk
          have : ¬ j = key := fun e => h e.symm
          simp [this]
        · simp [List.lookup_cons, beq_false_of_ne, hk, ih]

omit [KeyOrder κ] in
theorem lookup_drop (key j : κ) (entries : Table κ α) :
    (drop key entries).lookup j = if j = key then none else entries.lookup j := by
  induction entries with
  | nil => simp [drop]
  | cons e rest ih =>
    obtain ⟨k, v⟩ := e
    by_cases hk : k = key
    · have hd : drop key ((k, v) :: rest) = drop key rest := by simp [drop, hk]
      rw [hd, ih]
      by_cases hj : j = key <;> simp [List.lookup_cons, beq_false_of_ne, hk, hj]
    · have hd : drop key ((k, v) :: rest) = (k, v) :: drop key rest := by simp [drop, hk]
      rw [hd]
      by_cases hj : j = k
      · subst hj; simp [hk]
      · simp [List.lookup_cons, beq_false_of_ne, hj, ih]

end Table

end ReleaseKeeper
