import Mathlib.Data.List.Basic
import ReleaseKeeper.Proofs.Json.Equality

/-!
# Lists that get entries by their names

Volumes, mounts and variables are put into lists by their names, whatever else the lists hold: items
without a name, or several of one name. An entry that is put there comes first among what goes by its
name, and what goes by other names is left as it was (`received_putNamed`). So entries of different
names leave each other where they are (`Received.trans`).
-/
namespace ReleaseKeeper.Json

/-- What goes by a name in a list. -/
def Named (name : String) (x : Json) : Prop := x.getStr? "name" = some name

instance (name : String) : DecidablePred (Named name) := fun x =>
  inferInstanceAs (Decidable (x.getStr? "name" = some name))

/-- What goes by none of some names. -/
def others (names : List String) (items : List Json) : List Json :=
  items.filter fun x => names.all fun name => !decide (x.Named name)

/-- A list that got entries, each told by its name: each of them comes first among what goes by its
name, and what goes by other names is as it was. -/
structure Received (entries : List (String × Json)) (before after : List Json) : Prop where
  first : ∀ e ∈ entries, after.find? (fun x => decide (x.Named e.1)) = some e.2
  kept : others (entries.map (·.1)) after = others (entries.map (·.1)) before

variable {name : String} {names : List String} {entry : Json} {items : List Json}

theorem putNamed_cons (h : entry.Named name) (x : Json) (rest : List Json) :
    putNamed entry (x :: rest) =
      if x.Named name then entry :: rest else x :: putNamed entry rest := by
  have hentry : entry.get? "name" = some (.str name) := by
    obtain ⟨y, hy, htext⟩ := Option.bind_eq_some_iff.1 h
    cases y with
    | str s => rw [hy, Option.some.inj htext]
    | _ => cases htext
  rw [putNamed, hentry, beq_some_str]
  exact if_congr decide_eq_true_iff rfl rfl

theorem mem_others {x : Json} :
    x ∈ others names items ↔ x ∈ items ∧ ∀ name ∈ names, ¬ x.Named name := by
  simp [others]

theorem others_cons (x : Json) (rest : List Json) :
    others [name] (x :: rest) = if x.Named name then others [name] rest else x :: others [name] rest := by
  by_cases hx : x.Named name <;> simp [others, hx]

theorem others_append (names more : List String) (items : List Json) :
    others (names ++ more) items = others names (others more items) := by
  rw [others, others, others, List.filter_filter]
  exact List.filter_congr fun x _ => List.all_append

theorem others_comm (names more : List String) (items : List Json) :
    others names (others more items) = others more (others names items) :=
  List.filter_comm _ _ _

/-- What comes first of a name is the same without what goes by other names. -/
theorem find?_others (h : name ∉ names) (items : List Json) :
    (others names items).find? (fun x => decide (x.Named name)) =
      items.find? fun x => decide (x.Named name) := by
  rw [others, List.find?_filter]
  refine congrArg (List.find? · items) (funext fun x => ?_)
  by_cases hx : x.Named name
  · have hnone : ∀ other ∈ names, ¬ x.Named other := by
      rintro other hother hx'
      obtain rfl : name = other := Option.some.inj (hx.symm.trans hx')
      exact h hother
    simpa [hx] using hnone
  · simp [hx]

/-- An entry is put where the first one of its name was, or else behind all others. -/
theorem received_putNamed (h : entry.Named name) (items : List Json) :
    Received [(name, entry)] items (putNamed entry items) := by
  induction items with
  | nil =>
    refine ⟨List.forall_mem_singleton.2 ?_, ?_⟩
    · rw [putNamed, List.find?_cons_of_pos (by simpa using h)]
    · exact (others_cons entry []).trans (if_pos h)
  | cons x rest ih =>
    have hfirst := List.forall_mem_singleton.1 ih.first
    rw [putNamed_cons h]
    by_cases hx : x.Named name
    · rw [if_pos hx]
      refine ⟨List.forall_mem_singleton.2 (List.find?_cons_of_pos (by simpa using h)), ?_⟩
      rw [List.map_singleton, others_cons, others_cons, if_pos h, if_pos hx]
    · rw [if_neg hx]
      refine ⟨List.forall_mem_singleton.2 ?_, ?_⟩
      · rw [List.find?_cons_of_neg (by simpa using hx), hfirst]
      · have hkept : others [name] (putNamed entry rest) = others [name] rest := ih.kept
        rw [List.map_singleton, others_cons, others_cons, if_neg hx, if_neg hx, hkept]

/-- Entries of other names are not put away. -/
theorem exists_named_putNamed {otherName : String} (h : entry.Named name) (hne : name ≠ otherName)
    (hitems : ∃ x ∈ items, x.Named otherName) : ∃ x ∈ putNamed entry items, x.Named otherName := by
  obtain ⟨x, hx, hnamed⟩ := hitems
  have hother : x ∈ others [name] items :=
    mem_others.2 ⟨hx, List.forall_mem_singleton.2 fun hx' =>
      hne (Option.some.inj (hx'.symm.trans hnamed))⟩
  have hkept : others [name] (putNamed entry items) = others [name] items :=
    (received_putNamed h items).kept
  rw [← hkept] at hother
  exact ⟨x, (mem_others.1 hother).1, hnamed⟩

/-- Where nothing goes by its name, an entry is put behind all others. -/
theorem putNamed_of_absent (h : entry.Named name) (hitems : ∀ x ∈ items, ¬ x.Named name) :
    putNamed entry items = items ++ [entry] := by
  induction items with
  | nil => rfl
  | cons x rest ih =>
    obtain ⟨hx, hrest⟩ := List.forall_mem_cons.1 hitems
    rw [putNamed_cons h, if_neg hx, ih hrest, List.cons_append]

namespace Received

variable {entries more : List (String × Json)} {a b c : List Json}

/-- Entries of other names leave entries where they are. -/
theorem trans (h : Received entries a b) (h' : Received more b c)
    (hnames : ∀ e ∈ entries, ∀ e' ∈ more, e.1 ≠ e'.1) : Received (entries ++ more) a c := by
  refine ⟨List.forall_mem_append.2 ⟨fun e he => ?_, h'.first⟩, ?_⟩
  · have hother : e.1 ∉ more.map (·.1) := fun hmem => by
      obtain ⟨e', he', heq⟩ := List.mem_map.1 hmem
      exact hnames e he e' he' heq.symm
    rw [← find?_others hother, h'.kept, find?_others hother, h.first e he]
  · rw [List.map_append, others_append, h'.kept, others_comm, h.kept, others_comm, ← others_append]

theorem trans_map {α : Type} {f : α → String × Json} {xs ys : List α}
    (h : Received (xs.map f) a b) (h' : Received (ys.map f) b c)
    (hnames : ∀ x ∈ xs, ∀ y ∈ ys, (f x).1 ≠ (f y).1) : Received ((xs ++ ys).map f) a c := by
  rw [List.map_append]
  refine h.trans h' ?_
  simpa only [List.forall_mem_map] using hnames

/-- What goes by other names was there before. -/
theorem mem_of_mem (h : Received entries a b) {x : Json} (hx : x ∈ b)
    (hnames : ∀ e ∈ entries, ¬ x.Named e.1) : x ∈ a := by
  have hkept : x ∈ others (entries.map (·.1)) b :=
    mem_others.2 ⟨hx, List.forall_mem_map.2 hnames⟩
  rw [h.kept] at hkept
  exact (mem_others.1 hkept).1

end Received

end ReleaseKeeper.Json
