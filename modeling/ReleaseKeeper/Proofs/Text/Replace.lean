import Mathlib.Data.List.Infix
import ReleaseKeeper.Text.Cut

/-!
# What replacing a placeholder comes to

A text is cut at the first occurrence of the placeholder, which makes way for the new text, and so on
behind it; what is left in the end has no occurrence (`Replaced`). So no two of the occurrences that
are replaced overlap, and what was put in is not looked at again. There is one way to do that
(`Replaced.unique`), and it is what `replaceAll` does (`replaceAll_eq_iff`).
-/
namespace ReleaseKeeper.Text

/-- A text with every occurrence of a mark replaced, from left to right and in one pass. -/
inductive Replaced (mark new : List Char) : List Char → List Char → Prop
  /-- Where there is no occurrence the text stays. -/
  | last {text : List Char} (h : ¬ mark <:+: text) : Replaced mark new text text
  /-- The mark is at the end of `before ++ mark` and nowhere earlier. -/
  | first {before after out : List Char} (h : ∀ a b, before ++ mark = a ++ mark ++ b → b = [])
      (later : Replaced mark new after out) :
      Replaced mark new (before ++ mark ++ after) (before ++ new ++ out)

variable {mark new text out out' : List Char} {c : Char}

/-- A mark at the beginning is the first one. -/
theorem Replaced.behind_mark (h : Replaced mark new text out) :
    Replaced mark new (mark ++ text) (new ++ out) := by
  refine @Replaced.first mark new [] text out (fun a b hab => ?_) h
  have hlength := congrArg List.length hab
  simp only [List.length_append, List.length_nil] at hlength
  exact List.length_eq_zero_iff.1 (by omega)

/-- A character at which no mark begins stays. -/
theorem Replaced.cons (h : Replaced mark new text out) (hc : ¬ mark <+: c :: text) :
    Replaced mark new (c :: text) (c :: out) := by
  cases h with
  | last h => exact .last fun hin => (List.infix_cons_iff.1 hin).elim hc h
  | @first before after out h later =>
    refine @Replaced.first mark new (c :: before) after out (fun a b hab => ?_) later
    cases a with
    | nil =>
      refine absurd ⟨b ++ after, ?_⟩ hc
      have hmark : mark ++ b = c :: (before ++ mark) := by simpa using hab.symm
      rw [← List.append_assoc, hmark, List.cons_append]
    | cons d a => exact h a b (List.cons.inj hab).2

theorem Replaced.unique (h : Replaced mark new text out) (h' : Replaced mark new text out') :
    out = out' := by
  induction h generalizing out' with
  | last hnone =>
    cases h' with
    | last => rfl
    | first => exact absurd ⟨_, _, rfl⟩ hnone
  | @first before after out hfirst later ih =>
    generalize htext : before ++ mark ++ after = text' at h'
    cases h' with
    | last hnone => exact absurd ⟨_, _, htext⟩ hnone
    | @first before' after' out' hfirst' later' =>
      -- of two first occurrences neither is before the other
      have hends : before ++ mark = before' ++ mark := by
        have hone : before ++ mark <+: before ++ mark ++ after := ⟨after, rfl⟩
        have hother : before' ++ mark <+: before ++ mark ++ after := ⟨after', htext.symm⟩
        obtain ⟨b, hb⟩ | ⟨b, hb⟩ := List.prefix_or_prefix_of_prefix hone hother
        · rw [← hb, hfirst' before b hb.symm, List.append_nil]
        · rw [← hb, hfirst before' b hb.symm, List.append_nil]
      obtain rfl := List.append_cancel_right hends
      obtain rfl := List.append_cancel_left htext
      rw [ih later']

/-- The scan for the mark does it, if the fuel lasts. -/
theorem replaced_replaceFrom (hmark : mark ≠ []) (new : List Char) : ∀ {fuel : Nat}
    {text : List Char}, text.length ≤ fuel → Replaced mark new text (replaceFrom mark new fuel text)
  | 0, text, h => by
    obtain rfl := List.length_eq_zero_iff.1 (Nat.le_zero.1 h)
    exact .last fun hin => hmark (List.infix_nil.1 hin)
  | _ + 1, [], _ => .last fun hin => hmark (List.infix_nil.1 hin)
  | fuel + 1, c :: rest, h => by
    rw [replaceFrom]
    cases hafter : afterPrefix mark (c :: rest) with
    | some after =>
      have htext := afterPrefix_eq_some_iff.1 hafter
      have hlength := congrArg List.length htext
      rw [List.length_append] at hlength
      have hpos := List.length_pos_iff.2 hmark
      rw [htext]
      exact (replaced_replaceFrom hmark new (by omega)).behind_mark
    | none =>
      refine (replaced_replaceFrom hmark new (by simpa using h)).cons ?_
      rintro ⟨after, htext⟩
      rw [afterPrefix_eq_some_iff.2 htext.symm] at hafter
      cases hafter

/-- **Replacing all occurrences** is replacing them from left to right in one pass. -/
theorem replaceAll_eq_iff {mark new text out : String} (hmark : mark ≠ "") :
    replaceAll mark new text = out ↔
      Replaced mark.toList new.toList text.toList out.toList := by
  have hmark' : mark.toList ≠ [] := by simpa using hmark
  have hreplaced := replaced_replaceFrom hmark' new.toList (Nat.le_refl text.toList.length)
  constructor
  · rintro rfl
    rw [replaceAll, String.toList_ofList]
    exact hreplaced
  · intro h
    rw [replaceAll, hreplaced.unique h, String.ofList_toList]

end ReleaseKeeper.Text
