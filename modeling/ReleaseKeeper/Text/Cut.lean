/-!
# Cutting and replacing text

Text is cut at a character or after a known beginning. Occurrences of a placeholder are replaced from
left to right in one pass. The text that is put in is not read again, so a replacement that holds the
placeholder is kept as it is.
-/
namespace ReleaseKeeper.Text

/-- The characters before and after the first occurrence of `mark`. -/
def cutFirst (mark : Char) : List Char → Option (List Char × List Char)
  | [] => none
  | c :: rest =>
    if c = mark then some ([], rest)
    else (cutFirst mark rest).map fun (before, after) => (c :: before, after)

/-- The characters before and after the last occurrence of `mark`. -/
def cutLast (mark : Char) : List Char → Option (List Char × List Char)
  | [] => none
  | c :: rest =>
    match cutLast mark rest with
    | some (before, after) => some (c :: before, after)
    | none => if c = mark then some ([], rest) else none

/-- The texts between all occurrences of `mark`. -/
def pieces (mark : Char) : List Char → List (List Char)
  | [] => [[]]
  | c :: rest =>
    if c = mark then [] :: pieces mark rest
    else
      match pieces mark rest with
      | piece :: others => (c :: piece) :: others
      | [] => [[c]]

/-- What follows a beginning, if the text has that beginning. -/
def afterPrefix : List Char → List Char → Option (List Char)
  | [], text => some text
  | _ :: _, [] => none
  | p :: ps, c :: rest => if p = c then afterPrefix ps rest else none

def replaceFrom (mark new : List Char) : Nat → List Char → List Char
  | 0, text => text
  | _ + 1, [] => []
  | fuel + 1, c :: rest =>
    match afterPrefix mark (c :: rest) with
    | some after => new ++ replaceFrom mark new fuel after
    | none => c :: replaceFrom mark new fuel rest

/-- `replace` of strings, for a placeholder that is not empty. -/
def replaceAll (mark new text : String) : String :=
  .ofList (replaceFrom mark.toList new.toList text.toList.length text.toList)

theorem eq_of_cutLast {mark : Char} {text before after : List Char}
    (h : cutLast mark text = some (before, after)) : text = before ++ mark :: after := by
  induction text generalizing before after with
  | nil => simp [cutLast] at h
  | cons c rest ih =>
    unfold cutLast at h
    split at h
    · next b a hr => simp at h; obtain ⟨rfl, rfl⟩ := h; simp [ih hr]
    · split at h
      · next hc => simp at h; obtain ⟨rfl, rfl⟩ := h; simp [hc]
      · simp at h

theorem afterPrefix_eq_some_iff {beginning text rest : List Char} :
    afterPrefix beginning text = some rest ↔ text = beginning ++ rest := by
  induction beginning generalizing text with
  | nil => simp [afterPrefix]
  | cons p ps ih =>
    cases text with
    | nil => simp [afterPrefix]
    | cons c cs =>
      unfold afterPrefix
      split
      · next h => simp [ih, h]
      · next h => simp; intro e; exact absurd e.symm h

end ReleaseKeeper.Text
