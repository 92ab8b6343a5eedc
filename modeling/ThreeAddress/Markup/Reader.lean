import ThreeAddress.Markup.Character

/-! A reader takes something from the beginning of a text and hands back the rest. -/

namespace ThreeAddress.Markup

/-- Reads something at the beginning of a text and returns it with the rest of the text. -/
abbrev Reader (α : Type) := List Char → Option (α × List Char)

/-- A reader that always consumes something. -/
def Shortens {α : Type} (read : Reader α) : Prop :=
  ∀ text found, read text = some found → found.2.length < text.length

/-- A reader that may consume nothing but never adds anything. -/
def Keeps {α : Type} (read : Reader α) : Prop :=
  ∀ text found, read text = some found → found.2.length ≤ text.length

/-- Reads one thing after another until nothing is left. -/
def readAll {α : Type} (read : Reader α) (shortens : Shortens read) :
    List Char → Option (List α)
  | [] => some []
  | c :: text =>
    match _ : read (c :: text) with
    | none => none
    | some (first, rest) => (readAll read shortens rest).map (first :: ·)
termination_by text => text.length
decreasing_by exact shortens _ _ (by assumption)

/-- The rest of a text that begins with a mark. -/
def skip : List Char → List Char → Option (List Char)
  | [], text => some text
  | _ :: _, [] => none
  | m :: mark, c :: text => if m = c then skip mark text else none

/-- A text without the blanks at its beginning. -/
def skipSpaces (text : List Char) : List Char :=
  text.dropWhile isSpace

/-- What stands before the first occurrence of a mark, and what stands after it. -/
def cutAt (mark : List Char) : List Char → Option (List Char × List Char)
  | [] => (skip mark []).map ([], ·)
  | c :: rest =>
    match skip mark (c :: rest) with
    | some after => some ([], after)
    | none => (cutAt mark rest).map fun (before, after) => (c :: before, after)

/-- Skipping takes away the length of the mark. -/
theorem length_skip {mark text rest : List Char} (found : skip mark text = some rest) :
    rest.length + mark.length = text.length := by
  -- Each character of the mark is taken together with one of the text.
  fun_induction skip mark text with
  | case1 text =>
    obtain rfl := Option.some.inj found
    rfl
  | case2 => cases found
  | case3 m mark text ih =>
    have := ih found
    simp only [List.length_cons]
    omega
  | case4 => cases found

/-- Skipping blanks never adds anything. -/
theorem length_skipSpaces (text : List Char) : (skipSpaces text).length ≤ text.length :=
  (List.dropWhile_sublist isSpace).length_le

/-- Cutting takes away at least the mark. -/
theorem length_cutAt {mark text : List Char} {parts : List Char × List Char}
    (found : cutAt mark text = some parts) : parts.2.length + mark.length ≤ text.length := by
  -- What stands before the mark only makes the text longer.
  induction text generalizing parts with
  | nil =>
    obtain ⟨rest, skipped, rfl⟩ := Option.map_eq_some_iff.1 found
    exact Nat.le_of_eq (length_skip skipped)
  | cons c text ih =>
    rw [cutAt] at found
    split at found
    · next after skipped =>
      obtain rfl := Option.some.inj found
      exact Nat.le_of_eq (length_skip skipped)
    · obtain ⟨cut, later, rfl⟩ := Option.map_eq_some_iff.1 found
      have := ih later
      simp only [List.length_cons]
      omega

end ThreeAddress.Markup
