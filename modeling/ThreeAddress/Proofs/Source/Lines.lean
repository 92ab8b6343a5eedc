import ThreeAddress.Source.Line

/-!
Lines and words as pieces of a text. Cutting a text character by character finds the pieces between
line feeds, and in each of them the pieces between blanks.
-/

namespace ThreeAddress.Source

/-- The words of a line: the pieces between ASCII blanks before the first comment mark. -/
def codeWords (line : List Char) : List String :=
  (((line.takeWhile (· ≠ commentMark)).splitOnP Text.isAsciiBlank).filter (· ≠ [])).map
    String.ofList

/-- The lines that have words among lines that are numbered from a number on. -/
def codeLinesFrom (number : Nat) (lines : List (List Char)) : List Line :=
  ((lines.zipIdx number).map fun (line, number) => Line.mk number (codeWords line)).filter
    (·.words ≠ [])

/-- The lines of a text that have words: lines are the pieces between line feeds. -/
def codeLines (text : List Char) : List Line :=
  codeLinesFrom 1 (text.splitOn '\n')

/-- The number of lines: one for each line feed, and one for what stands behind the last. -/
def lineCount (text : List Char) : Nat :=
  text.count '\n' + if text = [] ∨ text.getLast? = some '\n' then 0 else 1

/-- The words of a text are its pieces between blanks, other than the empty ones. -/
theorem words_eq_splitOnP (text : List Char) :
    words text = (text.splitOnP Text.isAsciiBlank).filter (· ≠ []) := by
  -- A character that is no blank goes to the first piece of the rest, which may be empty.
  induction text with
  | nil => simp [words, List.splitOnP_nil]
  | cons c rest ih =>
    rw [words.eq_def, List.splitOnP_cons_eq_if_modifyHead]
    dsimp only
    split
    · rw [ih]
      simp
    · cases rest with
      | nil => simp [List.splitOnP_nil]
      | cons next others =>
        rw [List.splitOnP_cons_eq_if_modifyHead] at ih ⊢
        dsimp only
        split
        · rename_i blank
          rw [if_pos blank] at ih
          rw [ih]
          simp
        · rename_i visible
          rw [if_neg visible] at ih
          obtain ⟨piece, pieces, pulled⟩ :=
            List.exists_cons_of_ne_nil (List.splitOnP_ne_nil Text.isAsciiBlank others)
          rw [ih, pulled]
          simp

/-- The words before a comment are the pieces before it. -/
theorem lineWords_eq (line : List Char) : lineWords line = codeWords line := by
  -- Both take the part before the comment and split it at blanks.
  rw [lineWords, codeWords, words_eq_splitOnP]

/-- A final line feed ends the last line, where splitting finds one more piece behind it. -/
theorem splitOn_eq_cutLines (text : List Char) :
    ∃ tail, (tail = [] ∨ tail = [[]]) ∧ text.splitOn '\n' = cutLines text ++ tail := by
  unfold List.splitOn
  induction text with
  | nil => exact ⟨[[]], .inr rfl, rfl⟩
  | cons c rest ih =>
    obtain ⟨tail, kind, pieces⟩ := ih
    rw [List.splitOnP_cons_eq_if_modifyHead, cutLines, pieces]
    by_cases feed : c = '\n'
    · exact ⟨tail, kind, by simp [feed]⟩
    · cases lines : cutLines rest with
      | nil =>
        -- There is a piece in any case, so it is an empty one that is behind all lines.
        rw [lines] at pieces
        rcases kind with rfl | rfl
        · exact absurd pieces (List.splitOnP_ne_nil _ rest)
        · exact ⟨[], .inl rfl, by simp [feed]⟩
      | cons line lines => exact ⟨tail, kind, by simp [feed]⟩

private theorem numberLines_eq (number : Nat) (lines : List (List Char)) :
    numberLines number lines = codeLinesFrom number lines := by
  -- A line is numbered in any case, and dropped if it has no words.
  induction lines generalizing number with
  | nil => rfl
  | cons line rest ih =>
    rw [numberLines, lineWords_eq, ih (number + 1)]
    cases found : codeWords line with
    | nil => simp [codeLinesFrom, found]
    | cons word words => simp [codeLinesFrom, found]

/-- The numbered lines of a text are its lines that have words. -/
theorem numberLines_cutLines (text : List Char) :
    numberLines 1 (cutLines text) = codeLines text := by
  -- A text that ends in a line feed has one more piece than it has lines.
  obtain ⟨tail, kind, pieces⟩ := splitOn_eq_cutLines text
  rw [numberLines_eq, codeLines, pieces]
  rcases kind with rfl | rfl
  · rw [List.append_nil]
  · -- The piece behind a final line feed has no words.
    have empty : codeWords [] = [] := by decide
    simp [codeLinesFrom, List.zipIdx_append, empty]

private theorem cutLines_ne_nil (c : Char) (rest : List Char) : cutLines (c :: rest) ≠ [] := by
  -- The first character is on some line.
  rw [cutLines]
  split
  · exact List.cons_ne_nil _ _
  · split <;> exact List.cons_ne_nil _ _

/-- A text is cut into as many lines as it has. -/
theorem length_cutLines (text : List Char) : (cutLines text).length = lineCount text := by
  unfold lineCount
  induction text with
  | nil => rfl
  | cons c rest ih =>
    cases rest with
    | nil => by_cases feed : c = '\n' <;> simp [cutLines, feed]
    | cons next others =>
      -- The text ends as its rest does, and a line feed ends one more line.
      rw [List.getLast?_cons_cons, cutLines]
      split
      · rename_i feed
        rw [List.length_cons, ih, feed, List.count_cons_self]
        simp only [reduceCtorEq, false_or]
        omega
      · rename_i inside
        rw [List.count_cons_of_ne inside]
        split
        · rename_i none
          exact absurd none (cutLines_ne_nil next others)
        · rename_i line lines cut
          rw [cut] at ih
          simpa using ih

/-- The lines that have words do have words. -/
theorem words_of_mem_codeLines {text : List Char} {line : Line} (member : line ∈ codeLines text) :
    line.words ≠ [] :=
  of_decide_eq_true (List.mem_filter.mp member).2

/-- Every line with words has a character, its own or the line feed that ends it. -/
theorem length_codeLines (text : List Char) : (codeLines text).length ≤ text.length := by
  -- No line is made without a character, and only some of the lines have words.
  have cut : (cutLines text).length ≤ text.length := by
    induction text with
    | nil => exact Nat.le_refl 0
    | cons c rest ih =>
      rw [cutLines]
      split
      · exact Nat.succ_le_succ ih
      · split
        · exact Nat.succ_le_succ (Nat.zero_le _)
        · rename_i line lines cut
          rw [cut] at ih
          exact Nat.le_succ_of_le ih
  rw [← numberLines_cutLines, numberLines_eq, codeLinesFrom]
  refine Nat.le_trans (List.length_filter_le _ _) ?_
  rw [List.length_map, List.length_zipIdx]
  exact cut

end ThreeAddress.Source
