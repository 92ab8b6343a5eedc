import ThreeAddress.Machine.Input

/-!
The input as a sequence of lines. Reading takes the first line off, whatever its bytes are, and the
texts of lines do not tell whether a carriage return stands before each line feed.
-/

namespace ThreeAddress.Input

/-- The lines of an input with their ends, which the last one need not have. -/
def lines : List UInt8 → List (List UInt8)
  | [] => []
  | byte :: rest =>
    if byte = lineFeed then [byte] :: lines rest
    else
      match lines rest with
      | [] => [[byte]]
      | line :: others => (byte :: line) :: others

/-- The text of the line at an index, if there is such a line and its bytes spell a text. -/
def textAt? (input : List UInt8) (index : Nat) : Option String :=
  (lines input)[index]?.bind lineText?

/-- What is left of an input after a number of lines. -/
def dropLines (count : Nat) (input : List UInt8) : List UInt8 :=
  ((lines input).drop count).flatten

/-- The input with a carriage return before each line feed. -/
def withReturns (input : List UInt8) : List UInt8 :=
  input.flatMap fun byte => if byte = lineFeed then [carriageReturn, lineFeed] else [byte]

variable {input line : List UInt8} {count index : Nat}

/-- The lines of an input are its first line and those of the rest. -/
theorem lines_eq_cons (more : input ≠ []) :
    lines input = (cutLine input).1 :: lines (cutLine input).2 := by
  -- Both look for the first line feed, and the input is its own first line if there is none.
  induction input with
  | nil => exact absurd rfl more
  | cons byte rest ih =>
    rw [lines, cutLine]
    split
    · rfl
    · cases rest with
      | nil => rfl
      | cons second rest => rw [ih (List.cons_ne_nil _ _)]

/-- Reading takes the first line off, or nothing at the end of the input. -/
theorem lines_next (input : List UInt8) : lines (next input).2 = (lines input).tail := by
  -- The lines of an input that goes on are its first line and those of what is left.
  cases input with
  | nil => rfl
  | cons byte rest =>
    rw [lines_eq_cons (List.cons_ne_nil byte rest)]
    rfl

/-- What is read is the text of the first line, if there is one. -/
theorem next_fst (input : List UInt8) : (next input).1 = textAt? input 0 := by
  -- The first of all lines is what reading looks at.
  cases input with
  | nil => rfl
  | cons byte rest =>
    rw [textAt?, lines_eq_cons (List.cons_ne_nil byte rest)]
    rfl

/-- The lines of an input make up the input. -/
theorem flatten_lines (input : List UInt8) : (lines input).flatten = input := by
  -- A byte that ends no line is put in front of the line behind it, or is the last line itself.
  induction input with
  | nil => rfl
  | cons byte rest ih =>
    rw [lines]
    split
    · rw [List.flatten_cons, ih]
      rfl
    · cases found : lines rest with
      | nil =>
        rw [found] at ih
        rw [← ih]
        rfl
      | cons line others =>
        rw [found] at ih
        rw [← ih]
        rfl

/-- Without a line taken off, all of the input is left. -/
@[simp] theorem dropLines_zero (input : List UInt8) : dropLines 0 input = input :=
  flatten_lines input

/-- Lines are taken off from the front. -/
theorem dropLines_succ (count : Nat) (input : List UInt8) :
    dropLines (count + 1) input = dropLines count (next input).2 := by
  -- Reading takes the first line, and the others are taken from what it leaves.
  rw [dropLines, dropLines, lines_next, List.drop_tail]

/-- What is left after a line is what reading leaves. -/
theorem dropLines_one (input : List UInt8) : dropLines 1 input = (next input).2 := by
  -- One line is taken off, and then none.
  rw [dropLines_succ, dropLines_zero]

/-- Taking lines off leaves the others as they are. -/
theorem lines_dropLines (count : Nat) (input : List UInt8) :
    lines (dropLines count input) = (lines input).drop count := by
  -- Each line that is taken off was the first of those that were left.
  induction count generalizing input with
  | zero => rw [dropLines_zero, List.drop_zero]
  | succ count ih => rw [dropLines_succ, ih, lines_next, List.drop_tail]

/-- Lines that are taken off one after another add up. -/
theorem dropLines_dropLines (count more : Nat) (input : List UInt8) :
    dropLines more (dropLines count input) = dropLines (count + more) input := by
  -- What is left are the lines that are left, put together again.
  rw [dropLines, lines_dropLines, List.drop_drop, dropLines]

/-- The lines that are left have the texts that they had before. -/
theorem textAt?_dropLines (count index : Nat) (input : List UInt8) :
    textAt? (dropLines count input) index = textAt? input (count + index) := by
  -- The lines that are gone are counted before those that are left.
  rw [textAt?, lines_dropLines, List.getElem?_drop, textAt?]

/-- A line feed stands nowhere in a line but at its end. -/
theorem lineFeed_not_mem_dropLast (member : line ∈ lines input) : lineFeed ∉ line.dropLast := by
  -- A line feed ends its line at once, so that no byte of the line comes behind it.
  induction input generalizing line with
  | nil => cases member
  | cons byte rest ih =>
    rw [lines] at member
    split at member
    · rcases List.mem_cons.mp member with rfl | member
      · exact List.not_mem_nil
      · exact ih member
    · rename_i other
      cases found : lines rest with
      | nil =>
        rw [found, List.mem_singleton] at member
        rw [member]
        exact List.not_mem_nil
      | cons first others =>
        rw [found] at member ih
        rcases List.mem_cons.mp member with rfl | member
        · -- The byte before the line is none, and neither is any byte within it.
          have within := ih List.mem_cons_self
          cases first with
          | nil => exact List.not_mem_nil
          | cons second first =>
            rw [List.dropLast_cons_cons, List.mem_cons]
            rintro (same | inside)
            · exact other same.symm
            · exact within inside
        · exact ih (List.mem_cons_of_mem _ member)

/-- Where there is no line feed, nothing is put in. -/
theorem withReturns_of_not_mem (plain : lineFeed ∉ input) : withReturns input = input := by
  -- Each byte is kept, as none of them is a line feed.
  induction input with
  | nil => rfl
  | cons byte rest ih =>
    rw [List.mem_cons, not_or] at plain
    rw [withReturns, List.flatMap_cons, ← withReturns, if_neg (Ne.symm plain.1), ih plain.2]
    rfl

/-- Carriage returns are put in line by line. -/
theorem lines_withReturns (input : List UInt8) :
    lines (withReturns input) = (lines input).map withReturns := by
  induction input with
  | nil => rfl
  | cons byte rest ih =>
    rw [withReturns, List.flatMap_cons, ← withReturns, lines]
    split
    · rename_i ends
      -- The line that ends here becomes the carriage return and the line feed.
      rw [List.cons_append, List.singleton_append, lines, if_neg (by decide), lines, if_pos rfl, ih,
        ends]
      rfl
    · rename_i other
      rw [List.singleton_append, lines, if_neg other, ih]
      cases lines rest with
      | nil => simp [withReturns, other]
      | cons line others => simp [withReturns, other]

/-- Putting in carriage returns and taking lines off may be done in either sequence. -/
theorem dropLines_withReturns (count : Nat) (input : List UInt8) :
    dropLines count (withReturns input) = withReturns (dropLines count input) := by
  -- Returns are put into each line by itself.
  rw [dropLines, lines_withReturns, ← List.map_drop, dropLines, withReturns,
    List.flatten_eq_flatMap, List.flatten_eq_flatMap, List.flatMap_assoc, List.flatMap_map]
  rfl

/-- A carriage return put in at the end of a line does not show, unless there was one before. -/
theorem lineText?_withReturns (single : lineFeed ∉ line.dropLast)
    (plain : ¬ [carriageReturn, lineFeed] <:+ line) :
    lineText? (withReturns line) = lineText? line := by
  -- The end that is taken off before decoding is all that changed.
  have same : stripEnd (withReturns line) = stripEnd line := by
    rcases List.eq_nil_or_concat line with rfl | ⟨content, last, rfl⟩
    · rfl
    · rw [List.concat_eq_append] at single plain ⊢
      rw [List.dropLast_concat] at single
      by_cases ends : last = lineFeed
      · -- What was put in is taken off again, and there was none to take off before.
        rw [ends] at plain ⊢
        have bare : content.getLast? ≠ some carriageReturn := by
          intro returns
          obtain ⟨front, rfl⟩ := List.getLast?_eq_some_iff.mp returns
          exact plain ⟨front, by simp⟩
        rw [withReturns, List.flatMap_append, ← withReturns, withReturns_of_not_mem single,
          List.flatMap_singleton, if_pos rfl]
        simp [stripEnd, bare]
      · -- There is no end at all.
        rw [withReturns_of_not_mem]
        simp [single, Ne.symm ends]
  rw [lineText?, same, lineText?]

/-- Carriage returns do not show in any text, if no line has one at the end of its content. -/
theorem textAt?_withReturns (plain : ∀ line ∈ lines input, ¬ [carriageReturn, lineFeed] <:+ line)
    (index : Nat) : textAt? (withReturns input) index = textAt? input index := by
  -- There are as many lines as before, and each of them has the text that it had.
  rw [textAt?, textAt?, lines_withReturns, List.getElem?_map]
  cases found : (lines input)[index]? with
  | none => rfl
  | some line =>
    have member := List.mem_of_getElem? found
    exact lineText?_withReturns (lineFeed_not_mem_dropLast member) (plain line member)

end ThreeAddress.Input
