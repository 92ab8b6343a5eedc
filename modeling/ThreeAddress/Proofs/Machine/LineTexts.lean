import ThreeAddress.Proofs.Machine.InputLines
import ThreeAddress.Proofs.Text.Utf8

/-!
The texts of lines. A text is read off an input exactly where the input begins with the bytes of the
text and the end of a line, or where there are no other bytes.
-/

namespace ThreeAddress.Input

/-- The ends that a line may have. -/
inductive LineEnd where
  /-- A line feed. -/
  | plain
  /-- A line feed with a carriage return before it. -/
  | returned
  deriving DecidableEq, Repr

/-- The bytes at the end of a line. -/
def LineEnd.bytes : LineEnd → List UInt8
  | plain => [lineFeed]
  | returned => [carriageReturn, lineFeed]

/-- An input begins with a line of a text, and this is the rest of it. -/
inductive Begins : List UInt8 → String → List UInt8 → Prop where
  /-- A carriage return before the line feed would belong to the end of the line. -/
  | plain {line : String} (rest : List UInt8) (whole : '\n' ∉ line.toList)
      (bare : line.toList.getLast? ≠ some '\r') :
      Begins (Text.bytes line ++ LineEnd.plain.bytes ++ rest) line rest
  | returned {line : String} (rest : List UInt8) (whole : '\n' ∉ line.toList) :
      Begins (Text.bytes line ++ LineEnd.returned.bytes ++ rest) line rest
  /-- The last line need not have an end, unless there is nothing else of it. -/
  | last {line : String} (whole : '\n' ∉ line.toList) (more : line ≠ "") :
      Begins (Text.bytes line) line []

variable {input content front rest : List UInt8} {line : String}

private theorem next_of_cutLine (more : input ≠ []) (cut : cutLine input = (content, rest)) :
    next input = (lineText? content, rest) := by
  -- Reading does nothing but cut off a line and decode it.
  cases input with
  | nil => exact absurd rfl more
  | cons byte others =>
    unfold next
    dsimp only
    rw [cut]

private theorem cutLine_append (plain : lineFeed ∉ content) (rest : List UInt8) :
    cutLine (content ++ lineFeed :: rest) = (content ++ [lineFeed], rest) := by
  -- None of the bytes before the line feed ends the line.
  induction content with
  | nil => rfl
  | cons byte content ih =>
    rw [List.mem_cons, not_or] at plain
    rw [List.cons_append, cutLine, if_neg (Ne.symm plain.1), ih plain.2]
    rfl

private theorem cutLine_of_not_mem (plain : lineFeed ∉ content) :
    cutLine content = (content, []) := by
  -- Each byte goes to the line, as none of them ends it.
  induction content with
  | nil => rfl
  | cons byte content ih =>
    rw [List.mem_cons, not_or] at plain
    rw [cutLine, if_neg (Ne.symm plain.1), ih plain.2]

/-- What is read where a line feed ends the first line. -/
private theorem next_of_ended (plain : lineFeed ∉ content) (rest : List UInt8) :
    next (content ++ lineFeed :: rest) = (lineText? (content ++ [lineFeed]), rest) :=
  next_of_cutLine (by simp) (cutLine_append plain rest)

/-- What is read where there is no line feed. -/
private theorem next_of_unended (more : content ≠ []) (plain : lineFeed ∉ content) :
    next content = (lineText? content, []) :=
  next_of_cutLine more (cutLine_of_not_mem plain)

private theorem stripEnd_plain (bare : content.getLast? ≠ some carriageReturn) :
    stripEnd (content ++ [lineFeed]) = content := by
  -- Behind the line feed there is nothing else to take off.
  simp [stripEnd, bare]

private theorem stripEnd_returned (front : List UInt8) :
    stripEnd (front ++ [carriageReturn] ++ [lineFeed]) = front := by
  -- Both bytes of the end are taken off.
  simp [stripEnd]

private theorem stripEnd_of_not_mem (plain : lineFeed ∉ content) : stripEnd content = content := by
  -- A line feed at the end would be one in the content.
  rw [stripEnd, if_neg]
  exact fun ends => plain (List.mem_of_getLast? ends)

private theorem lineText?_eq_some_iff : lineText? content = some line ↔
    stripEnd content = Text.bytes line :=
  -- What is left of the line is decoded, and decoding undoes encoding.
  Text.fromUTF8?_eq_some_iff

private theorem lineFeed_mem_bytes_iff : lineFeed ∈ Text.bytes line ↔ '\n' ∈ line.toList :=
  -- A line feed is a character of ASCII, so that its byte stands for nothing else.
  Text.mem_bytes_iff (c := '\n') (by decide)

private theorem getLast?_bytes_eq_carriageReturn_iff :
    (Text.bytes line).getLast? = some carriageReturn ↔ line.toList.getLast? = some '\r' :=
  -- A carriage return is a character of ASCII, so that its byte stands for nothing else.
  Text.getLast?_bytes_iff (c := '\r') (by decide)

private theorem bytes_ne_nil (more : line ≠ "") : Text.bytes line ≠ [] := by
  -- Texts are told by their bytes, and the empty text has none.
  intro empty
  exact more (Text.bytes_injective (empty.trans rfl))

private theorem next_of_begins (begins : Begins input line rest) :
    next input = (some line, rest) := by
  -- The bytes of the text hold no line feed, so that the first one is that of the end.
  cases begins with
  | plain _ whole bare =>
    rw [← lineFeed_mem_bytes_iff] at whole
    rw [ne_eq, ← getLast?_bytes_eq_carriageReturn_iff] at bare
    rw [List.append_assoc, LineEnd.bytes, List.singleton_append, next_of_ended whole,
      lineText?_eq_some_iff.mpr (stripEnd_plain bare)]
  | returned _ whole =>
    -- The carriage return belongs to the line, until its end is stripped off.
    rw [← lineFeed_mem_bytes_iff] at whole
    have within : lineFeed ∉ Text.bytes line ++ [carriageReturn] := by
      rw [List.mem_append, List.mem_singleton]
      rintro (inside | same)
      · exact whole inside
      · cases same
    have ended := next_of_ended within rest
    rw [lineText?_eq_some_iff.mpr (stripEnd_returned _)] at ended
    rw [← ended, LineEnd.bytes]
    simp
  | last whole more =>
    rw [← lineFeed_mem_bytes_iff] at whole
    rw [next_of_unended (bytes_ne_nil more) whole,
      lineText?_eq_some_iff.mpr (stripEnd_of_not_mem whole)]

private theorem begins_of_next (read : next input = (some line, rest)) :
    Begins input line rest := by
  -- The first line ends at a line feed, with a carriage return or without, or with the input.
  by_cases member : lineFeed ∈ input
  · -- The first line goes up to the first line feed.
    obtain ⟨content, others, rfl, plain⟩ := List.eq_append_cons_of_mem member
    rw [next_of_ended plain] at read
    obtain ⟨text, rfl⟩ := Prod.mk.inj read
    rw [lineText?_eq_some_iff] at text
    by_cases ends : content.getLast? = some carriageReturn
    · -- What is stripped off before the line feed is a part of the end.
      obtain ⟨front, rfl⟩ := List.getLast?_eq_some_iff.mp ends
      rw [stripEnd_returned] at text
      rw [text] at plain ⊢
      have whole : '\n' ∉ line.toList := by
        rw [← lineFeed_mem_bytes_iff]
        exact fun inside => plain (List.mem_append_left _ inside)
      have begins := Begins.returned others whole
      simpa [LineEnd.bytes] using begins
    · -- Nothing else is stripped off, and the text does not end in a carriage return either.
      rw [stripEnd_plain ends] at text
      rw [text] at plain ends ⊢
      rw [lineFeed_mem_bytes_iff] at plain
      rw [getLast?_bytes_eq_carriageReturn_iff] at ends
      have begins := Begins.plain others plain ends
      simpa [LineEnd.bytes] using begins
  · -- All of the input is one line, unless there is none.
    cases input with
    | nil => cases read
    | cons byte others =>
      rw [next_of_unended (List.cons_ne_nil byte others) member] at read
      obtain ⟨text, rfl⟩ := Prod.mk.inj read
      rw [lineText?_eq_some_iff, stripEnd_of_not_mem member] at text
      rw [text] at member ⊢
      refine .last (lineFeed_mem_bytes_iff.not.mp member) ?_
      rintro rfl
      cases text

/-- A text is read exactly where the input begins with a line of it. -/
theorem begins_iff : Begins input line rest ↔ next input = (some line, rest) :=
  ⟨next_of_begins, begins_of_next⟩

end ThreeAddress.Input
