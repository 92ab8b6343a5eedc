import ThreeAddress.Proofs.Machine.Conversion
import ThreeAddress.Proofs.Machine.LineTexts

/-!
Transcripts: inputs that tell values line by line, in the form in which a program writes them. Each
line is read as the value that it tells, under the type of this value.
-/

namespace ThreeAddress

/-- A value that can be told by what a program writes for it, on a line of its own. -/
def Value.FitsLine : Value → Prop
  | string s => '\n' ∉ s.toList ∧ s.toList.getLast? ≠ some '\r'
  | nil => False
  | _ => True

namespace Input

/-- A line tells a value, around which there may be blanks unless it is a text. -/
inductive Tells (line : String) : Value → Prop where
  | int {n : Int64} (written : Text.Surrounds line.toList (Value.int n).render.toList) :
      Tells line (.int n)
  | bool {b : Bool} (written : Text.Surrounds line.toList (Value.bool b).render.toList) :
      Tells line (.bool b)
  | string (bare : line.toList.getLast? ≠ some '\r') : Tells line (.string line)

/-- A line that tells a value, with its end. -/
structure Entry where
  value : Value
  line : String
  ending : LineEnd
  whole : '\n' ∉ line.toList
  tells : Tells line value

/-- The bytes of a line with its end. -/
def Entry.bytes (e : Entry) : List UInt8 :=
  Text.bytes e.line ++ e.ending.bytes

/-- The input that some lines make up. -/
def transcript (entries : List Entry) : List UInt8 :=
  entries.flatMap Entry.bytes

variable {line : String} {value : Value} {n : Int64} {b : Bool}

private theorem toList_render_int (n : Int64) :
    (Value.int n).render.toList = n.toInt.repr.toList :=
  -- Integers are written in decimal.
  rfl

private theorem visible_of_isDigit {c : Char} (digit : c.isDigit = true) :
    Text.isBlank c = false := by
  -- The digits lie between two of the ranges of blanks.
  have range := Char.isDigit_iff_toNat.mp digit
  simp only [Char.reduceToNat] at range
  simp [Text.isBlank, Text.blankRanges]
  omega

private theorem render_int_visible (n : Int64) :
    ∀ c ∈ (Value.int n).render.toList, Text.isBlank c = false := by
  have digits (k : Nat) : ∀ c ∈ Nat.toDigits 10 k, Text.isBlank c = false := fun c member =>
    visible_of_isDigit (Nat.isDigit_of_mem_toDigits (by decide) (by decide) member)
  -- There are digits, and a minus sign before them if the number is negative.
  intro c member
  rw [toList_render_int, Text.toList_repr_int] at member
  split at member
  · exact digits _ c member
  · rcases List.mem_cons.mp member with rfl | behind
    · decide
    · exact digits _ c behind

private theorem render_bool_visible (b : Bool) :
    ∀ c ∈ (Value.bool b).render.toList, Text.isBlank c = false := by
  -- Both words are written in letters.
  have visible : (Value.bool b).render.toList.all (fun c => !Text.isBlank c) = true := by
    cases b <;> decide
  simpa using visible

/-- A number is written as a numeral of it. -/
private theorem withSign_render (n : Int64) :
    Text.WithSign (Text.Denotes 10) (Value.int n).render.toList n.toInt := by
  -- The digits denote the absolute value, and the sign makes the number of it.
  have denotes (k : Nat) : Text.Denotes 10 (Nat.toDigits 10 k) k :=
    (Text.readNatural_eq_some_iff (by decide)).mp (Text.readNatural_toDigits k)
  rw [toList_render_int, Text.toList_repr_int]
  split
  · rename_i positive
    have written := Text.WithSign.unsigned (denotes n.toInt.toNat)
    rwa [Int.toNat_of_nonneg positive] at written
  · rename_i negative
    have written := Text.WithSign.minus (denotes (-n.toInt).toNat)
    rwa [Int.toNat_of_nonneg (by omega), Int.neg_neg] at written

/-- A line that tells a value converts to it. -/
theorem Tells.converts (tells : Tells line value) : Converts line value.dataType value := by
  cases tells with
  | @int n written => exact .number (written.trims (render_int_visible n)) (withSign_render n)
  | @bool b written =>
    have trims := written.trims (render_bool_visible b)
    -- A line with a word on it is not empty, so that it is a truth value.
    have more : line ≠ "" := by
      rintro rfl
      obtain ⟨front, back, parts, _⟩ := written
      have empty := List.append_eq_nil_iff.mp parts.symm
      cases b <;> simp [Value.render, Value.boolText] at empty
    cases b with
    | true => exact .truth more trims (isTrue_iff.mp (by decide))
    | false => exact .falsehood more trims (isTrue_iff.not.mp (by decide))
  | string bare => exact .text

/-- What a program writes for a value tells it. -/
theorem tells_render (fits : value.FitsLine) : Tells value.render value := by
  -- There may be blanks around it, and there are none.
  have surrounds (core : List Char) : Text.Surrounds core core := ⟨[], [], by simp, nofun, nofun⟩
  cases value with
  | int n => exact .int (surrounds _)
  | bool b => exact .bool (surrounds _)
  | string s => exact .string fits.2
  | nil => exact fits.elim

/-- What a program writes for such a value is a single line. -/
theorem lineFeed_not_mem_render (fits : value.FitsLine) : '\n' ∉ value.render.toList := by
  cases value with
  | int n =>
    -- A line feed would be a blank.
    intro member
    have visible := render_int_visible n _ member
    cases visible
  | bool b => cases b <;> decide
  | string s => exact fits.1
  | nil => exact fits.elim

private theorem surrounds_of_concat {text core : List Char} {c : Char}
    (surrounds : Text.Surrounds (text ++ [c]) core) (visible : ∀ d ∈ core, Text.isBlank d = false)
    (blank : Text.isBlank c = true) : Text.Surrounds text core := by
  -- Trimming leaves the core, with the last blank and without it.
  have trimmed := (surrounds.trims visible).trim_eq
  rw [Text.trim_append_of_blank text (by simpa using blank)] at trimmed
  exact (Text.trim_eq_iff.mp trimmed).surrounds

/-- A carriage return behind a number or a truth value is a blank like others. -/
private theorem Tells.of_append_return {line : String} (tells : Tells (line ++ "\r") value) :
    Tells line value := by
  -- A text would not end in a carriage return.
  generalize whole : line ++ "\r" = text at tells
  have parts := congrArg String.toList whole
  rw [String.toList_append] at parts
  cases tells with
  | @int n written =>
    rw [← parts] at written
    exact .int (surrounds_of_concat written (render_int_visible n) (by decide))
  | @bool b written =>
    rw [← parts] at written
    exact .bool (surrounds_of_concat written (render_bool_visible b) (by decide))
  | string bare =>
    rw [← parts] at bare
    exact absurd List.getLast?_concat bare

/-- An input that begins with an entry begins with a line that converts to its value. -/
theorem Entry.begins (e : Entry) (rest : List UInt8) :
    ∃ line, Begins (e.bytes ++ rest) line rest ∧ Converts line e.value.dataType e.value := by
  -- A plain line end after a carriage return looks like the other kind of line end.
  obtain ⟨value, line, ending, whole, tells⟩ := e
  dsimp only [bytes]
  cases ending with
  | returned => exact ⟨line, .returned rest whole, tells.converts⟩
  | plain =>
    by_cases bare : line.toList.getLast? = some '\r'
    · -- The carriage return is taken for a part of the end, and the value stays the same.
      obtain ⟨front, parts⟩ := List.getLast?_eq_some_iff.mp bare
      obtain rfl : line = String.ofList front ++ "\r" := by
        rw [← String.ofList_toList (s := line), parts, String.ofList_append]
      have inner : '\n' ∉ (String.ofList front).toList := by
        intro member
        rw [String.toList_append] at whole
        exact whole (List.mem_append_left _ member)
      refine ⟨String.ofList front, ?_, tells.of_append_return.converts⟩
      rw [Text.bytes_append, List.append_assoc (Text.bytes _)]
      exact .returned rest inner
    · exact ⟨line, .plain rest whole bare, tells.converts⟩

/-- Reading takes an entry off and finds its value. -/
theorem Entry.value_next (e : Entry) (rest : List UInt8) :
    Input.value e.value.dataType (next (e.bytes ++ rest)).1 = e.value ∧
      (next (e.bytes ++ rest)).2 = rest := by
  -- The line of the entry is what is read, and it converts to the value.
  obtain ⟨line, begins, converts⟩ := e.begins rest
  rw [begins_iff.mp begins]
  exact ⟨converts.eq.symm, rfl⟩

/-- The input behind some lines of a transcript is what the other lines make up. -/
theorem dropLines_transcript (count : Nat) (entries : List Entry) :
    dropLines count (transcript entries) = transcript (entries.drop count) := by
  -- Each line that is taken off is that of the first entry.
  induction count generalizing entries with
  | zero => rw [dropLines_zero, List.drop_zero]
  | succ count ih =>
    rw [dropLines_succ]
    cases entries with
    | nil =>
      have nothing := ih []
      rwa [List.drop_nil] at nothing
    | cons e others =>
      rw [transcript, List.flatMap_cons, (e.value_next _).2]
      exact ih others

/-- What is written for some values makes up a transcript of them. -/
theorem exists_transcript {values : List Value} (fit : ∀ v ∈ values, v.FitsLine)
    (ending : LineEnd) : ∃ entries : List Entry, entries.map Entry.value = values ∧
      transcript entries = values.flatMap fun v => Text.bytes v.render ++ ending.bytes := by
  -- Each value is told by its rendering alone.
  induction values with
  | nil => exact ⟨[], rfl, rfl⟩
  | cons v others ih =>
    obtain ⟨entries, told, made⟩ := ih fun w member => fit w (List.mem_cons_of_mem v member)
    have fits := fit v List.mem_cons_self
    let first : Entry := ⟨v, v.render, ending, lineFeed_not_mem_render fits, tells_render fits⟩
    refine ⟨first :: entries, ?_, ?_⟩
    · rw [List.map_cons, told]
    · rw [transcript, List.flatMap_cons, ← transcript, made, List.flatMap_cons]
      rfl

end Input

end ThreeAddress
