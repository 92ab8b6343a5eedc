import ThreeAddress.Proofs.Machine.Storing
import ThreeAddress.Proofs.Text.Utf8

/-!
Texts as sequences of characters. The operations on texts agree about the length of a text, about
the characters at its indices and about the numbers that stand for characters.
-/

namespace ThreeAddress

/-- A text whose bytes a machine integer can count. -/
def Text.Fits (s : String) : Prop :=
  s.utf8ByteSize < 2 ^ 63

instance (s : String) : Decidable (Text.Fits s) :=
  inferInstanceAs (Decidable (_ < _))

/-- The numbers that stand for characters, which leave out the surrogates. -/
def Text.IsScalar (n : Int) : Prop :=
  (0 ≤ n ∧ n ≤ 0x10ffff) ∧ ¬ (0xd800 ≤ n ∧ n ≤ 0xdfff)

instance (n : Int) : Decidable (Text.IsScalar n) :=
  inferInstanceAs (Decidable (_ ∧ _))

/-- How a text of a length answers to an index, whichever operation uses it. -/
structure Text.Answers (s : String) (n index : Int64) : Prop where
  /-- The character at the index comes as a text. -/
  given : ∀ value, Opcode.getChar.combine (.string s) (.int index) = .ok value ↔
    ∃ c, (0 ≤ index.toInt ∧ s.toList[index.toInt.toNat]? = some c) ∧
      value = .string (String.singleton c)
  getChar : ∀ cause, Opcode.getChar.combine (.string s) (.int index) = .error cause ↔
    ¬ (0 ≤ index ∧ index < n) ∧ cause = .stringIndex index s.length
  stri2int : ∀ cause, Opcode.stri2int.combine (.string s) (.int index) = .error cause ↔
    ¬ (0 ≤ index ∧ index < n) ∧ cause = .stringIndex index s.length
  /-- The index is found out about before the replacement. -/
  setChar : ∀ r cause, replaceChar (.string s) (.int index) (.string r) = .error cause ↔
    ¬ (0 ≤ index ∧ index < n) ∧ cause = .stringIndex index s.length ∨
      (0 ≤ index ∧ index < n) ∧ r = "" ∧ cause = .emptyReplacement
  /-- The text keeps its length and all other characters, and takes the first of the replacement. -/
  replaced : ∀ r, 0 ≤ index ∧ index < n → r ≠ "" →
    ∃ t, replaceChar (.string s) (.int index) (.string r) = .ok (.string t) ∧
      Opcode.strlen.transform (.string t) = .ok (.int n) ∧
      Opcode.getChar.combine (.string t) (.int index) =
        Opcode.getChar.combine (.string r) (.int 0) ∧
      ∀ other, other ≠ index → Opcode.getChar.combine (.string t) (.int other) =
        Opcode.getChar.combine (.string s) (.int other)

/-- A text is made of two texts of given lengths: their characters follow each other. -/
structure Text.Joins (s t : String) (m n : Int64) (joined : String) : Prop where
  concat : Opcode.concat.combine (.string s) (.string t) = .ok (.string joined)
  strlen : Opcode.strlen.transform (.string joined) = .ok (.int (m + n))
  /-- The sum of the lengths does not wrap. -/
  exact : (m + n).toInt = m.toInt + n.toInt
  before : ∀ index value, index < m →
    (Opcode.getChar.combine (.string joined) (.int index) = .ok value ↔
      Opcode.getChar.combine (.string s) (.int index) = .ok value)
  behind : ∀ index value, m ≤ index →
    (Opcode.getChar.combine (.string joined) (.int index) = .ok value ↔
      Opcode.getChar.combine (.string t) (.int (index - m)) = .ok value)

section

variable {s t r : String} {index : Int64} {c : Char} {cause : Cause}

/-- The length of a text that fits is a machine integer. -/
theorem Text.Fits.toInt_length (fits : Fits s) : (Int64.ofNat s.length).toInt = s.length := by
  -- A text has no more characters than bytes.
  have bytes := Text.length_le_utf8ByteSize s
  rw [String.length_toList] at bytes
  exact Int64.toInt_ofNat_of_lt (Nat.lt_of_le_of_lt bytes fits)

/-- An index lies within a text that fits exactly if there is a character for it. -/
theorem Text.Fits.within_iff (fits : Fits s) :
    0 ≤ index ∧ index < Int64.ofNat s.length ↔ 0 ≤ index.toInt ∧ index.toInt < s.length := by
  -- The length of a text that fits is the same number as a machine integer.
  rw [Int64.le_iff_toInt_le, Int64.lt_iff_toInt_lt, fits.toInt_length]
  rfl

/-- A character is found at an index that is not negative and has one. -/
theorem charAt_eq_ok_iff :
    charAt s index = .ok c ↔ 0 ≤ index.toInt ∧ s.toList[index.toInt.toNat]? = some c := by
  -- The sign of the index is asked for first, and then the character at it.
  unfold charAt
  dsimp only
  split
  · rename_i negative
    exact iff_of_false nofun fun found => Int.not_lt.mpr found.1 negative
  · rename_i positive
    rw [Int.not_lt] at positive
    split
    · rename_i absent
      rw [absent]
      exact iff_of_false nofun fun found => nomatch found.2
    · rename_i found
      rw [found, Except.ok.injEq, Option.some.injEq]
      exact (and_iff_right positive).symm

/-- A character is missed exactly for an index outside the text. -/
theorem charAt_eq_error_iff : charAt s index = .error cause ↔
    ¬ (0 ≤ index.toInt ∧ index.toInt < s.length) ∧ cause = .stringIndex index s.length := by
  -- Both refusals tell the index and the length, so they need not be told apart.
  unfold charAt
  dsimp only
  rw [← String.length_toList]
  split
  · rename_i negative
    rw [Except.error.injEq, eq_comm]
    exact (and_iff_right fun within => Int.not_lt.mpr within.1 negative).symm
  · rename_i positive
    rw [Int.not_lt] at positive
    split
    · rename_i absent
      rw [List.getElem?_eq_none_iff] at absent
      rw [Except.error.injEq, eq_comm]
      exact (and_iff_right fun within => by omega).symm
    · rename_i found
      obtain ⟨within, _⟩ := List.getElem?_eq_some_iff.mp found
      refine iff_of_false nofun fun outside => outside.1 ⟨positive, by omega⟩

/-- Texts of one length with the same character at an index answer alike to it. -/
theorem charAt_congr (length : t.length = s.length)
    (same : 0 ≤ index.toInt → t.toList[index.toInt.toNat]? = s.toList[index.toInt.toNat]?) :
    charAt t index = charAt s index := by
  -- Nothing is asked of a text but its length and the character at the index.
  unfold charAt
  dsimp only
  rw [length]
  split
  · rfl
  · rename_i positive
    rw [same (Int.not_lt.mp positive)]

/-- The operation that gives a character makes a text of the one at the index. -/
theorem getChar_eq_map : Opcode.getChar.combine (.string s) (.int index) =
    (charAt s index).map fun c => .string (String.singleton c) :=
  rfl

/-- A character is given exactly if the index is not negative and has one. -/
theorem getChar_eq_ok_iff {value : Value} :
    Opcode.getChar.combine (.string s) (.int index) = .ok value ↔
      ∃ c, (0 ≤ index.toInt ∧ s.toList[index.toInt.toNat]? = some c) ∧
        value = .string (String.singleton c) := by
  -- The text that is given holds the character that is found, and no other.
  rw [getChar_eq_map, map_eq_ok_iff]
  exact exists_congr fun c => and_congr_left fun _ => charAt_eq_ok_iff

/-- An operation that makes something of the character at an index fails as finding it does. -/
theorem map_charAt_eq_error_iff (fits : Text.Fits s) (f : Char → Value) :
    (charAt s index).map f = .error cause ↔
      ¬ (0 ≤ index ∧ index < Int64.ofNat s.length) ∧ cause = .stringIndex index s.length := by
  -- What is made of the character cannot fail by itself.
  rw [map_eq_error_iff, charAt_eq_error_iff, fits.within_iff]

/-- A character is replaced in vain for an index outside the text, or for want of a character. -/
theorem replaceChar_eq_error_iff :
    replaceChar (.string s) (.int index) (.string r) = .error cause ↔
      charAt s index = .error cause ∨
        (∃ c, charAt s index = .ok c) ∧ r = "" ∧ cause = .emptyReplacement := by
  -- The index is looked at before the replacement.
  unfold replaceChar
  dsimp only
  rw [bind_eq_error_iff, ← exists_and_right]
  apply or_congr_right
  refine exists_congr fun c => and_congr_right fun _ => ?_
  rw [← String.toList_eq_nil_iff]
  cases r.toList with
  | nil => simp [eq_comm]
  | cons d rest => simp [pure, Except.pure]

/-- A character of a text is replaced by the first of another text. -/
theorem replaceChar_eq_ok {rest : List Char} (found : charAt s index = .ok c) {d : Char}
    (first : r.toList = d :: rest) :
    replaceChar (.string s) (.int index) (.string r) =
      .ok (.string (String.ofList (s.toList.set index.toInt.toNat d))) := by
  -- There is a character to replace and one to replace it with.
  unfold replaceChar
  dsimp only
  rw [found, first]
  rfl

/-- There is a character at an index exactly if the index lies within the text. -/
theorem exists_charAt_iff :
    (∃ c, charAt s index = .ok c) ↔ 0 ≤ index.toInt ∧ index.toInt < s.length := by
  -- Finding a character and missing it are all that can happen.
  cases found : charAt s index with
  | ok c =>
    refine iff_of_true ⟨c, rfl⟩ ?_
    by_contra outside
    cases found.symm.trans (charAt_eq_error_iff.mpr ⟨outside, rfl⟩)
  | error cause => exact iff_of_false nofun (charAt_eq_error_iff.mp found).1

/-- A character that is put at an index within a text is found there. -/
theorem charAt_set_self {d : Char} (within : 0 ≤ index.toInt ∧ index.toInt < s.length) :
    charAt (String.ofList (s.toList.set index.toInt.toNat d)) index = .ok d := by
  -- The index lies within the text, so that the character is put somewhere.
  have inside : index.toInt.toNat < s.toList.length := by
    rw [String.length_toList]
    omega
  rw [charAt_eq_ok_iff, String.toList_ofList]
  exact ⟨within.1, List.getElem?_set_self inside⟩

/-- A character that is put at an index is not found at any other. -/
theorem charAt_set_ne {other : Int64} {d : Char} (counted : 0 ≤ index.toInt)
    (differs : other ≠ index) :
    charAt (String.ofList (s.toList.set index.toInt.toNat d)) other = charAt s other := by
  -- Only the character at one index changes, and the length stays.
  apply charAt_congr
  · rw [String.length_ofList, List.length_set, String.length_toList]
  · -- Two indices that are not negative differ as numbers, too.
    intro positive
    rw [String.toList_ofList, List.getElem?_set_ne]
    intro same
    apply differs
    apply Int64.toInt_inj.mp
    omega

/-- A text that fits answers to every index as a sequence of characters does. -/
theorem Text.Fits.answers (fits : Fits s) (index : Int64) :
    Answers s (Int64.ofNat s.length) index where
  -- What is asked at an index is settled by the character there, or by there being none.
  given value := getChar_eq_ok_iff
  getChar cause := map_charAt_eq_error_iff fits _
  stri2int cause := map_charAt_eq_error_iff fits _
  setChar r cause := by
    rw [replaceChar_eq_error_iff, charAt_eq_error_iff, exists_charAt_iff, fits.within_iff]
  replaced r within nonempty := by
    rw [fits.within_iff] at within
    obtain ⟨c, found⟩ := exists_charAt_iff.mpr within
    obtain ⟨d, rest, first⟩ :=
      List.exists_cons_of_ne_nil (mt String.toList_eq_nil_iff.mp nonempty)
    refine ⟨_, replaceChar_eq_ok found first, ?_, ?_, ?_⟩
    · rw [Opcode.transform, String.length_ofList, List.length_set, String.length_toList]
    · -- Both are the first character of the replacement.
      have head : charAt r 0 = .ok d := charAt_eq_ok_iff.mpr ⟨le_rfl, by rw [first]; rfl⟩
      rw [getChar_eq_map, getChar_eq_map, charAt_set_self within, head]
    · intro other differs
      rw [getChar_eq_map, getChar_eq_map, charAt_set_ne within.1 differs]

/-- The parts of a text that fits do so as well. -/
theorem Text.Fits.parts (fits : Fits (s ++ t)) : Fits s ∧ Fits t := by
  -- A part takes no more bytes than the whole.
  unfold Fits at fits ⊢
  rw [String.utf8ByteSize_append] at fits
  exact ⟨by omega, by omega⟩

/-- Two texts are joined to one whose characters are those of the first and then of the second. -/
theorem Text.Fits.joins (fits : Fits (s ++ t)) :
    Joins s t (Int64.ofNat s.length) (Int64.ofNat t.length) (s ++ t) where
  concat := rfl
  strlen := by rw [Opcode.transform, String.length_append, Int64.ofNat_add]
  exact := by
    rw [← Int64.ofNat_add, ← String.length_append, fits.toInt_length,
      fits.parts.1.toInt_length, fits.parts.2.toInt_length, String.length_append]
    omega
  before index value below := by
    rw [Int64.lt_iff_toInt_lt, fits.parts.1.toInt_length] at below
    rw [getChar_eq_ok_iff, getChar_eq_ok_iff]
    refine exists_congr fun c => and_congr_left fun _ => and_congr_right fun positive => ?_
    rw [String.toList_append, List.getElem?_append_left]
    rw [String.length_toList]
    omega
  behind index value above := by
    have length := fits.parts.1.toInt_length
    -- An index behind the first text is not negative, so that the difference does not wrap.
    have difference : (index - Int64.ofNat s.length).toInt = index.toInt - s.length := by
      rw [Int64.toInt_sub_of_le _ _ ?_ above, length]
      rw [Int64.le_iff_toInt_le, length]
      exact Int.natCast_nonneg _
    rw [Int64.le_iff_toInt_le, length] at above
    rw [getChar_eq_ok_iff, getChar_eq_ok_iff, difference]
    refine exists_congr fun c => and_congr_left fun _ => ?_
    have place : index.toInt.toNat - s.toList.length = (index.toInt - s.length).toNat := by
      rw [String.length_toList]
      omega
    rw [String.toList_append, List.getElem?_append_right, place]
    · exact and_congr_left fun _ => by omega
    · rw [String.length_toList]
      omega

end

section

variable {n code : Int64} {c : Char}

/-- A number is that of a character exactly if it is none of a surrogate and not too great. -/
theorem Text.isScalar_iff {n : Int} : IsScalar n ↔ 0 ≤ n ∧ n.toNat.isValidChar := by
  -- The two ranges are the same, once the number is not negative.
  unfold IsScalar Nat.isValidChar
  omega

/-- A number makes the character that it is the number of. -/
theorem charOf?_eq_some_iff : charOf? code = some c ↔ (c.toNat : Int) = code.toInt := by
  -- Characters and their numbers correspond one to one.
  unfold charOf?
  split
  · rename_i known
    have number : ((Char.ofNat code.toInt.toNat).toNat : Int) = code.toInt := by
      rw [Text.toNat_charOfNat known.2]
      omega
    rw [Option.some.injEq]
    constructor
    · rintro rfl
      exact number
    · intro same
      rw [← same]
      exact Char.ofNat_toNat c
  · rename_i unknown
    refine iff_of_false nofun fun same => unknown ?_
    rw [← same]
    exact ⟨Int.natCast_nonneg _, c.valid⟩

/-- A number makes no character exactly if it is not that of one. -/
theorem charOf?_eq_none_iff : charOf? code = none ↔ ¬ Text.IsScalar code.toInt := by
  -- The conversion tests exactly what makes the number one of a character.
  rw [Text.isScalar_iff]
  unfold charOf?
  split
  · rename_i known
    exact iff_of_false nofun (not_not.mpr known)
  · rename_i unknown
    exact iff_of_true rfl unknown

/-- A number that stands for a character makes a text of that character alone. -/
theorem int2char_of_charOf? (known : charOf? code = some c) :
    Opcode.int2char.transform (.int code) = .ok (.string (String.singleton c)) := by
  -- The operation does nothing but convert the number.
  rw [Opcode.transform, known]

/-- The number of a character is a machine integer, and makes the character again. -/
theorem charOf?_toNat (c : Char) : charOf? (Int64.ofNat c.toNat) = some c := by
  -- No character has a number of more than twenty-one bits.
  have small : c.toNat < 2 ^ 63 := by
    have valid := c.valid
    unfold UInt32.isValidChar Nat.isValidChar at valid
    change c.val.toNat < _
    omega
  rw [charOf?_eq_some_iff, Int64.toInt_ofNat_of_lt small]

/-- Taking the number at an index and making a character of it is taking the character there. -/
theorem stri2int_int2char (s : String) (index : Int64) :
    Opcode.stri2int.combine (.string s) (.int index) >>= Opcode.int2char.transform =
      Opcode.getChar.combine (.string s) (.int index) := by
  -- Both fail for the same indices, and in the same way.
  rw [show Opcode.stri2int.combine (.string s) (.int index) =
    (charAt s index).map fun c => .int (Int64.ofNat c.toNat) from rfl, getChar_eq_map]
  cases charAt s index with
  | error cause => rfl
  | ok c => exact int2char_of_charOf? (charOf?_toNat c)

/-- Making a character of a number and taking the number of it again gives the number. -/
theorem int2char_stri2int (scalar : Text.IsScalar code.toInt) :
    (Opcode.int2char.transform (.int code) >>= fun made =>
      Opcode.stri2int.combine made (.int 0)) = .ok (.int code) := by
  cases known : charOf? code with
  | none => exact absurd scalar (charOf?_eq_none_iff.mp known)
  | some c =>
    -- The text that is made has one character, which stands at its beginning.
    have head : charAt (String.singleton c) 0 = .ok c := by
      rw [charAt_eq_ok_iff, String.toList_singleton]
      exact ⟨le_rfl, rfl⟩
    have number : Int64.ofNat c.toNat = code := by
      rw [← Int64.ofInt_toInt code, ← charOf?_eq_some_iff.mp known, Int64.ofInt_eq_ofNat]
    rw [int2char_of_charOf? known, ← number]
    exact congrArg (Except.map _) head

end

/--
Texts obey the laws of sequences of characters.

The length of a text is the number of its characters, and an index is refused, with the length,
exactly if it is not from zero up to there. Replacing changes the character at the index alone, and
is refused otherwise only where there is nothing to put there. Joined texts have their lengths
added and their characters one behind the other. A number makes a character exactly if it is a
scalar value, and characters and their numbers are turned into each other. Instructions store what
the operations yield, or fail as they do.
-/
theorem texts_are_sequences :
    (∀ s, Text.Fits s → ∃ n, Opcode.strlen.transform (.string s) = .ok (.int n) ∧
      n.toInt = s.length ∧ ∀ index, Text.Answers s n index) ∧
    (∀ s t, Text.Fits (s ++ t) → ∃ m n joined,
      Opcode.strlen.transform (.string s) = .ok (.int m) ∧
      Opcode.strlen.transform (.string t) = .ok (.int n) ∧ Text.Joins s t m n joined) ∧
    (∀ code : Int64, Text.IsScalar code.toInt → ∃ c : Char, (c.toNat : Int) = code.toInt ∧
      Opcode.int2char.transform (.int code) = .ok (.string (String.singleton c))) ∧
    (∀ code : Int64, ¬ Text.IsScalar code.toInt →
      Opcode.int2char.transform (.int code) = .error (.codePoint code)) ∧
    (∀ s index, Opcode.stri2int.combine (.string s) (.int index) >>= Opcode.int2char.transform =
      Opcode.getChar.combine (.string s) (.int index)) ∧
    (∀ code : Int64, Text.IsScalar code.toInt →
      (Opcode.int2char.transform (.int code) >>= fun made =>
        Opcode.stri2int.combine made (.int 0)) = .ok (.int code)) ∧
    ∀ (devices : Devices) (image : Image) (m : Machine) (i : Instruction) (x : Variable),
      image.code[m.pc]? = some i → i.operands.head? = some (.var x) →
        (i.opcode ∈ [.concat, .getChar, .stri2int] → ∀ a b,
          i.value m.frames 1 = .ok a → i.value m.frames 2 = .ok b →
            m.Stores devices image i x (i.opcode.combine a b)) ∧
        (i.opcode ∈ [.strlen, .int2char] → ∀ a, i.value m.frames 1 = .ok a →
          m.Stores devices image i x (i.opcode.transform a)) ∧
        (i.opcode = .setChar → ∀ text index replacement, i.value m.frames 0 = .ok text →
          i.value m.frames 1 = .ok index → i.value m.frames 2 = .ok replacement →
            m.Stores devices image i x (replaceChar text index replacement)) := by
  -- Characters are found by index, joined by appending and converted by their numbers.
  refine ⟨?_, ?_, ?_, ?_, stri2int_int2char, fun code => int2char_stri2int, ?_⟩
  · intro s fits
    exact ⟨_, rfl, fits.toInt_length, fits.answers⟩
  · intro s t fits
    exact ⟨_, _, _, rfl, rfl, fits.joins⟩
  · intro code scalar
    cases known : charOf? code with
    | none => exact absurd scalar (charOf?_eq_none_iff.mp known)
    | some c => exact ⟨c, charOf?_eq_some_iff.mp known, int2char_of_charOf? known⟩
  · intro code other
    rw [Opcode.transform, charOf?_eq_none_iff.mpr other]
  · -- Each of the operations combines two sources, transforms one or replaces in its destination.
    intro devices image m i x fetched destination
    refine ⟨?_, ?_, ?_⟩
    · intro op a b first second
      have combining : [.concat, .getChar, .stri2int] ⊆ Opcode.combining := by decide
      exact Machine.stores_combined fetched (combining op) destination first second
    · intro op a source
      have transforming : [.strlen, .int2char] ⊆ Opcode.transforming := by decide
      exact Machine.stores_transformed fetched (transforming op) destination source
    · intro op text index replacement old place new
      exact Machine.stores_replaced fetched op destination old place new

/-- Taking a character behind the end of a text, some of whose characters have two bytes. -/
def beyondTheEnd : Image :=
  { code := #[⟨.getChar, 7, [.var ⟨.globalFrame, "x"⟩, .literal (.string "žába"),
      .literal (.int 4)]⟩],
    labels := [] }

/-- The text has four characters, of which the second can be replaced, and surrogates are none. -/
theorem texts_are_sequences_of_beyondTheEnd :
    Machine.expectant.advance .willing beyondTheEnd =
      .fault (.raised 7 (.stringIndex 4 4)) { Machine.expectant with pc := 1 } ∧
    (∃ t, replaceChar (.string "žába") (.int 1) (.string "😀!") = .ok (.string t) ∧
      Opcode.getChar.combine (.string t) (.int 1) = .ok (.string "😀")) ∧
    (∃ joined, Text.Joins "žá" "ba" 2 2 joined) ∧
    Opcode.int2char.transform (.int 0xd800) = .error (.codePoint 0xd800) := by
  -- The lengths are what the operations answer for these texts.
  obtain ⟨texts, pairs, _, others, _, _, instructions⟩ := texts_are_sequences
  obtain ⟨n, length, _, answers⟩ := texts "žába" (by decide)
  obtain ⟨m, k, joined, first, second, joins⟩ := pairs "žá" "ba" (by decide)
  have n_eq : n = 4 := by cases length; rfl
  have m_eq : m = 2 := by cases first; rfl
  have k_eq : k = 2 := by cases second; rfl
  subst n_eq m_eq k_eq
  refine ⟨?_, ?_, ⟨joined, joins⟩, others _ (by decide)⟩
  · have stores := (instructions .willing beyondTheEnd Machine.expectant _ ⟨.globalFrame, "x"⟩
      rfl rfl).1 (by decide) _ _ rfl rfl
    exact stores.refused _ (((answers 4).getChar _).mpr ⟨by decide, rfl⟩)
  · obtain ⟨t, replaced, _, now, _⟩ := (answers 1).replaced "😀!" (by decide) (by decide)
    exact ⟨t, replaced, now⟩

end ThreeAddress
