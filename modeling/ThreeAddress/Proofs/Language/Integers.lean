import ThreeAddress.Language.Argument
import ThreeAddress.Proofs.Result
import ThreeAddress.Proofs.Text.Notation

/-!
Integers in writing. An argument for an integer is what its notation stands for, if machine integers
reach that far, and neither zeros in front of its digits nor printing it change what it stands for.
-/

namespace ThreeAddress

namespace Text

/-- What can stand in front of a numeral, with the factor that it makes of it. -/
inductive IsSign : List Char → Int → Prop where
  | none : IsSign [] 1
  | plus : IsSign ['+'] 1
  | minus : IsSign ['-'] (-1)

/-- What can stand in front of the digits of a numeral, with the base that it announces. -/
inductive IsMark : List Char → Nat → Prop where
  | decimal : IsMark [] 10
  | hexadecimal {x : Char} (mark : x = 'x' ∨ x = 'X') : IsMark ['0', x] 16
  | octal {o : Char} (mark : o = 'o' ∨ o = 'O') : IsMark ['0', o] 8

variable {text sign mark digits : List Char} {base n : Nat} {factor z : Int}

/-- Digits behind their mark are a numeral. -/
theorem IsMark.unsigned (h : IsMark mark base) (denotes : Denotes base digits n) :
    Unsigned (mark ++ digits) n := by
  -- There is one mark for each base.
  cases h with
  | decimal => exact .decimal denotes
  | hexadecimal mark => exact .hexadecimal mark denotes
  | octal mark => exact .octal mark denotes

/-- A numeral behind a sign stands for its number times the factor of the sign. -/
theorem IsSign.signed (h : IsSign sign factor) (numeral : Unsigned text n) :
    Signed (sign ++ text) (factor * n) := by
  -- There is one sign for each rule of the notation, where no sign is one of them.
  cases h with
  | none =>
    rw [Int.one_mul]
    exact .unsigned numeral
  | plus =>
    rw [Int.one_mul]
    exact .plus numeral
  | minus =>
    rw [Int.neg_one_mul]
    exact .minus numeral

/-- Zeros in front of digits change nothing about the number that they denote. -/
theorem Denotes.zeros (denotes : Denotes base digits n) (positive : 0 < base) (count : Nat) :
    Denotes base (List.replicate count '0' ++ digits) n := by
  -- Each zero is one more digit, and it weighs nothing.
  induction count with
  | zero => exact denotes
  | succ count ih =>
    obtain ⟨_, values, written, rfl⟩ := ih
    rw [List.replicate_succ, List.cons_append]
    refine ⟨List.cons_ne_nil _ _, 0 :: values, .cons ⟨positive, by decide⟩ written, ?_⟩
    rw [List.reverse_cons, Nat.ofDigits_append]
    simp

/-- Zeros may stand between the mark of a numeral and its digits. -/
theorem IsMark.zeros (h : IsMark mark base) (denotes : Denotes base digits n) (count : Nat) :
    Unsigned (mark ++ (List.replicate count '0' ++ digits)) n := by
  -- The zeros belong to the digits, whatever the mark before them.
  apply h.unsigned
  apply denotes.zeros
  cases h <;> decide

/-- A text stands for one integer at most. -/
theorem Signed.unique {y : Int} (first : Signed text y) (second : Signed text z) : y = z := by
  -- Reading the text gives all that it stands for.
  have read := readSigned_eq_some_iff.mpr first
  rw [readSigned_eq_some_iff.mpr second] at read
  exact (Option.some.inj read).symm

/-- What stands for an integer is read as that integer, unless it is out of range. -/
theorem readIntLiteral_of_signed (written : Signed text z) : readIntLiteral text = toInt64? z := by
  -- Reading the numeral succeeds, so that only the range is left to check.
  rw [readIntLiteral, readSigned_eq_some_iff.mpr written]
  rfl

/-- Machine integers reach from -2^63 to 2^63 - 1. -/
theorem exists_toInt_iff : (∃ n : Int64, n.toInt = z) ↔ -2 ^ 63 ≤ z ∧ z ≤ 2 ^ 63 - 1 := by
  -- Every number in the range is represented, and by itself.
  constructor
  · rintro ⟨n, rfl⟩
    have low := n.le_toInt
    have high := n.toInt_lt
    omega
  · intro range
    exact ⟨Int64.ofInt z, Int64.toInt_ofInt_of_le range.1 (by omega)⟩

end Text

namespace Operand

variable {text : String} {position : Nat}

/-- An argument for an integer denotes what is read from it as a literal. -/
theorem toOption_ofArgument_int : (ofArgument ⟨.int, text, position⟩).toOption =
    (Text.readIntLiteral text.toList).map fun n => literal (.int n) := by
  -- The text is read as a literal, and only the complaint is dropped.
  unfold ofArgument ofText
  cases Text.readIntLiteral text.toList <;> rfl

/-- An argument for an integer denotes the integer that its text stands for, or nothing at all. -/
theorem ofArgument_int_endsAs (text : String) (position : Nat) :
    EndsAs (ofArgument ⟨.int, text, position⟩)
      (fun o => ∃ n : Int64, Text.Signed text.toList n.toInt ∧ o = literal (.int n))
      (fun e => (∀ n : Int64, ¬ Text.Signed text.toList n.toInt) ∧ e = .invalidInt text) := by
  -- The text is read as a literal, and what cannot be read stands for nothing.
  simp only [← Text.readIntLiteral_eq_some_iff, ofArgument, ofText]
  cases Text.readIntLiteral text.toList with
  | none =>
    apply EndsAs.failure
    · rintro o ⟨n, nothing, _⟩
      cases nothing
    · intro e
      exact and_iff_right nofun
  | some n =>
    apply EndsAs.value
    · intro o
      simp
    · rintro e ⟨unread, _⟩
      exact unread n rfl

end Operand

/--
Integers are read exactly.

An argument for an integer is accepted exactly if its text is an integer in decimal, hexadecimal or
octal notation, with or without a sign, and machine integers reach that far. It denotes that integer
and no other; any other text is refused as a whole. Zeros in front of the digits make no difference,
however many they are. What is printed for an integer is accepted and gives the integer back.
-/
theorem integers_are_read_exactly (position : Nat) :
    (∀ text : String, EndsAs (Operand.ofArgument ⟨.int, text, position⟩)
      (fun o => ∃ z : Int, Text.Signed text.toList z ∧ (-2 ^ 63 ≤ z ∧ z ≤ 2 ^ 63 - 1) ∧
        ∃ n : Int64, n.toInt = z ∧ o = .literal (.int n))
      (fun e => (∀ z : Int, Text.Signed text.toList z → ¬ (-2 ^ 63 ≤ z ∧ z ≤ 2 ^ 63 - 1)) ∧
        e = .invalidInt text)) ∧
    (∀ (text : String) (y z : Int),
      Text.Signed text.toList y → Text.Signed text.toList z → y = z) ∧
    (∀ sign factor mark base digits n, Text.IsSign sign factor → Text.IsMark mark base →
      Text.Denotes base digits n → Text.Signed (sign ++ (mark ++ digits)) (factor * n) ∧
        ∀ zeros : Nat,
          (Operand.ofArgument ⟨.int,
            String.ofList (sign ++ (mark ++ (List.replicate zeros '0' ++ digits))),
              position⟩).toOption =
          (Operand.ofArgument ⟨.int, String.ofList (sign ++ (mark ++ digits)),
            position⟩).toOption) ∧
    ∀ n : Int64, ∃ text, (Operand.literal (.int n)).text = "int@" ++ text ∧
      Operand.ofArgument ⟨.int, text, position⟩ = .ok (.literal (.int n)) := by
  refine ⟨fun text => ?_, fun text y z => Text.Signed.unique, ?_, fun n => ?_⟩
  · apply (Operand.ofArgument_int_endsAs text position).congr
    · -- What a text stands for is in range exactly if it is a machine integer.
      intro o
      constructor
      · rintro ⟨n, written, rfl⟩
        exact ⟨n.toInt, written, Text.exists_toInt_iff.mp ⟨n, rfl⟩, n, rfl, rfl⟩
      · rintro ⟨_, written, _, n, rfl, rfl⟩
        exact ⟨n, written, rfl⟩
    · intro e
      apply and_congr_left
      intro _
      constructor
      · intro never z written range
        obtain ⟨n, rfl⟩ := Text.exists_toInt_iff.mpr range
        exact never n written
      · intro outside n written
        exact outside n.toInt written (Text.exists_toInt_iff.mp ⟨n, rfl⟩)
  · intro sign factor mark base digits n signed marked denotes
    have written := signed.signed (marked.unsigned denotes)
    refine ⟨written, fun zeros => ?_⟩
    -- Both texts stand for one integer, which is in range for both or for neither.
    have longer := signed.signed (marked.zeros denotes zeros)
    rw [Operand.toOption_ofArgument_int, Operand.toOption_ofArgument_int, String.toList_ofList,
      String.toList_ofList, Text.readIntLiteral_of_signed written,
      Text.readIntLiteral_of_signed longer]
  · -- Printing uses the decimal notation.
    have read := Text.readIntLiteral_repr n
    refine ⟨n.toInt.repr, ?_, ?_⟩
    · rfl
    · simp only [Operand.ofArgument, Operand.ofText, read]

/-- The least machine integer is read from hexadecimal digits behind zeros, but only with a sign. -/
theorem integers_are_read_exactly_of_least :
    Text.IsSign ['-'] (-1) ∧ Text.IsMark ['0', 'x'] 16 ∧
    Text.Denotes 16 "8000000000000000".toList (2 ^ 63) ∧
    (Operand.ofArgument ⟨.int, "-0x008000000000000000", 1⟩).toOption =
      some (.literal (.int Int64.minValue)) ∧
    Operand.ofArgument ⟨.int, "0x8000000000000000", 1⟩ =
      .error (.invalidInt "0x8000000000000000") := by
  obtain ⟨reads, unique, zeros, _⟩ := integers_are_read_exactly 1
  have digits : Text.Denotes 16 "8000000000000000".toList (2 ^ 63) :=
    (Text.readNatural_eq_some_iff (by decide)).mp (by decide)
  have mark : Text.IsMark ['0', 'x'] 16 := .hexadecimal (.inl rfl)
  -- Zeros may be left out, and with the sign the number is the least that is in range.
  obtain ⟨negative, longer⟩ := zeros _ _ _ _ _ _ .minus mark digits
  have least : Operand.ofArgument ⟨.int, "-0x8000000000000000", 1⟩ =
      .ok (.literal (.int Int64.minValue)) :=
    ((reads _).ok_iff _).mpr ⟨_, negative, by decide, Int64.minValue, by decide, rfl⟩
  refine ⟨.minus, mark, digits, (longer 2).trans (congrArg Except.toOption least), ?_⟩
  -- Without a sign the number is one more than the greatest that is in range.
  obtain ⟨positive, _⟩ := zeros _ _ _ _ _ _ .none mark digits
  refine ((reads _).error_iff _).mpr ⟨fun z written range => ?_, rfl⟩
  have same := unique "0x8000000000000000" _ _ positive written
  omega

end ThreeAddress
