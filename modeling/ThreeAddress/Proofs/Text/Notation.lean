import Mathlib.Data.List.Forall2
import Mathlib.Data.Nat.Digits.Defs
import Mathlib.Tactic.Ring
import ThreeAddress.Proofs.Text.Escape
import ThreeAddress.Proofs.Text.Numeral

/-!
The notation of integers and of escaped texts, as relations between what is written and what it
stands for. Reading finds exactly what a notation stands for.
-/

namespace ThreeAddress.Text

/-- A character is a digit of a base up to sixteen, where the case of letters does not matter. -/
def IsDigit (base : Nat) (c : Char) (digit : Nat) : Prop :=
  digit < base ∧ c.toLower = Nat.digitChar digit

/-- One or more digits and the number that they denote, where the first weighs most. -/
def Denotes (base : Nat) (text : List Char) (n : Nat) : Prop :=
  text ≠ [] ∧ ∃ digits, List.Forall₂ (IsDigit base) text digits ∧
    n = Nat.ofDigits base digits.reverse

/-- Numerals of integer literals without a sign: they are decimal unless a mark says otherwise. -/
inductive Unsigned : List Char → Nat → Prop where
  | decimal {digits : List Char} {n : Nat} (denotes : Denotes 10 digits n) : Unsigned digits n
  | hexadecimal {x : Char} {digits : List Char} {n : Nat} (mark : x = 'x' ∨ x = 'X')
      (denotes : Denotes 16 digits n) : Unsigned ('0' :: x :: digits) n
  | octal {o : Char} {digits : List Char} {n : Nat} (mark : o = 'o' ∨ o = 'O')
      (denotes : Denotes 8 digits n) : Unsigned ('0' :: o :: digits) n

/-- Numerals of a kind that may have a sign, which makes an integer of the number behind it. -/
inductive WithSign (numeral : List Char → Nat → Prop) : List Char → Int → Prop where
  | unsigned {text : List Char} {n : Nat} (bare : numeral text n) : WithSign numeral text n
  | plus {text : List Char} {n : Nat} (bare : numeral text n) : WithSign numeral ('+' :: text) n
  | minus {text : List Char} {n : Nat} (bare : numeral text n) : WithSign numeral ('-' :: text) (-n)

/-- Numerals of integer literals, which may have a sign. -/
abbrev Signed : List Char → Int → Prop :=
  WithSign Unsigned

/-- Escaped texts: a character stands for itself unless a backslash and three digits tell it. -/
inductive Escaped : List Char → List Char → Prop where
  | nil : Escaped [] []
  | plain {c : Char} {raw text : List Char} (other : c ≠ '\\') (rest : Escaped raw text) :
      Escaped (c :: raw) (c :: text)
  | code {x y z : Char} {code : Nat} {raw text : List Char} (digits : Denotes 10 [x, y, z] code)
      (rest : Escaped raw text) : Escaped ('\\' :: x :: y :: z :: raw) (Char.ofNat code :: text)

private theorem digitValue_ascii : ∀ (code : Fin 128) (digit : Fin 16),
    digitValue (Char.ofNat code) = some digit.val ↔
      (Char.ofNat code).toLower = Nat.digitChar digit := by
  -- There are only so many characters and digits.
  decide +kernel

private theorem digitValue_beyond {c : Char} (beyond : 128 ≤ c.toNat) :
    digitValue c = none ∧ c.toLower = c := by
  -- All digits and all letters with a counterpart are in ASCII.
  have above {d : Char} (ascii : d.toNat < 128) : ¬ c ≤ d := by
    rw [Char.le_def, UInt32.le_iff_toNat_le]
    exact Nat.not_le.mpr (Nat.lt_of_lt_of_le ascii beyond)
  have nine := above (show '9'.toNat < 128 by decide)
  have lower := above (show 'z'.toNat < 128 by decide)
  have upper := above (show 'Z'.toNat < 128 by decide)
  constructor
  · simp [digitValue, nine, lower, upper]
  · unfold Char.toLower
    rw [dif_neg]
    rintro ⟨_, letter⟩
    exact upper letter

/-- A character is read as the digit that it is, if it is one. -/
theorem digitIn_eq_some_iff {base : Nat} (small : base ≤ 16) {c : Char} {digit : Nat} :
    digitIn base c = some digit ↔ IsDigit base c digit := by
  -- Both sides ask that the digit is one of the base, so that only its value is left.
  unfold digitIn IsDigit
  rw [Option.filter_eq_some_iff, and_comm, decide_eq_true_eq]
  refine and_congr_right fun below => ?_
  by_cases ascii : c.toNat < 128
  · have known := digitValue_ascii ⟨c.toNat, ascii⟩ ⟨digit, by omega⟩
    simpa only [Char.ofNat_toNat] using known
  · -- A character beyond ASCII has no value, and it is no digit of any base.
    obtain ⟨none, same⟩ := digitValue_beyond (Nat.not_lt.mp ascii)
    rw [none, same]
    refine iff_of_false nofun ?_
    rintro rfl
    have digits : ∀ digit : Fin 16, (Nat.digitChar digit).toNat < 128 := by decide
    exact ascii (digits ⟨digit, by omega⟩)

variable {base : Nat} {text : List Char} {n : Nat}

private theorem readDigits_eq_some_iff (small : base ≤ 16) {value : Nat} :
    readDigits base value text = some n ↔
      ∃ digits, List.Forall₂ (IsDigit base) text digits ∧
        n = value * base ^ digits.length + Nat.ofDigits base digits.reverse := by
  -- Each digit multiplies what was read before it by the base.
  induction text generalizing value with
  | nil => simp [readDigits, List.forall₂_nil_left_iff, eq_comm]
  | cons c rest ih =>
    rw [readDigits, Option.bind_eq_some_iff]
    constructor
    · rintro ⟨digit, first, read⟩
      obtain ⟨digits, others, rfl⟩ := ih.mp read
      refine ⟨digit :: digits, .cons ((digitIn_eq_some_iff small).mp first) others, ?_⟩
      rw [List.reverse_cons, Nat.ofDigits_append, List.length_reverse, List.length_cons,
        Nat.ofDigits_singleton]
      ring
    · rintro ⟨digits, written, rfl⟩
      obtain ⟨digit, digits, first, others, rfl⟩ := List.forall₂_cons_left_iff.mp written
      refine ⟨digit, (digitIn_eq_some_iff small).mpr first, ih.mpr ⟨digits, others, ?_⟩⟩
      rw [List.reverse_cons, Nat.ofDigits_append, List.length_reverse, List.length_cons,
        Nat.ofDigits_singleton]
      ring

/-- Digits are read as the number that they denote. -/
theorem readNatural_eq_some_iff (small : base ≤ 16) :
    readNatural base text = some n ↔ Denotes base text n := by
  -- Without any digit nothing is read, and nothing is denoted.
  unfold readNatural Denotes
  cases text with
  | nil => simp
  | cons c rest =>
    rw [List.isEmpty_cons, if_neg Bool.false_ne_true, readDigits_eq_some_iff small]
    simp

private theorem not_denotes_marked {mark : Char} (letter : digitIn 10 mark = none)
    {digits : List Char} : ¬ Denotes 10 ('0' :: mark :: digits) n := by
  -- What stands behind the zero would have to be a digit.
  rintro ⟨_, _, written, _⟩
  obtain ⟨_, _, _, others, _⟩ := List.forall₂_cons_left_iff.mp written
  obtain ⟨digit, _, second, _, _⟩ := List.forall₂_cons_left_iff.mp others
  rw [(digitIn_eq_some_iff (by decide)).mpr second] at letter
  cases letter

/-- A numeral is read as the number that it stands for, whatever its base. -/
theorem readMarked_eq_some_iff : readMarked text = some n ↔ Unsigned text n := by
  -- The marks are tried first, and each is followed by digits of its base.
  constructor
  · intro read
    unfold readMarked at read
    split at read
    · exact .hexadecimal (.inl rfl) ((readNatural_eq_some_iff (by decide)).mp read)
    · exact .hexadecimal (.inr rfl) ((readNatural_eq_some_iff (by decide)).mp read)
    · exact .octal (.inl rfl) ((readNatural_eq_some_iff (by decide)).mp read)
    · exact .octal (.inr rfl) ((readNatural_eq_some_iff (by decide)).mp read)
    · exact .decimal ((readNatural_eq_some_iff (by decide)).mp read)
  · rintro (denotes | ⟨rfl | rfl, denotes⟩ | ⟨rfl | rfl, denotes⟩)
    · -- A decimal numeral cannot be mistaken for a marked one.
      unfold readMarked
      split
      · exact absurd denotes (not_denotes_marked (by decide))
      · exact absurd denotes (not_denotes_marked (by decide))
      · exact absurd denotes (not_denotes_marked (by decide))
      · exact absurd denotes (not_denotes_marked (by decide))
      · exact (readNatural_eq_some_iff (by decide)).mpr denotes
    · exact (readNatural_eq_some_iff (by decide)).mpr denotes
    · exact (readNatural_eq_some_iff (by decide)).mpr denotes
    · exact (readNatural_eq_some_iff (by decide)).mpr denotes
    · exact (readNatural_eq_some_iff (by decide)).mpr denotes

private theorem not_denotes_signed {sign : Char} (other : digitIn 10 sign = none)
    (rest : List Char) : ¬ Denotes 10 (sign :: rest) n := by
  -- What stands in front would have to be a digit.
  rintro ⟨_, _, written, _⟩
  obtain ⟨digit, _, first, _, _⟩ := List.forall₂_cons_left_iff.mp written
  rw [(digitIn_eq_some_iff (by decide)).mpr first] at other
  cases other

private theorem not_unsigned_signed {sign : Char} (other : digitIn 10 sign = none)
    (rest : List Char) : ¬ Unsigned (sign :: rest) n := by
  -- Every numeral without a sign begins with a decimal digit.
  rintro (denotes | _ | _)
  · exact not_denotes_signed other rest denotes
  · cases other
  · cases other

private theorem lifted_eq_some_iff {number : Option Nat} {z : Int} :
    (do let n ← number; pure (n : Int)) = some z ↔ ∃ n : Nat, number = some n ∧ z = n := by
  -- A natural number is read before it becomes an integer.
  cases number with
  | none => simp
  | some n => simp [eq_comm]

/-- What reads numerals without a sign reads those with one, if no numeral begins with a sign. -/
theorem readSigned_eq_some_iff_withSign {read : List Char → Option Nat}
    {numeral : List Char → Nat → Prop} (reads : ∀ text n, read text = some n ↔ numeral text n)
    (apart : ∀ sign rest n, sign = '+' ∨ sign = '-' → ¬ numeral (sign :: rest) n) {z : Int} :
    readSigned read text = some z ↔ WithSign numeral text z := by
  constructor
  · intro done
    unfold readSigned at done
    split at done
    · obtain ⟨_, lifted, rfl⟩ := Option.map_eq_some_iff.mp done
      obtain ⟨n, bare, rfl⟩ := lifted_eq_some_iff.mp lifted
      exact .minus ((reads _ n).mp bare)
    · obtain ⟨_, lifted, rfl⟩ := Option.map_eq_some_iff.mp done
      obtain ⟨n, bare, rfl⟩ := lifted_eq_some_iff.mp lifted
      exact .plus ((reads _ n).mp bare)
    · obtain ⟨_, lifted, rfl⟩ := Option.map_eq_some_iff.mp done
      obtain ⟨n, bare, rfl⟩ := lifted_eq_some_iff.mp lifted
      exact .unsigned ((reads _ n).mp bare)
  · intro written
    cases written with
    | @unsigned _ n bare =>
      -- A numeral without a sign cannot be mistaken for one with a sign.
      unfold readSigned
      split
      · exact absurd bare (apart '-' _ n (.inr rfl))
      · exact absurd bare (apart '+' _ n (.inl rfl))
      · rw [(reads _ n).mpr bare]
        rfl
    | @plus _ n bare =>
      rw [readSigned, (reads _ n).mpr bare]
      rfl
    | @minus _ n bare =>
      rw [readSigned, (reads _ n).mpr bare]
      rfl

/-- A numeral with or without a sign is read as the integer that it stands for. -/
theorem readSigned_eq_some_iff {z : Int} :
    readSigned readMarked text = some z ↔ Signed text z := by
  -- No numeral without a sign begins like one with a sign.
  apply readSigned_eq_some_iff_withSign fun _ _ => readMarked_eq_some_iff
  intro sign rest n either
  rcases either with rfl | rfl
  · exact not_unsigned_signed (by decide) rest
  · exact not_unsigned_signed (by decide) rest

/-- Integers in range and machine integers correspond one to one. -/
theorem toInt64?_eq_some_iff {z : Int} {v : Int64} :
    toInt64? z = some v ↔ z = v.toInt := by
  -- Within the range a machine integer is made of the number, and it is that number.
  unfold toInt64?
  constructor
  · intro inRange
    split at inRange
    · rename_i range
      cases inRange
      refine (Int64.toInt_ofInt_of_le ?_ ?_).symm
      · exact range.1
      · exact Int.lt_of_le_of_lt range.2 (by decide)
    · cases inRange
  · rintro rfl
    rw [if_pos ⟨v.minValue_le_toInt, v.toInt_le⟩, Int64.ofInt_toInt]

private theorem bind_toInt64?_eq_some_iff {number : Option Int} {v : Int64} :
    number.bind toInt64? = some v ↔ number = some v.toInt := by
  -- An integer that is out of range stands for no machine integer.
  rw [Option.bind_eq_some_iff]
  constructor
  · rintro ⟨z, read, inRange⟩
    rw [read, toInt64?_eq_some_iff.mp inRange]
  · intro read
    exact ⟨v.toInt, read, toInt64?_eq_some_iff.mpr rfl⟩

/-- An integer literal is read as a machine integer exactly where it stands for it. -/
theorem readIntLiteral_eq_some_iff {v : Int64} :
    readIntLiteral text = some v ↔ Signed text v.toInt := by
  -- The numeral is read first, and then its range is checked.
  rw [readIntLiteral, bind_toInt64?_eq_some_iff, readSigned_eq_some_iff]

/-- A decimal numeral is read as a machine integer exactly where it stands for it. -/
theorem readInt64_eq_some_iff {v : Int64} :
    readInt64 text = some v ↔ WithSign (Denotes 10) text v.toInt := by
  -- No numeral without a sign begins like one with a sign.
  rw [readInt64, bind_toInt64?_eq_some_iff]
  apply readSigned_eq_some_iff_withSign fun _ _ => readNatural_eq_some_iff (by decide)
  intro sign rest n either
  rcases either with rfl | rfl
  · exact not_denotes_signed (by decide) rest
  · exact not_denotes_signed (by decide) rest

private theorem isDigit_of_isDigit {c : Char} {digit : Nat} (h : IsDigit 10 c digit) :
    c.isDigit = true := by
  -- Letters count on from ten, so none of them is a decimal digit.
  have read := (digitIn_eq_some_iff (by decide)).mpr h
  rw [digitIn, Option.filter_eq_some_iff, decide_eq_true_eq] at read
  obtain ⟨value, below⟩ := read
  unfold digitValue at value
  split at value
  · rename_i range
    simpa [Char.isDigit, Char.le_def] using range
  · split at value
    · cases value
      omega
    · split at value
      · cases value
        omega
      · cases value

private theorem readNatural_three {x y z : Char} (first : x.isDigit = true)
    (second : y.isDigit = true) (third : z.isDigit = true) :
    readNatural 10 [x, y, z] = some (ofThreeDigits x y z) := by
  -- The three digits count hundreds, tens and ones.
  have decimal : ∀ c ∈ [x, y, z], c.isDigit = true := by simp [first, second, third]
  rw [readNatural, List.isEmpty_cons, if_neg Bool.false_ne_true, readDigits_ten decimal]
  simp only [Nat.ofDigitChars_cons, Nat.ofDigitChars_nil, ofThreeDigits, Option.some.injEq]
  ring

/-- Three decimal digits denote the number that an escape takes them for. -/
theorem denotes_three_iff {x y z : Char} {code : Nat} :
    Denotes 10 [x, y, z] code ↔
      (x.isDigit && y.isDigit && z.isDigit) = true ∧ code = ofThreeDigits x y z := by
  -- Each of the digits is a decimal one, and the number is read from them in one way only.
  rw [Bool.and_eq_true, Bool.and_eq_true]
  constructor
  · intro denotes
    obtain ⟨_, _, written, _⟩ := id denotes
    obtain ⟨_, _, first, written, _⟩ := List.forall₂_cons_left_iff.mp written
    obtain ⟨_, _, second, written, _⟩ := List.forall₂_cons_left_iff.mp written
    obtain ⟨_, _, third, _, _⟩ := List.forall₂_cons_left_iff.mp written
    have x := isDigit_of_isDigit first
    have y := isDigit_of_isDigit second
    have z := isDigit_of_isDigit third
    have read := (readNatural_eq_some_iff (by decide)).mpr denotes
    rw [readNatural_three x y z] at read
    exact ⟨⟨⟨x, y⟩, z⟩, (Option.some.inj read).symm⟩
  · rintro ⟨⟨⟨x, y⟩, z⟩, rfl⟩
    exact (readNatural_eq_some_iff (by decide)).mp (readNatural_three x y z)

/-- An escaped text is read as the text that it stands for. -/
theorem unescape_eq_some_iff {raw content : List Char} :
    unescape raw = some content ↔ Escaped raw content := by
  -- Reading takes one character or one escape at a time, and so does the notation.
  constructor
  · intro read
    fun_induction unescape raw generalizing content with
    | case1 =>
      cases read
      exact .nil
    | case2 x y z rest digits ih =>
      -- Three digits always tell a character, so that nothing but the rest can be refused.
      rw [charOfCode?_ofThreeDigits digits, Option.bind_some] at read
      obtain ⟨behind, others, rfl⟩ := Option.map_eq_some_iff.mp read
      exact .code (denotes_three_iff.mpr ⟨digits, rfl⟩) (ih others)
    | case3 => cases read
    | case4 => cases read
    | case5 c rest _ other ih =>
      obtain ⟨behind, others, rfl⟩ := Option.map_eq_some_iff.mp read
      exact .plain other (ih others)
  · intro written
    induction written with
    | nil => rfl
    | plain other rest ih => rw [unescape_cons other, ih, Option.map_some]
    | code digits rest ih =>
      obtain ⟨decimal, rfl⟩ := denotes_three_iff.mp digits
      rw [unescape_code decimal, ih, Option.map_some]

end ThreeAddress.Text
