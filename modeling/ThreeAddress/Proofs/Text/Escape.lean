import ThreeAddress.Text.Escape

/-! Escaped text reads back as the text that it stands for and holds nothing that needs it. -/

namespace ThreeAddress.Text

/-- Three digits denote the number that has them in its decimal form. -/
theorem ofThreeDigits_digitChar {x y z : Nat} (hundreds : x < 10) (tens : y < 10)
    (ones : z < 10) :
    ofThreeDigits (Nat.digitChar x) (Nat.digitChar y) (Nat.digitChar z) =
      100 * x + 10 * y + z := by
  -- The codes of the digits count on from that of zero.
  have digit {d : Nat} (below : d < 10) : (Nat.digitChar d).toNat - '0'.toNat = d :=
    Nat.toNat_digitChar_sub_48_of_lt_ten below
  unfold ofThreeDigits
  rw [digit hundreds, digit tens, digit ones]
  omega

/-- Whatever three digits stand behind a backslash, they tell a character. -/
theorem charOfCode?_ofThreeDigits {x y z : Char}
    (digits : (x.isDigit && y.isDigit && z.isDigit) = true) :
    charOfCode? (ofThreeDigits x y z) = some (Char.ofNat (ofThreeDigits x y z)) := by
  -- The greatest number of three digits is far below the surrogates.
  have value {c : Char} (decimal : c.isDigit = true) : c.toNat - '0'.toNat ≤ 9 := by
    have high : c.toNat ≤ 57 := (Char.isDigit_iff_toNat.mp decimal).2
    change c.toNat - 48 ≤ 9
    omega
  simp only [Bool.and_eq_true] at digits
  have hundreds := value digits.1.1
  have tens := value digits.1.2
  have ones := value digits.2
  refine if_pos (.inl ?_)
  unfold ofThreeDigits
  omega

/-- A backslash and three digits read back as one character. -/
theorem unescape_code {x y z : Char} (digits : (x.isDigit && y.isDigit && z.isDigit) = true)
    (rest : List Char) : unescape ('\\' :: x :: y :: z :: rest) =
      (unescape rest).map (Char.ofNat (ofThreeDigits x y z) :: ·) := by
  -- The digits are taken together, and they never fail to tell a character.
  rw [unescape, if_pos digits, charOfCode?_ofThreeDigits digits, Option.bind_some]

/-- An escape reads back as one character. -/
theorem unescape_threeDigits {n : Nat} (small : n < 1000) (rest : List Char) :
    unescape ('\\' :: threeDigits n ++ rest) = (unescape rest).map (Char.ofNat n :: ·) := by
  -- The digits of the number are decimal, and they denote the number.
  have digit {d : Nat} (below : d < 10) : (Nat.digitChar d).isDigit = true := by
    simp [below]
  have number : 100 * (n / 100) + 10 * (n / 10 % 10) + n % 10 = n := by omega
  have digits : ((Nat.digitChar (n / 100)).isDigit && (Nat.digitChar (n / 10 % 10)).isDigit &&
      (Nat.digitChar (n % 10)).isDigit) = true := by
    rw [digit (by omega), digit (by omega), digit (by omega), Bool.and_self, Bool.and_self]
  simp only [threeDigits, List.cons_append, List.nil_append]
  rw [unescape_code digits, ofThreeDigits_digitChar (by omega) (by omega) (by omega), number]

/-- A character that begins no escape reads back as itself. -/
theorem unescape_cons {c : Char} (plain : c ≠ '\\') (rest : List Char) :
    unescape (c :: rest) = (unescape rest).map (c :: ·) := by
  -- Only a backslash is looked at together with what comes behind it.
  rw [unescape]
  · simp [plain]
  · intro x y z others same
    exact absurd same plain

private theorem toNat_of_needsEscape {c : Char} (special : needsEscape c = true) :
    c.toNat < 128 := by
  -- Only characters with small codes need an escape.
  simp only [needsEscape, Bool.or_eq_true, decide_eq_true_eq] at special
  rcases special with ((blank | delete) | rfl) | rfl
  · omega
  · omega
  · decide
  · decide

/-- Escaped text reads back as the text it was made from. -/
theorem unescape_escape (text : List Char) : unescape (escape text) = some text := by
  -- Each character is read back by itself, escaped or not.
  induction text with
  | nil => rfl
  | cons c rest ih =>
    rw [escape, List.flatMap_cons]
    change unescape (escapeChar c ++ escape rest) = _
    by_cases special : needsEscape c = true
    · -- Three digits suffice, since only small codes are escaped.
      have small : c.toNat < 1000 := Nat.lt_trans (toNat_of_needsEscape special) (by decide)
      rw [escapeChar, if_pos special, unescape_threeDigits small, ih]
      simp
    · -- A character that stands for itself is no backslash, which would begin an escape.
      have plain : c ≠ '\\' := by
        rintro rfl
        exact special (by decide)
      rw [escapeChar, if_neg special, List.singleton_append, unescape_cons plain, ih]
      rfl

/-- Escaped text consists of backslashes, digits and characters that need no escape. -/
theorem mem_escape {c : Char} {text : List Char} (member : c ∈ escape text) :
    c = '\\' ∨ c.isDigit = true ∨ needsEscape c = false := by
  -- The characters come from an escape or stand for themselves.
  obtain ⟨d, _, member⟩ := List.mem_flatMap.mp member
  unfold escapeChar at member
  split at member
  · rename_i special
    have small := toNat_of_needsEscape special
    simp only [threeDigits, List.mem_cons, List.not_mem_nil, or_false] at member
    rcases member with rfl | rfl | rfl | rfl
    · exact .inl rfl
    · exact .inr (.inl (by simp; omega))
    · exact .inr (.inl (by simp; omega))
    · exact .inr (.inl (by simp; omega))
  · rename_i plain
    rw [List.mem_singleton.mp member]
    exact .inr (.inr (by simpa using plain))

end ThreeAddress.Text
