import ThreeAddress.Language.Argument
import ThreeAddress.Proofs.Text.Notation
import ThreeAddress.Proofs.Text.Utf8

/-!
Escaped text is cut into pieces, each of which stands for one character. There is one way of cutting
at most, and decoding takes a text exactly if there is one.
-/

namespace ThreeAddress

namespace Text

/-- A piece of escaped text. -/
inductive Piece where
  /-- A character that stands for itself. -/
  | plain (c : Char) (other : c ≠ '\\')
  /-- A backslash and three decimal digits. -/
  | code (x y z : Fin 10)

namespace Piece

/-- The characters that a piece is written with. -/
def written : Piece → List Char
  | plain c _ => [c]
  | code x y z => ['\\', Nat.digitChar x, Nat.digitChar y, Nat.digitChar z]

/-- The code point of the character that a piece stands for. -/
def codePoint : Piece → Nat
  | plain c _ => c.toNat
  | code x y z => 100 * x + 10 * y + z

/-- The character that a piece stands for. -/
def char (p : Piece) : Char :=
  Char.ofNat p.codePoint

/-- Every piece stands for a character, for three digits do not reach the surrogates. -/
theorem codePoint_valid (p : Piece) : p.codePoint.isValidChar := by
  -- A character has a valid code already, and three digits stay below a thousand.
  cases p with
  | plain c => exact c.valid
  | code x y z =>
    apply Or.inl
    change 100 * x.val + 10 * y.val + z.val < 0xd800
    omega

/-- The character of a piece has the code point of the piece. -/
theorem toNat_char (p : Piece) : p.char.toNat = p.codePoint :=
  toNat_charOfNat p.codePoint_valid

/-- A piece that stands for itself is the character that it stands for. -/
@[simp] theorem char_plain {c : Char} (other : c ≠ '\\') : (plain c other).char = c :=
  Char.ofNat_toNat c

end Piece

/-- Pieces that make up a text, one behind the other. -/
def IsCut (raw : String) (pieces : List Piece) : Prop :=
  raw.toList = pieces.flatMap Piece.written

instance (raw : String) (pieces : List Piece) : Decidable (IsCut raw pieces) :=
  inferInstanceAs (Decidable (_ = _))

/-- A decimal digit is not a backslash. -/
theorem digitChar_ne_backslash (d : Fin 10) : Nat.digitChar d ≠ '\\' := by
  -- There are only ten digits to compare it with.
  decide +revert

private theorem digitChar_injective :
    ∀ d e : Fin 10, Nat.digitChar d = Nat.digitChar e → d = e := by
  -- There are only ten digits to compare with each other.
  decide

/-- A decimal digit is the digit of a number below ten. -/
theorem exists_digit {c : Char} (decimal : c.isDigit = true) :
    ∃ d : Fin 10, Nat.digitChar d = c := by
  -- The codes of the digits follow one another, beginning with that of zero.
  obtain ⟨low, high⟩ := Char.isDigit_iff_toNat.mp decimal
  have low : 48 ≤ c.toNat := low
  have high : c.toNat ≤ 57 := high
  refine ⟨⟨c.toNat - 48, by omega⟩, ?_⟩
  rw [← Char.toNat_inj, Nat.toNat_digitChar_of_lt_ten (by omega)]
  dsimp only
  omega

/-- No piece begins another one, so that the first piece of a text is told by the text. -/
theorem Piece.written_append_inj {p q : Piece} {s t : List Char}
    (same : p.written ++ s = q.written ++ t) : p = q ∧ s = t := by
  -- Only an escape begins with a backslash, and an escape has three digits always.
  cases p with
  | plain c other =>
    cases q with
    | plain d different =>
      cases same
      exact ⟨rfl, rfl⟩
    | code x y z =>
      cases same
      exact absurd rfl other
  | code x y z =>
    cases q with
    | plain d different =>
      cases same
      exact absurd rfl different
    | code u v w =>
      simp only [written, List.cons_append, List.nil_append, List.cons.injEq, true_and] at same
      obtain ⟨first, second, third, rest⟩ := same
      rw [digitChar_injective x u first, digitChar_injective y v second,
        digitChar_injective z w third]
      exact ⟨rfl, rest⟩

/-- Pieces are told by the characters that they are written with. -/
theorem flatMap_written_injective :
    Function.Injective fun pieces : List Piece => pieces.flatMap Piece.written := by
  -- The first piece is told by the text, and what is left tells the others.
  intro pieces others same
  dsimp only at same
  induction pieces generalizing others with
  | nil =>
    cases others with
    | nil => rfl
    | cons q others => cases q <;> cases same
  | cons p pieces ih =>
    cases others with
    | nil => cases p <;> cases same
    | cons q others =>
      rw [List.flatMap_cons, List.flatMap_cons] at same
      obtain ⟨rfl, rest⟩ := Piece.written_append_inj same
      rw [ih rest]

/-- What is written in pieces stands for the characters of the pieces. -/
theorem escaped_pieces (pieces : List Piece) :
    Escaped (pieces.flatMap Piece.written) (pieces.map Piece.char) := by
  -- Each kind of piece is one rule of the notation.
  induction pieces with
  | nil => exact .nil
  | cons p pieces ih =>
    rw [List.flatMap_cons, List.map_cons]
    cases p with
    | plain c other =>
      rw [Piece.char_plain]
      exact .plain other ih
    | code x y z =>
      have digit (d : Fin 10) : (Nat.digitChar d).isDigit = true := by decide +revert
      refine .code (denotes_three_iff.mpr ⟨?_, ?_⟩) ih
      · rw [digit, digit, digit]
        rfl
      · exact (ofThreeDigits_digitChar x.isLt y.isLt z.isLt).symm

/-- Escaped text can be cut into pieces that stand for its characters. -/
theorem Escaped.exists_pieces {raw text : List Char} (escaped : Escaped raw text) :
    ∃ pieces : List Piece, raw = pieces.flatMap Piece.written ∧ text = pieces.map Piece.char := by
  -- Each rule of the notation adds one piece in front.
  induction escaped with
  | nil => exact ⟨[], rfl, rfl⟩
  | plain other _ ih =>
    obtain ⟨pieces, rfl, rfl⟩ := ih
    refine ⟨.plain _ other :: pieces, rfl, ?_⟩
    rw [List.map_cons, Piece.char_plain]
  | code digits _ ih =>
    obtain ⟨pieces, rfl, rfl⟩ := ih
    obtain ⟨decimal, rfl⟩ := denotes_three_iff.mp digits
    simp only [Bool.and_eq_true] at decimal
    obtain ⟨x, rfl⟩ := exists_digit decimal.1.1
    obtain ⟨y, rfl⟩ := exists_digit decimal.1.2
    obtain ⟨z, rfl⟩ := exists_digit decimal.2
    refine ⟨.code x y z :: pieces, rfl, ?_⟩
    rw [List.map_cons, ofThreeDigits_digitChar x.isLt y.isLt z.isLt]
    rfl

/-- What stands behind an escaped text is read as it would be alone. -/
theorem unescape_append {raw text : List Char} (read : unescape raw = some text)
    (behind : List Char) : unescape (raw ++ behind) = (unescape behind).map (text ++ ·) := by
  have escaped := unescape_eq_some_iff.mp read
  clear read
  -- Each character and each escape is taken off alike, whatever stands behind all of them.
  induction escaped with
  | nil => simp
  | plain other _ ih =>
    rw [List.cons_append, unescape_cons other, ih, Option.map_map]
    rfl
  | code digits _ ih =>
    obtain ⟨decimal, rfl⟩ := denotes_three_iff.mp digits
    rw [List.cons_append, List.cons_append, List.cons_append, List.cons_append,
      unescape_code decimal, ih, Option.map_map]
    rfl

end Text

section

variable {raw text : String} {e : ArgumentError}

/-- A text is decoded to what its characters are read as. -/
theorem decodeString_eq_ok_iff :
    decodeString raw = .ok text ↔ Text.unescape raw.toList = some text.toList := by
  -- Strings are put together from the characters that were read, and taken apart again.
  unfold decodeString
  cases Text.unescape raw.toList with
  | none => exact iff_of_false nofun nofun
  | some content =>
    rw [Except.ok.injEq, Option.some.injEq, ← String.toList_inj, String.toList_ofList]

/-- A text that is not decoded is named as a whole. -/
theorem decodeString_eq_error_iff : decodeString raw = .error e ↔
    Text.unescape raw.toList = none ∧ e = .invalidString raw := by
  -- There is one error, and it is raised where nothing is read.
  unfold decodeString
  cases Text.unescape raw.toList with
  | none => simp [eq_comm]
  | some content => exact iff_of_false nofun nofun

/-- A text that is cut into pieces is decoded to the characters of the pieces. -/
theorem Text.IsCut.decodeString_eq {pieces : List Text.Piece} (cut : Text.IsCut raw pieces) :
    decodeString raw = .ok (String.ofList (pieces.map Text.Piece.char)) := by
  -- What is written in pieces is read as the characters of the pieces.
  rw [decodeString_eq_ok_iff, cut, String.toList_ofList]
  exact Text.unescape_eq_some_iff.mpr (Text.escaped_pieces pieces)

/-- A text that is decoded is cut into pieces. -/
theorem exists_isCut (decoded : decodeString raw = .ok text) :
    ∃ pieces, Text.IsCut raw pieces ∧ text.toList = pieces.map Text.Piece.char :=
  (Text.unescape_eq_some_iff.mp (decodeString_eq_ok_iff.mp decoded)).exists_pieces

end

/--
Decoding takes exactly the texts that are cut into pieces, and never looks at its result again.

A text has one cut at most. Each piece stands for the one character whose code point it tells, and
every number that three digits can tell is a code point, so that no digits are refused for what they
tell. A text behind one that is decoded is decoded, or refused, as it is alone.
-/
theorem decoding_goes_by_pieces :
    (∀ raw, (∃ text, decodeString raw = .ok text) ↔ ∃ pieces, Text.IsCut raw pieces) ∧
    (∀ raw pieces others, Text.IsCut raw pieces → Text.IsCut raw others → pieces = others) ∧
    (∀ raw pieces, Text.IsCut raw pieces → ∃ text, decodeString raw = .ok text ∧
      Text.codePoints text = pieces.map Text.Piece.codePoint ∧ text.length = pieces.length) ∧
    (∀ p : Text.Piece, p.codePoint.isValidChar) ∧
    (∀ x y z : Char, (x.isDigit && y.isDigit && z.isDigit) = true →
      Text.charOfCode? (Text.ofThreeDigits x y z) ≠ none) ∧
    ∀ a b x, decodeString a = .ok x →
      (∀ y, decodeString b = .ok y → decodeString (a ++ b) = .ok (x ++ y)) ∧
      ∀ e, decodeString b = .error e →
        decodeString (a ++ b) = .error (.invalidString (a ++ b)) := by
  -- Reading follows the notation, and the notation is that of pieces.
  refine ⟨?_, ?_, ?_, Text.Piece.codePoint_valid, ?_, ?_⟩
  · intro raw
    constructor
    · rintro ⟨text, decoded⟩
      obtain ⟨pieces, cut, _⟩ := exists_isCut decoded
      exact ⟨pieces, cut⟩
    · rintro ⟨pieces, cut⟩
      exact ⟨_, cut.decodeString_eq⟩
  · intro raw pieces others cut other
    exact Text.flatMap_written_injective (cut.symm.trans other)
  · intro raw pieces cut
    refine ⟨_, cut.decodeString_eq, ?_, ?_⟩
    · rw [Text.codePoints, String.toList_ofList, List.map_map]
      exact List.map_congr_left fun p _ => p.toNat_char
    · rw [String.length_ofList, List.length_map]
  · intro x y z digits
    rw [Text.charOfCode?_ofThreeDigits digits]
    exact nofun
  · -- The first text is used up before anything behind it is looked at.
    intro a b x decoded
    have behind := Text.unescape_append (decodeString_eq_ok_iff.mp decoded) b.toList
    rw [← String.toList_append] at behind
    constructor
    · intro y rest
      rw [decodeString_eq_ok_iff] at rest ⊢
      rw [behind, rest, String.toList_append]
      rfl
    · intro e refused
      obtain ⟨unread, _⟩ := decodeString_eq_error_iff.mp refused
      rw [decodeString_eq_error_iff, behind, unread]
      exact ⟨rfl, rfl⟩

/-- An escaped backslash with digits behind it, which are not taken for another escape. -/
def escapedBackslash : List Text.Piece :=
  [.code 0 9 2, .plain '0' (by decide), .plain '3' (by decide), .plain '5' (by decide)]

/-- Digits behind an escaped backslash stand for themselves, and a backslash alone is refused. -/
theorem decoding_goes_by_pieces_of_escapedBackslash :
    (∃ text, decodeString "\\092035" = .ok text ∧ Text.codePoints text = [92, 48, 51, 53]) ∧
    decodeString ("\\092035" ++ "\\03") = .error (.invalidString "\\092035\\03") := by
  -- The pieces are the cut of the text, and behind them comes half an escape.
  obtain ⟨_, _, cuts, _, _, appends⟩ := decoding_goes_by_pieces
  have cut : Text.IsCut "\\092035" escapedBackslash := by decide
  obtain ⟨text, decoded, codePoints, _⟩ := cuts _ _ cut
  refine ⟨⟨text, decoded, codePoints⟩, ?_⟩
  exact (appends _ "\\03" text decoded).2 _ rfl

end ThreeAddress
