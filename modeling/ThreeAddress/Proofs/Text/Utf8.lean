import Mathlib.Data.List.Lex
import Mathlib.Data.String.Basic

/-!
The order of texts. Texts are compared character by character, and whoever compares the bytes of
their UTF-8 encodings instead finds the same order, although characters differ in width.
-/

namespace ThreeAddress.Text

/-- The bytes of a text in UTF-8. -/
def bytes (s : String) : List UInt8 :=
  s.toUTF8.data.toList

/-- The code points of a text. -/
def codePoints (s : String) : List Nat :=
  s.toList.map Char.toNat

/-- A number that is valid for a character is the code point of the character that it makes. -/
theorem toNat_charOfNat {n : Nat} (valid : n.isValidChar) : (Char.ofNat n).toNat = n := by
  -- A valid number is not replaced by another one.
  rw [Char.ofNat, dif_pos valid]
  rfl

/-- How many bytes continue the character of a code point. -/
def continued (v : Nat) : Nat :=
  if v ≤ 0x7f then 0 else if v ≤ 0x7ff then 1 else if v ≤ 0xffff then 2 else 3

/-- The first byte of the character of a code point, which tells how many bytes continue it. -/
def leading (v : Nat) : Nat :=
  if v ≤ 0x7f then v
  else if v ≤ 0x7ff then v / 64 + 0xc0
  else if v ≤ 0xffff then v / 64 ^ 2 + 0xe0
  else v / 64 ^ 3 + 0xf0

/-- The last digits of a code point to the base 64, each in a byte that continues a character. -/
def continuing (v : Nat) : Nat → List UInt8
  | 0 => []
  | count + 1 => UInt8.ofNat (v / 64 ^ count % 64 + 0x80) :: continuing v count

private theorem codePoint_lt (c : Char) : c.toNat < 0x110000 := by
  -- A character is below the surrogates or above them, and never above the last plane.
  rcases c.valid with below | ⟨_, below⟩
  · exact Nat.lt_trans below (by decide)
  · exact below

/-- A character is its first byte and those that continue it. -/
theorem utf8EncodeChar_eq (c : Char) :
    String.utf8EncodeChar c =
      UInt8.ofNat (leading c.toNat) :: continuing c.toNat (continued c.toNat) := by
  -- The digits in front are so few that cutting them off to the width of a byte changes nothing.
  have small := codePoint_lt c
  unfold String.utf8EncodeChar leading continued
  rw [show c.val.toNat = c.toNat from rfl]
  dsimp only
  -- The four widths are told apart in the same way by both sides.
  split_ifs
  · rfl
  · rw [Nat.mod_eq_of_lt (by omega)]
    simp [continuing]
  · rw [Nat.mod_eq_of_lt (by omega)]
    simp [continuing]
  · rw [Nat.mod_eq_of_lt (by omega)]
    simp [continuing]

/-- First bytes rise with the code points, and where they agree the digits in front do. -/
theorem leading_lt {v w : Nat} (below : v < w) (small : w < 0x110000) :
    leading w < 256 ∧ (leading v < leading w ∨
      leading v = leading w ∧ continued v = continued w ∧
        v / 64 ^ continued v = w / 64 ^ continued v) := by
  -- The first bytes of wider characters begin where those of narrower ones end.
  unfold leading continued
  split_ifs <;> omega

/-- Where the digits in front agree, the digits behind them decide. -/
theorem continuing_lt {v w : Nat} (below : v < w) (count : Nat)
    (agree : v / 64 ^ count = w / 64 ^ count) (s t : List UInt8) :
    continuing v count ++ s < continuing w count ++ t := by
  -- The digits are listed from the front, so each one either decides or joins those that agree.
  induction count with
  | zero =>
    rw [Nat.pow_zero, Nat.div_one, Nat.div_one] at agree
    omega
  | succ count ih =>
    rw [Nat.pow_succ, ← Nat.div_div_eq_div_mul, ← Nat.div_div_eq_div_mul] at agree
    have ordered : v / 64 ^ count ≤ w / 64 ^ count := Nat.div_le_div_right (Nat.le_of_lt below)
    rw [continuing, continuing, List.cons_append, List.cons_append, List.cons_lt_cons_iff]
    by_cases same : v / 64 ^ count = w / 64 ^ count
    · rw [same]
      exact .inr ⟨rfl, ih same⟩
    · apply Or.inl
      rw [UInt8.lt_iff_toNat_lt, UInt8.toNat_ofNat', UInt8.toNat_ofNat']
      omega

/-- The bytes of a character are below those of a greater one, whatever follows them. -/
theorem utf8EncodeChar_lt {c d : Char} (below : c < d) (s t : List UInt8) :
    String.utf8EncodeChar c ++ s < String.utf8EncodeChar d ++ t := by
  have below : c.toNat < d.toNat := below
  -- The first bytes decide, or they agree and the bytes behind them do.
  obtain ⟨fits, first⟩ := leading_lt below (codePoint_lt d)
  rw [utf8EncodeChar_eq, utf8EncodeChar_eq, List.cons_append, List.cons_append,
    List.cons_lt_cons_iff]
  rcases first with first | ⟨same, width, agree⟩
  · apply Or.inl
    rw [UInt8.lt_iff_toNat_lt, UInt8.toNat_ofNat', UInt8.toNat_ofNat']
    omega
  · -- Equal first bytes announce equally many bytes, so that none of the two ends early.
    rw [same, ← width]
    exact .inr ⟨rfl, continuing_lt below _ agree s t⟩

/-- The bytes of a text are those of its characters. -/
theorem bytes_eq_flatMap (s : String) : bytes s = s.toList.flatMap String.utf8EncodeChar := by
  -- A text is held as the encoding of its characters.
  rw [bytes, String.toUTF8_eq_toByteArray, ← String.utf8Encode_toList, List.utf8Encode,
    List.data_toByteArray]

/-- The bytes of joined texts are the joined bytes. -/
theorem bytes_append (s t : String) : bytes (s ++ t) = bytes s ++ bytes t := by
  -- Each character has its bytes, whatever stands before it.
  rw [bytes_eq_flatMap, String.toList_append, List.flatMap_append, ← bytes_eq_flatMap,
    ← bytes_eq_flatMap]

/-- Bytes are decoded as a text exactly where they are those of the text. -/
theorem fromUTF8?_eq_some_iff {content : List UInt8} {s : String} :
    String.fromUTF8? ⟨content.toArray⟩ = some s ↔ content = bytes s := by
  unfold String.fromUTF8?
  constructor
  · intro decoded
    -- What is decoded keeps its bytes.
    split at decoded
    · cases decoded
      rfl
    · cases decoded
  · rintro rfl
    rw [bytes, Array.toArray_toList]
    exact dif_pos s.isValidUTF8

/-- Texts with the same bytes are the same. -/
theorem bytes_injective : Function.Injective bytes := by
  -- Decoding the bytes gives back each of the texts.
  intro s t same
  have first : String.fromUTF8? ⟨(bytes s).toArray⟩ = some s := fromUTF8?_eq_some_iff.mpr rfl
  have second := fromUTF8?_eq_some_iff.mpr same
  rw [first] at second
  exact Option.some.inj second

private theorem le_toNat_of_mem_continuing {v count : Nat} {byte : UInt8}
    (member : byte ∈ continuing v count) : 0x80 ≤ byte.toNat := by
  -- Such a byte is a digit to the base 64 behind a mark.
  induction count with
  | zero => cases member
  | succ count ih =>
    rw [continuing, List.mem_cons] at member
    rcases member with rfl | member
    · rw [UInt8.toNat_ofNat']
      omega
    · exact ih member

private theorem utf8EncodeChar_of_ascii {c : Char} (ascii : c.toNat < 0x80) :
    String.utf8EncodeChar c = [UInt8.ofNat c.toNat] := by
  -- Small code points have no continuing bytes.
  have narrow : c.toNat ≤ 0x7f := by omega
  rw [utf8EncodeChar_eq, leading, continued, if_pos narrow, if_pos narrow, continuing]

private theorem mem_utf8EncodeChar_iff {c d : Char} (ascii : c.toNat < 0x80) :
    UInt8.ofNat c.toNat ∈ String.utf8EncodeChar d ↔ d = c := by
  -- All bytes of wider characters are beyond ASCII.
  have value : (UInt8.ofNat c.toNat).toNat = c.toNat := by
    rw [UInt8.toNat_ofNat']
    omega
  constructor
  · intro member
    rw [utf8EncodeChar_eq, List.mem_cons] at member
    rcases member with first | behind
    · -- Only a character of ASCII has a first byte as small as this.
      have same := congrArg UInt8.toNat first
      rw [value, UInt8.toNat_ofNat'] at same
      have codes : d.toNat = c.toNat := by
        have bound := codePoint_lt d
        unfold leading at same
        split_ifs at same <;> omega
      rw [← Char.ofNat_toNat d, codes, Char.ofNat_toNat]
    · have large := le_toNat_of_mem_continuing behind
      omega
  · rintro rfl
    rw [utf8EncodeChar_of_ascii ascii]
    exact List.mem_singleton_self _

/-- The byte of an ASCII character occurs in a text only as that character. -/
theorem mem_bytes_iff {c : Char} (ascii : c.toNat < 0x80) {s : String} :
    UInt8.ofNat c.toNat ∈ bytes s ↔ c ∈ s.toList := by
  -- The byte belongs to some character of the text, and only one character has it.
  rw [bytes_eq_flatMap, List.mem_flatMap]
  constructor
  · rintro ⟨d, member, inside⟩
    rwa [← (mem_utf8EncodeChar_iff ascii).mp inside]
  · intro member
    exact ⟨c, member, (mem_utf8EncodeChar_iff ascii).mpr rfl⟩

/-- The byte of an ASCII character ends a text only as that character. -/
theorem getLast?_bytes_iff {c : Char} (ascii : c.toNat < 0x80) {s : String} :
    (bytes s).getLast? = some (UInt8.ofNat c.toNat) ↔ s.toList.getLast? = some c := by
  -- The bytes of a text end with those of its last character.
  rw [bytes_eq_flatMap]
  rcases List.eq_nil_or_concat s.toList with empty | ⟨content, d, parts⟩
  · rw [empty]
    exact iff_of_false nofun nofun
  · -- The last byte is that of the last character, which has at least one.
    have more : String.utf8EncodeChar d ≠ [] := by
      rw [utf8EncodeChar_eq]
      exact List.cons_ne_nil _ _
    rw [parts, List.concat_eq_append, List.flatMap_append, List.flatMap_singleton,
      List.getLast?_append_of_ne_nil _ more, List.getLast?_concat, Option.some.injEq]
    constructor
    · intro ends
      exact (mem_utf8EncodeChar_iff ascii).mp (List.mem_of_getLast? ends)
    · rintro rfl
      rw [utf8EncodeChar_of_ascii ascii]
      rfl

/-- A text has no more characters than bytes. -/
theorem length_le_utf8ByteSize (text : String) : text.toList.length ≤ text.utf8ByteSize := by
  -- Every character takes a byte at least.
  have general (content : List Char) : content.length ≤ content.utf8Encode.size := by
    induction content with
    | nil => exact Nat.zero_le _
    | cons c rest ih =>
      have width := c.utf8Size_pos
      rw [List.utf8Encode_cons, ByteArray.size_append, List.utf8Encode_singleton,
        List.size_toByteArray, String.length_utf8EncodeChar, List.length_cons]
      omega
  have bytes := general text.toList
  rwa [String.utf8Encode_toList] at bytes

/-- The bytes of some characters are below those of greater ones. -/
theorem flatMap_utf8EncodeChar_lt {l m : List Char} (below : List.Lex (· < ·) l m) :
    l.flatMap String.utf8EncodeChar < m.flatMap String.utf8EncodeChar := by
  -- Common characters have common bytes, and the next character decides.
  induction below with
  | nil =>
    rw [List.flatMap_nil, List.flatMap_cons, utf8EncodeChar_eq]
    exact List.Lex.nil
  | cons _ ih =>
    rw [List.flatMap_cons, List.flatMap_cons]
    exact List.append_left_lt ih
  | rel first =>
    rw [List.flatMap_cons, List.flatMap_cons]
    exact utf8EncodeChar_lt first _ _

/-- A text below another has the lesser bytes. -/
theorem bytes_lt {s t : String} (below : s < t) : bytes s < bytes t := by
  -- Characters in front decide, and bytes of greater code points are greater.
  rw [bytes_eq_flatMap, bytes_eq_flatMap]
  exact flatMap_utf8EncodeChar_lt below

/-- A text below another has the lesser code points. -/
theorem codePoints_lt {s t : String} (below : s < t) : codePoints s < codePoints t :=
  List.map_lt (fun _ _ first => first) below

/-- What keeps the order of texts in one direction keeps it in both. -/
private theorem lt_iff_of_lt {α : Type} [LT α] [Std.Asymm (α := List α) (· < ·)]
    {f : String → List α} (mono : ∀ s t, s < t → f s < f t) {s t : String} :
    f s < f t ↔ s < t := by
  -- Two texts are in some order, and the images of greater ones cannot be less.
  refine ⟨fun image => ?_, mono s t⟩
  rcases lt_trichotomy s t with below | rfl | above
  · exact below
  · exact absurd image (Std.Asymm.asymm _ _ image)
  · exact absurd image (Std.Asymm.asymm _ _ (mono t s above))

/-- The order of texts is that of their bytes. -/
theorem bytes_lt_iff {s t : String} : bytes s < bytes t ↔ s < t :=
  lt_iff_of_lt fun _ _ => bytes_lt

/-- The order of texts is that of their code points. -/
theorem codePoints_lt_iff {s t : String} : codePoints s < codePoints t ↔ s < t :=
  lt_iff_of_lt fun _ _ => codePoints_lt

/-- By bytes and by code points, a character of three bytes comes before one of four. -/
example : bytes "\uffee" < bytes "😀" ∧ codePoints "\uffee" < codePoints "😀" := by
  decide

end ThreeAddress.Text
