import ThreeAddress.Proofs.Text.Pieces
import ThreeAddress.Text.Blank

/-!
Escaping loses nothing. The escaped form of a text decodes to the text, it can stand in a word of
the source text, and it is the same for all ways of writing the text.
-/

namespace ThreeAddress

namespace Text

/-- The control characters of ASCII. -/
def isAsciiControl (c : Char) : Bool :=
  c.toNat < 0x20 || c.toNat = 0x7f

/-- A text in escaped form, as literals of the source text have it. -/
def escaped (s : String) : String :=
  String.ofList (escape s.toList)

/-- Escaped text reads back as the text. -/
theorem decodeString_escaped (s : String) : decodeString (escaped s) = .ok s := by
  -- Decoding reads the characters that escaping has written.
  rw [decodeString_eq_ok_iff, escaped, String.toList_ofList]
  exact unescape_escape s.toList

/-- Escaped text holds no blanks, no control characters and no number signs. -/
theorem visible_of_mem_escaped {s : String} {c : Char} (member : c ∈ (escaped s).toList) :
    isAsciiBlank c = false ∧ isAsciiControl c = false ∧ c ≠ '#' := by
  -- A character comes from the backslash or the digits of an escape, or stands for itself.
  rw [escaped, String.toList_ofList] at member
  rcases mem_escape member with rfl | digit | plain
  · decide
  · have visible (d : Fin 10) : isAsciiBlank (Nat.digitChar d) = false ∧
        isAsciiControl (Nat.digitChar d) = false ∧ Nat.digitChar d ≠ '#' := by decide +revert
    obtain ⟨d, rfl⟩ := exists_digit digit
    exact visible d
  · -- All of these characters would need an escape.
    simp only [needsEscape, Bool.or_eq_false_iff, decide_eq_false_iff_not] at plain
    obtain ⟨⟨⟨wide, delete⟩, sign⟩, _⟩ := plain
    refine ⟨?_, ?_, sign⟩
    · by_contra blank
      simp only [isAsciiBlank, Bool.not_eq_false, Bool.or_eq_true, decide_eq_true_eq] at blank
      rcases blank with (((rfl | rfl) | rfl) | rfl) | rfl
      all_goals exact wide (by decide)
    · simp only [isAsciiControl, Bool.or_eq_false_iff, decide_eq_false_iff_not]
      exact ⟨by omega, delete⟩

/-- A backslash within a piece stands at its beginning, and three digits follow it. -/
theorem Piece.code_of_backslash {p : Piece} {before after : List Char}
    (written : p.written = before ++ '\\' :: after) :
    before = [] ∧ ∃ x y z, p = .code x y z ∧
      after = [Nat.digitChar x, Nat.digitChar y, Nat.digitChar z] := by
  cases p with
  | plain c other =>
    -- There is one character only, and it is another one.
    have member : '\\' ∈ (plain c other).written := by simp [written]
    exact absurd (List.mem_singleton.mp member).symm other
  | code x y z =>
    cases before with
    | nil =>
      cases written
      exact ⟨rfl, x, y, z, rfl, rfl⟩
    | cons first before =>
      -- Any other backslash would be one of the digits.
      obtain ⟨_, digits⟩ := List.cons.inj written
      have member : '\\' ∈ [Nat.digitChar x, Nat.digitChar y, Nat.digitChar z] := by
        rw [digits]
        simp
      simp only [List.mem_cons, List.not_mem_nil, or_false] at member
      rcases member with same | same | same
      · exact absurd same.symm (digitChar_ne_backslash x)
      · exact absurd same.symm (digitChar_ne_backslash y)
      · exact absurd same.symm (digitChar_ne_backslash z)

/-- A backslash in a text that is cut into pieces begins one of them, which has three digits. -/
theorem exists_code_of_backslash {pieces : List Piece} {before after : List Char}
    (written : pieces.flatMap Piece.written = before ++ '\\' :: after) :
    ∃ front x y z back, pieces = front ++ Piece.code x y z :: back ∧
      before = front.flatMap Piece.written ∧
      after = Nat.digitChar x :: Nat.digitChar y :: Nat.digitChar z ::
        back.flatMap Piece.written := by
  induction pieces generalizing before with
  | nil => simp at written
  | cons p pieces ih =>
    -- The backslash is found behind the first piece, or in it.
    have behind (rest : List Char) (same : pieces.flatMap Piece.written = rest ++ '\\' :: after)
        (all : before = p.written ++ rest) :
        ∃ front x y z back, p :: pieces = front ++ Piece.code x y z :: back ∧
          before = front.flatMap Piece.written ∧
          after = Nat.digitChar x :: Nat.digitChar y :: Nat.digitChar z ::
            back.flatMap Piece.written := by
      obtain ⟨front, x, y, z, back, rfl, rfl, found⟩ := ih same
      exact ⟨p :: front, x, y, z, back, rfl, all, found⟩
    rw [List.flatMap_cons, List.append_eq_append_iff] at written
    rcases written with ⟨rest, all, same⟩ | ⟨rest, all, same⟩
    · exact behind rest same all
    · cases rest with
      | nil =>
        exact behind [] same.symm (by rw [all, List.append_nil, List.append_nil])
      | cons c rest =>
        obtain ⟨rfl, rfl⟩ := List.cons.inj same
        obtain ⟨rfl, x, y, z, rfl, rfl⟩ := Piece.code_of_backslash all
        exact ⟨[], x, y, z, pieces, rfl, rfl, rfl⟩

end Text

/--
Escaping loses nothing, and the escaped form of a text can stand wherever a word can.

It decodes to the text, so that different texts have different escaped forms. It holds no blanks,
no control characters and no number signs, and a backslash only where three digits follow it as
parts of one piece. It is the canonical form of whatever decodes to the text: it decodes to the
same, and escaping what it decodes to gives it back.
-/
theorem escaping_loses_nothing :
    (∀ s, decodeString (Text.escaped s) = .ok s) ∧
    (∀ s, ∀ c ∈ (Text.escaped s).toList,
      Text.isAsciiBlank c = false ∧ Text.isAsciiControl c = false ∧ c ≠ '#') ∧
    (∀ s before after, (Text.escaped s).toList = before ++ '\\' :: after →
      ∃ front x y z back, Text.IsCut (Text.escaped s) (front ++ Text.Piece.code x y z :: back) ∧
        before = front.flatMap Text.Piece.written ∧
        after = Nat.digitChar x :: Nat.digitChar y :: Nat.digitChar z ::
          back.flatMap Text.Piece.written) ∧
    Function.Injective Text.escaped ∧
    ∀ raw s, decodeString raw = .ok s → decodeString (Text.escaped s) = decodeString raw ∧
      (decodeString (Text.escaped s)).map Text.escaped = .ok (Text.escaped s) := by
  -- All is told by reading back what was written, and by its cut into pieces.
  refine ⟨Text.decodeString_escaped, fun s c => Text.visible_of_mem_escaped, ?_, ?_, ?_⟩
  · -- What decodes is cut into pieces, and a backslash has its place in them.
    intro s before after split
    obtain ⟨pieces, cut, _⟩ := exists_isCut (Text.decodeString_escaped s)
    obtain ⟨front, x, y, z, back, rfl, found⟩ :=
      Text.exists_code_of_backslash (cut.symm.trans split)
    exact ⟨front, x, y, z, back, cut, found⟩
  · intro s t same
    have decoded := Text.decodeString_escaped s
    rw [same, Text.decodeString_escaped t] at decoded
    exact (Except.ok.inj decoded).symm
  · intro raw s decoded
    rw [Text.decodeString_escaped s, decoded]
    exact ⟨rfl, rfl⟩

/-- A digit behind an escape is no part of it, and a digit may be written as an escape as well. -/
theorem escaping_loses_nothing_of_backslash :
    Text.escaped "\\7 ž" = "\\0927\\032ž" ∧ decodeString "\\0927\\032ž" = .ok "\\7 ž" ∧
    (∃ front x y z back,
      Text.IsCut "\\0927\\032ž" (front ++ Text.Piece.code x y z :: back) ∧
        "\\0927".toList = front.flatMap Text.Piece.written) ∧
    decodeString "\\0927\\032ž" = decodeString "\\092\\055\\032ž" ∧
    (decodeString "\\0927\\032ž").map Text.escaped = .ok "\\0927\\032ž" := by
  -- The backslash and the blank are escaped, and the digit is not.
  obtain ⟨reads, _, backslashes, _, canonical⟩ := escaping_loses_nothing
  have escaped : Text.escaped "\\7 ž" = "\\0927\\032ž" := by decide
  have freely : decodeString "\\092\\055\\032ž" = .ok "\\7 ž" := by decide
  have read := reads "\\7 ž"
  obtain ⟨same, again⟩ := canonical _ _ freely
  obtain ⟨front, x, y, z, back, cut, before, _⟩ :=
    backslashes "\\7 ž" "\\0927".toList "032ž".toList (by rw [escaped]; rfl)
  rw [escaped] at read same again cut
  exact ⟨escaped, read, ⟨front, x, y, z, back, cut, before⟩, same, again⟩

end ThreeAddress
