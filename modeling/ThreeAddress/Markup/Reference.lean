import ThreeAddress.Markup.Reader
import ThreeAddress.Text.Numeral

/-!
References stand for characters. What they stand for is kept apart from plain characters, because
only plain blanks are normalized: line ends in text, and all blanks in attribute values.
-/

namespace ThreeAddress.Markup

/-- A character of a text, or the character that a reference stands for. -/
inductive Piece where
  | plain (c : Char)
  | resolved (c : Char)
  deriving DecidableEq, Repr

/-- The character of a number, where numbers of no character stand for the replacement sign. -/
def numbered? (n : Nat) : Option Char :=
  if n < UInt32.size then
    -- The replacement applies to surrogates and to numbers past the last code point.
    let c := if n.isValidChar then Char.ofNat n else '\ufffd'
    if isPermitted c then some c else none
  else none

/-- The character that the body of a reference stands for: a number or one of five names. -/
def referenced? : List Char → Option Char
  | '#' :: 'x' :: digits => (Text.readNatural 16 digits).bind numbered?
  | '#' :: digits => (Text.readNatural 10 digits).bind numbered?
  | ['l', 't'] => some '<'
  | ['g', 't'] => some '>'
  | ['a', 'm', 'p'] => some '&'
  | ['q', 'u', 'o', 't'] => some '"'
  | ['a', 'p', 'o', 's'] => some '\''
  | _ => none

/-- Reads a plain character or a reference, which extends from an ampersand to a semicolon. -/
def readPiece : Reader Piece
  | [] => none
  | c :: rest =>
    if c = '&' then do
      let (body, after) ← cutAt [';'] rest
      let resolved ← referenced? body
      return (.resolved resolved, after)
    else some (.plain c, rest)

/-- Every piece takes at least one character. -/
theorem readPiece_shortens : Shortens readPiece := by
  -- A reference ends after its semicolon, and a plain character is taken alone.
  intro text found read
  cases text with
  | nil => simp [readPiece] at read
  | cons c rest =>
    rw [readPiece] at read
    split at read
    · simp only [Option.bind_eq_bind, Option.bind_eq_some_iff] at read
      obtain ⟨parts, cut, resolved, _, same⟩ := read
      obtain rfl := Option.some.inj same
      have := length_cutAt cut
      simp only [List.length_cons, List.length_nil] at this ⊢
      omega
    · obtain rfl := Option.some.inj read
      simp

/-- The pieces of a raw text. -/
def pieces? (raw : List Char) : Option (List Piece) :=
  readAll readPiece readPiece_shortens raw

/--
Writes each plain line end as one line feed. A plain carriage return stays where a reference
follows at once, and where it stands alone between a reference and the end.
-/
def lineEnds (afterReference : Bool) : List Piece → List Char
  | [] => []
  | .resolved c :: rest => c :: lineEnds true rest
  | .plain c :: rest =>
    if c = '\r' then
      match rest with
      | [] => [if afterReference then '\r' else '\n']
      -- A reference behind it keeps the carriage return from being a line end.
      | .resolved _ :: _ => '\r' :: lineEnds false rest
      | .plain next :: _ =>
        if next = '\n' then lineEnds false rest else '\n' :: lineEnds false rest
    else c :: lineEnds false rest

/-- Writes each plain blank as a space, and each plain pair that ends a line as one. -/
def spaced : List Piece → List Char
  | [] => []
  | .resolved c :: rest => c :: spaced rest
  | .plain c :: rest =>
    -- Of a pair that ends a line, only the line feed is written.
    if c = '\r' ∧ rest.head? = some (.plain '\n') then spaced rest
    else (if isSpace c then ' ' else c) :: spaced rest

/-- The content of a raw text between tags, which must not end a marked section. -/
def textContent? (raw : List Char) : Option String :=
  match cutAt [']', ']', '>'] raw with
  | some _ => none
  | none => (pieces? raw).map fun pieces => String.ofList (lineEnds false pieces)

/-- The content of a marked section, in which there are no references. -/
def sectionContent (raw : List Char) : String :=
  String.ofList (lineEnds false (raw.map .plain))

/-- The value of an attribute. -/
def attributeValue? (raw : List Char) : Option String :=
  (pieces? raw).map fun pieces => String.ofList (spaced pieces)

end ThreeAddress.Markup
