import ThreeAddress.Markup.Name
import ThreeAddress.Markup.Reader

/-! Attributes stand in tags, each after a blank, with a name, an equals sign and a quoted value. -/

namespace ThreeAddress.Markup

/-- An attribute as it is written, with its references. -/
structure Attribute where
  name : Name
  raw : List Char
  deriving DecidableEq, Repr

/-- The marks that may stand around a value. -/
def isQuote (c : Char) : Bool :=
  c = '"' || c = '\''

/-- Reads a run of name characters as a name. -/
def readName : Reader Name := fun text =>
  (Name.ofText? (text.takeWhile isNameChar)).map fun name => (name, text.dropWhile isNameChar)

/-- Reads a value between two equal quotation marks, which must not hold an opening bracket. -/
def readValue : Reader (List Char)
  | [] => none
  | quote :: rest =>
    if isQuote quote then (cutAt [quote] rest).filter fun (value, _) => !value.contains '<'
    else none

/-- Reads an attribute and the blanks before it. -/
def readAttribute : Reader Attribute
  | [] => none
  | blank :: rest =>
    if isSpace blank then do
      let (name, rest) ← readName (skipSpaces rest)
      let rest ← skip ['='] (skipSpaces rest)
      let (raw, rest) ← readValue (skipSpaces rest)
      return ({ name, raw }, rest)
    else none

/-- Reading a name never adds anything. -/
theorem readName_keeps : Keeps readName := by
  -- The rest is what is left when the name characters are dropped.
  intro text found read
  obtain ⟨name, _, rfl⟩ := Option.map_eq_some_iff.1 read
  exact (List.dropWhile_sublist isNameChar).length_le

/-- Reading a value never adds anything. -/
theorem readValue_keeps : Keeps readValue := by
  -- The rest stands after the mark that ends the value.
  intro text found read
  cases text with
  | nil => simp [readValue] at read
  | cons quote rest =>
    rw [readValue] at read
    split at read
    · have := length_cutAt (Option.filter_eq_some_iff.1 read).1
      simp only [List.length_cons, List.length_nil] at this ⊢
      omega
    · cases read

/-- Every attribute takes at least the blank before it. -/
theorem readAttribute_shortens : Shortens readAttribute := by
  -- After the first blank no part of an attribute adds anything.
  intro text found read
  cases text with
  | nil => simp [readAttribute] at read
  | cons blank rest =>
    rw [readAttribute] at read
    split at read
    · simp only [Option.bind_eq_bind, Option.bind_eq_some_iff] at read
      obtain ⟨named, name, after, equals, valued, value, same⟩ := read
      obtain rfl := Option.some.inj same
      have := readName_keeps _ _ name
      have := length_skip equals
      have := readValue_keeps _ _ value
      have := length_skipSpaces rest
      have := length_skipSpaces named.2
      have := length_skipSpaces after
      simp only [List.length_cons] at *
      omega
    · cases read

/-- The attributes that a text spells, after which blanks may stand. -/
def attributes? (text : List Char) : Option (List Attribute) :=
  readAll readAttribute readAttribute_shortens (text.reverse.dropWhile isSpace).reverse

end ThreeAddress.Markup
