import ThreeAddress.Markup.Attribute

/-! A document is a sequence of tokens: tags, text between them, marked sections and remarks. -/

namespace ThreeAddress.Markup

/-- A token of a document. -/
inductive Token where
  /-- Text as it is written, with its references. -/
  | text (raw : List Char)
  /-- The content of a marked section, in which nothing is markup. -/
  | data (raw : List Char)
  /-- A comment or a processing instruction. -/
  | remark
  /-- The tag that opens an element, and closes it at once if it is marked so. -/
  | opening (name : Name) (attributes : List Attribute) (closed : Bool)
  /-- The tag that closes an element. -/
  | closing (name : Name)
  deriving DecidableEq, Repr

/-- The word with which the declaration of a document goes on. -/
def declarationMark : List Char :=
  "xml ".toList

/-- Reads a comment after its first two characters; two hyphens can only end it. -/
def readComment : Reader Token := fun text => do
  let text ← skip ['-', '-'] text
  let (_, rest) ← cutAt ['-', '-'] text
  return (.remark, ← skip ['>'] rest)

/-- Reads a marked section after its first two characters. -/
def readSection : Reader Token := fun text => do
  let text ← skip "[CDATA[".toList text
  let (raw, rest) ← cutAt [']', ']', '>'] text
  return (.data raw, rest)

/-- Reads a processing instruction after its first two characters; it is no declaration. -/
def readInstruction : Reader Token := fun text =>
  if declarationMark.isPrefixOf text || !Name.beginsWell text then none
  else (cutAt ['?', '>'] text).map fun (_, rest) => (.remark, rest)

/-- Reads a closing tag after its first two characters. -/
def readClosing : Reader Token := fun text => do
  let (name, rest) ← readName text
  return (.closing name, ← skip ['>'] (skipSpaces rest))

/-- The quotation mark that is open after a character, where one may be open before. -/
def openQuote (quote : Option Char) (c : Char) : Option Char :=
  match quote with
  | none => if isQuote c then some c else none
  | some opened => if c = opened then none else some opened

/-- What a tag holds, and what stands after it; a quoted closing bracket does not end a tag. -/
def cutTag (quote : Option Char) : List Char → Option (List Char × List Char)
  | [] => none
  | c :: rest =>
    if quote = none ∧ c = '>' then some ([], rest)
    else (cutTag (openQuote quote c) rest).map fun (content, after) => (c :: content, after)

/-- The opening tag that holds a text; a slash at its end closes the element. -/
def openingTag? (content : List Char) : Option Token := do
  -- A slash in any other place belongs to a value or is an error.
  let closed := content.getLast? = some '/'
  let (name, rest) ← readName (if closed then content.dropLast else content)
  return .opening name (← attributes? rest) closed

/-- Reads an opening tag after its first character. -/
def readOpening : Reader Token := fun text => do
  let (content, rest) ← cutTag none text
  return (← openingTag? content, rest)

/-- Reads markup after the bracket that begins it. -/
def readMarkup : Reader Token
  | '!' :: rest => (readComment rest).or (readSection rest)
  | '?' :: rest => readInstruction rest
  | '/' :: rest => readClosing rest
  | text => readOpening text

/-- Reads a token: markup, or text up to the next markup. -/
def readToken : Reader Token
  | [] => none
  | c :: rest =>
    if c = '<' then readMarkup rest
    else some (.text (c :: rest.takeWhile (· ≠ '<')), rest.dropWhile (· ≠ '<'))

/-- Cutting a tag takes away at least the bracket that ends it. -/
theorem length_cutTag {quote : Option Char} {text : List Char} {parts : List Char × List Char}
    (cut : cutTag quote text = some parts) : parts.2.length < text.length := by
  -- Either this character is the bracket, or the bracket comes later.
  induction text generalizing quote parts with
  | nil => simp [cutTag] at cut
  | cons c text ih =>
    rw [cutTag] at cut
    split at cut
    · obtain rfl := Option.some.inj cut
      simp
    · obtain ⟨later, found, rfl⟩ := Option.map_eq_some_iff.1 cut
      have := ih found
      simp only [List.length_cons]
      omega

/-- Reading a comment never adds anything. -/
theorem readComment_keeps : Keeps readComment := by
  -- The rest follows the brackets that follow the content.
  intro text found read
  simp only [readComment, Option.bind_eq_bind, Option.bind_eq_some_iff] at read
  obtain ⟨opened, begun, parts, cut, rest, ended, same⟩ := read
  obtain rfl := Option.some.inj same
  have := length_skip begun
  have := length_cutAt cut
  have := length_skip ended
  show rest.length ≤ text.length
  omega

/-- Reading a marked section never adds anything. -/
theorem readSection_keeps : Keeps readSection := by
  -- The rest follows the first mark that ends the section.
  intro text found read
  simp only [readSection, Option.bind_eq_bind, Option.bind_eq_some_iff] at read
  obtain ⟨opened, begun, parts, cut, same⟩ := read
  obtain rfl := Option.some.inj same
  have := length_skip begun
  have := length_cutAt cut
  show parts.2.length ≤ text.length
  omega

/-- Reading a processing instruction never adds anything. -/
theorem readInstruction_keeps : Keeps readInstruction := by
  -- The rest follows the first mark that ends the instruction.
  intro text found read
  rw [readInstruction] at read
  split at read
  · cases read
  · obtain ⟨parts, cut, rfl⟩ := Option.map_eq_some_iff.1 read
    have := length_cutAt cut
    show parts.2.length ≤ text.length
    omega

/-- Reading a closing tag never adds anything. -/
theorem readClosing_keeps : Keeps readClosing := by
  -- Name, blanks and bracket are taken one after another.
  intro text found read
  simp only [readClosing, Option.bind_eq_bind, Option.bind_eq_some_iff] at read
  obtain ⟨named, name, rest, ended, same⟩ := read
  obtain rfl := Option.some.inj same
  have := readName_keeps _ _ name
  have := length_skipSpaces named.2
  have := length_skip ended
  show rest.length ≤ text.length
  omega

/-- Reading an opening tag never adds anything. -/
theorem readOpening_keeps : Keeps readOpening := by
  -- The tag is cut off as a whole before it is read.
  intro text found read
  simp only [readOpening, Option.bind_eq_bind, Option.bind_eq_some_iff] at read
  obtain ⟨parts, cut, tag, _, same⟩ := read
  obtain rfl := Option.some.inj same
  exact Nat.le_of_lt (length_cutTag cut)

/-- Reading markup never adds anything. -/
theorem readMarkup_keeps : Keeps readMarkup := by
  -- The character that decides the kind of markup is consumed as well.
  intro text found read
  unfold readMarkup at read
  split at read
  · next rest =>
    have shorter : found.2.length ≤ rest.length := by
      rcases Option.or_eq_some_iff.1 read with comment | ⟨_, marked⟩
      · exact readComment_keeps _ _ comment
      · exact readSection_keeps _ _ marked
    exact Nat.le_succ_of_le shorter
  · exact Nat.le_succ_of_le (readInstruction_keeps _ _ read)
  · exact Nat.le_succ_of_le (readClosing_keeps _ _ read)
  · exact readOpening_keeps _ _ read

/-- Every token takes at least one character. -/
theorem readToken_shortens : Shortens readToken := by
  -- The bracket that begins markup, or the first character of a text, is always taken.
  intro text found read
  cases text with
  | nil => simp [readToken] at read
  | cons c rest =>
    rw [readToken] at read
    split at read
    · exact Nat.lt_succ_of_le (readMarkup_keeps _ _ read)
    · obtain rfl := Option.some.inj read
      exact Nat.lt_succ_of_le (List.dropWhile_sublist _).length_le

end ThreeAddress.Markup
