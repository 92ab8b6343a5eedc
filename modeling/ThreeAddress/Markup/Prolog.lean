import ThreeAddress.Markup.Token

/-! Before its first token, a document may hold a byte order mark and then a declaration. -/

namespace ThreeAddress.Markup

/-- A text without the byte order mark that may begin it. -/
def dropOrderMark : List Char → List Char
  | [] => []
  | c :: rest => if c = '\ufeff' then rest else c :: rest

/-- Reads an attribute whose name begins with a word. -/
def readDeclared (word : List Char) : Reader Attribute := fun text =>
  if word.isPrefixOf (skipSpaces text) then readAttribute text else none

/-- A text without the attribute that may begin it, whose name begins with a word. -/
def skipDeclared (word text : List Char) : List Char :=
  match readDeclared word text with
  | none => text
  | some (_, rest) => rest

/-- What stands after a declaration, which has a version, an encoding and a mode, in this order. -/
def skipDeclaration? (text : List Char) : Option (List Char) :=
  if "<?xml ".toList.isPrefixOf text then do
    let text ← skip "<?xml".toList text
    let (_, text) ← readDeclared "version".toList text
    let text := skipDeclared "standalone".toList (skipDeclared "encoding".toList text)
    skip "?>".toList (skipSpaces text)
  else some text

/-- The tokens of a document, in which all characters must be permitted. -/
def tokens? (text : List Char) : Option (List Token) :=
  let body := dropOrderMark text
  if body.all isPermitted then
    (skipDeclaration? body).bind (readAll readToken readToken_shortens)
  else none

end ThreeAddress.Markup
