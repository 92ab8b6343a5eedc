import ThreeAddress.Markup.Node
import ThreeAddress.Markup.Prolog
import ThreeAddress.Markup.Reference
import ThreeAddress.Markup.Scope

/-! The tree of a document is built from its tokens; the elements still open form a stack. -/

namespace ThreeAddress.Markup

/-- An element whose closing tag is still to come, with what it holds so far, latest first. -/
structure OpenElement where
  name : Name
  attributes : List (String × String)
  scope : Scope
  held : List Node

/-- Adds a node to what an element holds, where neighbouring texts become one. -/
def addNode (held : List Node) (node : Node) : List Node :=
  match node, held with
  | .text content, .text before :: rest => .text (before ++ content) :: rest
  | _, _ => node :: held

/-- The element that a closing tag completes. -/
def OpenElement.complete (e : OpenElement) : Element :=
  { tag := e.name.base, attributes := e.attributes, children := e.held.reverse }

/-- What has been built of a document so far: its root, once that is closed, or open elements. -/
structure Draft where
  root : Option Element
  /-- The elements that are open, innermost first. -/
  stack : List OpenElement

namespace Draft

/-- Nothing of a document. -/
def empty : Draft :=
  { root := none, stack := [] }

/-- Adds a node inside the innermost open element, if there is one. -/
def add (d : Draft) (node : Node) : Option Draft :=
  match d.stack with
  | [] => none
  | e :: outer => some { d with stack := { e with held := addNode e.held node } :: outer }

/-- Adds a complete element, which becomes the root where no element is open. -/
def addElement (d : Draft) (e : Element) : Draft :=
  (d.add e.toNode).getD { d with root := some e }

/-- The name and the value of an attribute, with its references resolved. -/
def value? (a : Attribute) : Option (Name × String) :=
  (attributeValue? a.raw).map fun value => (a.name, value)

/-- Opens an element; after the root is closed there is no other. -/
def openElement (d : Draft) (name : Name) (attributes : List Attribute) : Option Draft := do
  let outer : Scope := match d.stack with
    | [] => []
    | e :: _ => e.scope
  let values ← attributes.mapM value?
  let scope ← outer.enter name values
  -- Qualified attributes and declarations describe nothing of a program.
  let plain := values.filter fun (key, _) => key.qualifier = "" && !key.isDeclaration
  let e : OpenElement :=
    { name, attributes := plain.map fun (key, value) => (key.base, value), scope, held := [] }
  if d.root.isNone then some { d with stack := e :: d.stack } else none

/-- Closes the innermost open element, which must have the given name. -/
def closeElement (d : Draft) (name : Name) : Option Draft :=
  match d.stack with
  | [] => none
  | e :: outer =>
    if e.name = name then some (Draft.addElement { d with stack := outer } e.complete) else none

/-- Adds a token; outside the root only blanks and remarks may stand. -/
def step (d : Draft) : Token → Option Draft
  | .text raw =>
    -- Outside the root not even a reference to a blank is allowed.
    if d.stack.isEmpty then if raw.all isSpace then some d else none
    else (textContent? raw).bind fun content => d.add (.text content)
  | .data raw => d.add (.text (sectionContent raw))
  | .remark => if d.stack.isEmpty then some d else d.add .remark
  | .opening name attributes closed => do
    let opened ← d.openElement name attributes
    if closed then opened.closeElement name else return opened
  | .closing name => d.closeElement name

end Draft

/-- The root of the document that tokens make, which must be complete. -/
def rootOfTokens? (tokens : List Token) : Option Element := do
  let d ← tokens.foldlM Draft.step .empty
  if d.stack.isEmpty then d.root else none

/-- The root of a document, unless the document is malformed. -/
def root? (text : String) : Option Element :=
  (tokens? text.toList).bind rootOfTokens?

end ThreeAddress.Markup
