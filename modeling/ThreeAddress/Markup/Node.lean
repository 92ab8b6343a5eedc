/-! A document is a tree of elements, in which texts and remarks stand between the elements. -/

namespace ThreeAddress.Markup

/-- What an element can hold. -/
inductive Node where
  /-- An element with its tag, its attributes without qualifier and what it holds. -/
  | element (tag : String) (attributes : List (String × String)) (children : List Node)
  /-- A text, next to which no other text stands. -/
  | text (content : String)
  /-- A comment or a processing instruction. -/
  | remark
  deriving Repr

/-- An element: its tag, its attributes without qualifier and what it holds. -/
structure Element where
  tag : String
  attributes : List (String × String)
  children : List Node
  deriving Repr

namespace Element

/-- An element as a part of another one. -/
def toNode (e : Element) : Node :=
  .element e.tag e.attributes e.children

/-- The value of an attribute without qualifier. -/
def attribute? (e : Element) (name : String) : Option String :=
  e.attributes.lookup name

/-- The text with which an element begins, which is empty if it begins with anything else. -/
def text (e : Element) : String :=
  match e.children with
  | .text content :: _ => content
  | _ => ""

end Element

/-- A node as an element, if it is one. -/
def Node.element? : Node → Option Element
  | .element tag attributes children => some { tag, attributes, children }
  | .text _ => none
  | .remark => none

/-- The elements that an element holds directly, in document order. -/
def Element.elements (e : Element) : List Element :=
  e.children.filterMap Node.element?

end ThreeAddress.Markup
