import ThreeAddress.Markup.Name

/-!
Qualifiers of names must be declared. Attributes of an element declare them for the element
itself and for all that it holds, and bind each to the name of a space.
-/

namespace ThreeAddress.Markup

/-- Qualifiers and the spaces they are bound to, innermost first. -/
abbrev Scope := List (String × String)

/-- The address of a reserved space. -/
def reservedSpace (path : List String) : String :=
  String.intercalate "/" ("http:" :: "" :: "www.w3.org" :: path)

/-- The space that the qualifier `xml` is bound to everywhere. -/
def xmlSpace : String :=
  reservedSpace ["XML", "1998", "namespace"]

/-- The space of declarations, to which nothing can be bound. -/
def declarationSpace : String :=
  reservedSpace ["2000", "xmlns", ""]

namespace Name

/-- Whether an attribute of this name binds a qualifier. -/
def bindsQualifier (name : Name) : Bool :=
  name.qualifier = "xmlns"

/-- Whether an attribute of this name declares something. -/
def isDeclaration (name : Name) : Bool :=
  name.bindsQualifier || name.base = "xmlns"

end Name

/-- Whether a declaration is allowed after those of the same element. -/
def mayDeclare (declared : Scope) (name : Name) (space : String) : Bool :=
  if space = declarationSpace then false
  else if name.bindsQualifier && name.base = "xml" then space = xmlSpace
  else space ≠ xmlSpace && !(name.bindsQualifier && (declared.lookup name.base).isSome)

/-- The qualifiers that attributes bind, added to those that the same element declared before. -/
def declare (declared : Scope) : List (Name × String) → Option Scope
  | [] => some declared
  | (name, value) :: rest =>
    if !name.isDeclaration then declare declared rest
    else if !mayDeclare declared name value then none
    else if name.bindsQualifier && name.base ≠ "xml" then
      declare ((name.base, value) :: declared) rest
    else declare declared rest

/-- An attribute's space, if it has a qualifier, and its base. -/
def spaced? (scope : Scope) (name : Name) : Option (Option String × String) :=
  if name.qualifier = "" then some (none, name.base)
  else if name.qualifier = "xml" then some (some xmlSpace, name.base)
  else (scope.lookup name.qualifier).map fun space => (some space, name.base)

/-- Whether an element may have a name. -/
def mayName (scope : Scope) (name : Name) : Bool :=
  name.qualifier = "" || (name.qualifier ≠ "xmlns" && (scope.lookup name.qualifier).isSome)

/-- The scope inside an element, unless a qualifier is not declared or an attribute is repeated. -/
def Scope.enter (scope : Scope) (name : Name) (attributes : List (Name × String)) :
    Option Scope := do
  -- What an element declares holds for its own name and attributes, too.
  let inner := (← declare [] attributes) ++ scope
  let ordinary := attributes.filter fun (key, _) => !key.isDeclaration
  let places ← ordinary.mapM fun (key, _) => spaced? inner key
  if mayName inner name && decide places.Nodup then some inner else none

end ThreeAddress.Markup
