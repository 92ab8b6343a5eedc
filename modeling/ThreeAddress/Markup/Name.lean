import ThreeAddress.Markup.Character

/-! Names of elements and attributes may carry a qualifier, which a colon separates. -/

namespace ThreeAddress.Markup

/-- A name, whose qualifier is empty if there is none. -/
structure Name where
  qualifier : String
  base : String
  deriving DecidableEq, Repr

namespace Name

/-- Whether a part of a name begins as it must. -/
def beginsWell : List Char → Bool
  | [] => false
  | c :: _ => isNameStart c

/-- The name that a run of name characters spells: at most one colon parts it. -/
def ofText? (text : List Char) : Option Name :=
  let first := text.takeWhile (· ≠ ':')
  match text.dropWhile (· ≠ ':') with
  | [] => if beginsWell first then some { qualifier := "", base := String.ofList first } else none
  | _ :: base =>
    if base.contains ':' then none
    else if beginsWell base && (first.isEmpty || beginsWell first) then
      some { qualifier := String.ofList first, base := String.ofList base }
    else none

end Name

end ThreeAddress.Markup
