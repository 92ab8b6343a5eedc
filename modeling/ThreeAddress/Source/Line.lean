import ThreeAddress.Text.Blank

/-! Source text consists of lines of words; a number sign begins a comment. -/

namespace ThreeAddress.Source

/-- The mark that begins a comment. -/
def commentMark : Char := '#'

/-- Cuts a text after each line feed, which belongs to no line; a final one ends the last line. -/
def cutLines : List Char → List (List Char)
  | [] => []
  | c :: rest =>
    if c = '\n' then [] :: cutLines rest
    else
      match cutLines rest with
      | [] => [[c]]
      | line :: lines => (c :: line) :: lines

/-- The words of a text, which are separated by ASCII blanks. -/
def words : List Char → List (List Char)
  | [] => []
  | c :: rest =>
    if Text.isAsciiBlank c then words rest
    else
      match rest with
      | [] => [[c]]
      | next :: _ =>
        -- A word goes on until the next blank.
        if Text.isAsciiBlank next then [c] :: words rest
        else
          match words rest with
          | [] => [[c]]
          | word :: others => (c :: word) :: others

/-- The words of a line before its comment. -/
def lineWords (line : List Char) : List String :=
  (words (line.takeWhile (· ≠ commentMark))).map String.ofList

/-- A line of source text that has words, with its number, which counts from one. -/
structure Line where
  number : Nat
  words : List String
  deriving DecidableEq, Repr

/-- The lines that have words, where `number` is the number of the first line. -/
def numberLines (number : Nat) : List (List Char) → List Line
  | [] => []
  | line :: rest =>
    -- Lines without words are counted all the same.
    match lineWords line with
    | [] => numberLines (number + 1) rest
    | words => { number, words } :: numberLines (number + 1) rest

end ThreeAddress.Source
