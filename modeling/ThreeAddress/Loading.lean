import ThreeAddress.Document.Content
import ThreeAddress.Source.Assembly

/-! Programs come as documents or as source text, and the text itself tells which of the two. -/

namespace ThreeAddress

/-- Why no program can be loaded from a text. -/
inductive LoadError where
  | source (error : Source.Error)
  | document (error : Document.Error)
  deriving DecidableEq, Repr

namespace LoadError

/-- The wording of a load error. -/
def message : LoadError → String
  | source e => e.message
  | document e => e.message

/-- The class of a load error. -/
def failure : LoadError → Failure
  | source e => e.problem.failure
  | document e => e.failure

end LoadError

/-- Whether a text is meant as a document: it begins with a bracket, but for blanks. -/
def looksLikeMarkup (text : String) : Bool :=
  -- Byte order marks can only stand before the blanks.
  match (text.toList.dropWhile (· = '\ufeff')).dropWhile Text.isBlank with
  | [] => false
  | c :: _ => c = '<'

/-- Loads a program from a document or from source text, where `read` finds roots of documents. -/
def Program.loadWith (read : String → Option Markup.Element) (text : String) :
    Except LoadError Program :=
  if looksLikeMarkup text then (Document.loadWith read text).mapError .document
  else (Source.assemble text).mapError .source

/-- Loads a program from a document or from source text. -/
def Program.load (text : String) : Except LoadError Program :=
  Program.loadWith Markup.root? text

end ThreeAddress
