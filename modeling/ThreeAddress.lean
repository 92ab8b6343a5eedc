import ThreeAddress.CommandLine.Reading
import ThreeAddress.CommandLine.Session
import ThreeAddress.Document.Content
import ThreeAddress.Failure
import ThreeAddress.Language.Defect
import ThreeAddress.Loading
import ThreeAddress.Machine.Execution
import ThreeAddress.Main
import ThreeAddress.Markup.Tree
import ThreeAddress.Source.Assembly
import ThreeAddress.Source.Listing
import ThreeAddress.Proofs.Language.Defects
import ThreeAddress.Proofs.Language.Sorted
import ThreeAddress.Proofs.Language.Permutation
import ThreeAddress.Proofs.Language.Placing
import ThreeAddress.Proofs.Machine.Linking
import ThreeAddress.Proofs.Machine.Permutation
import ThreeAddress.Proofs.Machine.Faults
import ThreeAddress.Proofs.Machine.Causes
import ThreeAddress.Proofs.Machine.Agreement
import ThreeAddress.Proofs.Machine.FailingStep
import ThreeAddress.Proofs.Source.Expressible
import ThreeAddress.Proofs.Language.Renumbering
import ThreeAddress.Proofs.Source.RoundTrip
import ThreeAddress.Proofs.Language.Reordering
import ThreeAddress.Proofs.Machine.Effects
import ThreeAddress.Proofs.Machine.Writes
import ThreeAddress.Proofs.Machine.Lockstep
import ThreeAddress.Proofs.Machine.Reordering
import ThreeAddress.Proofs.Language.Signature
import ThreeAddress.Proofs.Machine.Successes
import ThreeAddress.Proofs.Machine.Operands
import ThreeAddress.Proofs.Machine.Lives
import ThreeAddress.Proofs.Machine.Typing
import ThreeAddress.Proofs.Machine.Control
import ThreeAddress.Proofs.Machine.Nesting
import ThreeAddress.Proofs.Machine.Places
import ThreeAddress.Proofs.Machine.Locality
import ThreeAddress.Proofs.Text.Notation
import ThreeAddress.Proofs.Source.Grammar
import ThreeAddress.Proofs.Source.Lines
import ThreeAddress.Proofs.Source.Statement
import ThreeAddress.Proofs.Source.Acceptance
import ThreeAddress.Proofs.Document.Grammar
import ThreeAddress.Proofs.Document.Acceptance
import ThreeAddress.Proofs.Document.Mirror
import ThreeAddress.Proofs.Document.Formatting
import ThreeAddress.Proofs.Loading
import ThreeAddress.Proofs.Machine.Suspended
import ThreeAddress.Proofs.Machine.Termination
import ThreeAddress.Proofs.Machine.InputLines
import ThreeAddress.Proofs.Machine.Reading
import ThreeAddress.Proofs.Language.Findings
import ThreeAddress.Proofs.Machine.DataStack
import ThreeAddress.Proofs.Machine.Refusals
import ThreeAddress.Proofs.Language.Insertion
import ThreeAddress.Proofs.Machine.Insertion
import ThreeAddress.Proofs.Machine.Histories
import ThreeAddress.Proofs.Machine.Reduction
import ThreeAddress.Proofs.Machine.Slots
import ThreeAddress.Proofs.Machine.FrameFaults
import ThreeAddress.Proofs.Machine.Lasting
import ThreeAddress.Proofs.Machine.Dumps
import ThreeAddress.Proofs.Machine.Storing
import ThreeAddress.Proofs.Machine.Comparisons
import ThreeAddress.Proofs.Machine.Arithmetic
import ThreeAddress.Proofs.Machine.Sequences
import ThreeAddress.Proofs.Text.Codec
import ThreeAddress.Proofs.Language.Integers
import ThreeAddress.Proofs.Language.Positions
import ThreeAddress.Proofs.Language.Relabelling
import ThreeAddress.Proofs.Machine.Relabelling
import ThreeAddress.Proofs.Machine.ReadBack
