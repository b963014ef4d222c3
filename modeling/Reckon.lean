import Reckon.Main
import Reckon.Session
import Reckon.Tour
import Reckon.Tree.Basic
import Reckon.Proofs.Grammar.Phrase
import Reckon.Proofs.Parse.Reading
import Reckon.Proofs.Parse.Splitting
import Reckon.Proofs.Parse.Acceptance
import Reckon.Proofs.Grammar.Derivation
import Reckon.Proofs.Grammar.Cuts
import Reckon.Proofs.Grammar.Division
import Reckon.Proofs.Tree.Reading
import Reckon.Proofs.Parse.ViablePrefix
import Reckon.Proofs.Token.Spelling
import Reckon.Proofs.Parse.Nesting
import Reckon.Proofs.Rpn.StaticCheck
import Reckon.Proofs.Token.Cutting
import Reckon.Proofs.Parse.StackHeight
import Reckon.Proofs.Tree.Printing
import Reckon.Proofs.Parse.Numbers
import Reckon.Proofs.Parse.Accounting
import Reckon.Proofs.Parse.Limits
import Reckon.Proofs.Parse.Substitution
import Reckon.Proofs.Number.Literal
import Reckon.Proofs.Program.Outcome
import Reckon.Proofs.Program.CommandLine
import Reckon.Proofs.Parse.OpenLevels
import Reckon.Proofs.Parse.DepthLimit
import Reckon.Proofs.Program.Literals
import Reckon.Proofs.Rpn.Canonical
import Reckon.Proofs.Number.Nearest
import Reckon.Proofs.Number.Rounding
import Reckon.Proofs.Number.Closure
import Reckon.Proofs.Number.Shortest
import Reckon.Proofs.Number.ReadBack
import Reckon.Proofs.Number.Positional
import Reckon.Proofs.Number.Plain
import Reckon.Proofs.Program.Feedback
import Reckon.Proofs.Parse.Places
import Reckon.Proofs.Parse.UnaryPlus
import Reckon.Proofs.Parse.Spans
import Reckon.Proofs.Token.Layout
import Reckon.Proofs.Program.Layout
import Reckon.Proofs.Parse.Extent
import Reckon.Proofs.Parse.OpenGroups
import Reckon.Proofs.Parse.Unexpected
import Reckon.Proofs.Rpn.Operands
import Reckon.Proofs.Parse.FrameLimit
import Reckon.Proofs.Parse.Kinds
import Reckon.Proofs.Parse.GivenLimit
import Reckon.Proofs.Program.Logging
import Reckon.Proofs.Program.Session
import Reckon.Proofs.Parse.Unfolding
