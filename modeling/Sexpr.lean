import Sexpr.Core.Basic
import Sexpr.Cursor
import Sexpr.Form.Equality
import Sexpr.Token.Lexicon
import Sexpr.Proofs.Reader.Machine
import Sexpr.Proofs.Form.Induction
import Sexpr.Proofs.Reader.Simulation
import Sexpr.Proofs.Token.Classes
import Sexpr.Proofs.Token.Matching
import Sexpr.Proofs.Token.Rules
import Sexpr.Proofs.Token.OnePass
import Sexpr.Proofs.Number.ReadBack
import Sexpr.Proofs.Form.Alike
import Sexpr.Proofs.Form.Sameness
import Sexpr.Proofs.Token.Whole
import Sexpr.Proofs.Form.Readable
import Sexpr.Proofs.Reader.Atoms
import Sexpr.Proofs.Reader.Invariant
import Sexpr.Proofs.Reader.RoundTrip
import Sexpr.Proofs.Form.Congruence
import Sexpr.Proofs.Form.Equality
import Sexpr.Proofs.Form.Building
import Sexpr.Proofs.Reader.Cursor
import Sexpr.Proofs.Form.Built
import Sexpr.Proofs.Token.LineBreak
import Sexpr.Proofs.Reader.Refusal
import Sexpr.Proofs.Reader.Extension
import Sexpr.Form.Hash
import Sexpr.Proofs.Form.Hash
import Sexpr.Proofs.Form.Total
import Sexpr.Proofs.Reader.Backslashes
import Sexpr.Proofs.Reader.Line
import Sexpr.Proofs.Reader.Literal
import Sexpr.Proofs.Reader.Failure
import Sexpr.Proofs.Text.Bytes
import Sexpr.Proofs.Registry.Names
import Sexpr.Proofs.Registry.Replies
import Sexpr.Proofs.Registry.Identity
import Sexpr.Proofs.Reader.Calls
import Sexpr.Proofs.Reader.Moves
import Sexpr.Proofs.Reader.Nesting
import Sexpr.Proofs.Text.Quoted
import Sexpr.Proofs.Number.Grammar
import Sexpr.Proofs.Reader.Spacing
import Sexpr.Proofs.Form.Order
import Sexpr.Proofs.Core.Reduction
import Sexpr.Proofs.Core.Errors
