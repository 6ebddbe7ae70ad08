import FieldRules.Engine.Validator
import FieldRules.Main
import FieldRules.Proofs.Expr.Precedence
import FieldRules.Proofs.Expr.Climbing
import FieldRules.Proofs.Expr.Operands
import FieldRules.Proofs.Expr.Subtrees
import FieldRules.Proofs.Expr.Grouping
import FieldRules.Proofs.Text.Quotable
import FieldRules.Proofs.Text.SelfContained
import FieldRules.Proofs.Number.Literal
import FieldRules.Proofs.Text.Blank
import FieldRules.Proofs.Datum.Registry
import FieldRules.Proofs.Expr.Slots
import FieldRules.Proofs.Expr.Tokens
import FieldRules.Proofs.Expr.Written
import FieldRules.Proofs.Text.Word
import FieldRules.Proofs.Expr.Taken
import FieldRules.Proofs.Expr.Readable
import FieldRules.Proofs.Expr.ReadBack
import FieldRules.Proofs.Program.Chains
import FieldRules.Proofs.Program.Flatten
import FieldRules.Proofs.Program.Enumeration
import FieldRules.Proofs.Eval.Congruence
import FieldRules.Proofs.Expr.Annotation
import FieldRules.Proofs.Program.Compile
import FieldRules.Proofs.Program.Navigation
import FieldRules.Proofs.Program.Selectors
import FieldRules.Proofs.Program.NameResolution
import FieldRules.Proofs.Engine.Cache
import FieldRules.Proofs.Engine.Requests
import FieldRules.Proofs.Engine.Validation
import FieldRules.Proofs.Text.Signs
import FieldRules.Proofs.Text.Sealed
import FieldRules.Proofs.Expr.Accepted
import FieldRules.Proofs.Expr.Arguments
import FieldRules.Proofs.Expr.Portability
import FieldRules.Proofs.Expr.Enclosing
import FieldRules.Proofs.Expr.Blocks
import FieldRules.Proofs.Expr.Numbering
import FieldRules.Proofs.Eval.Dependencies
import FieldRules.Proofs.Program.Entered
import FieldRules.Proofs.Program.Iteration
import FieldRules.Proofs.Program.Acceptance
import FieldRules.Proofs.Eval.Formatting
import FieldRules.Proofs.Eval.Calls
import FieldRules.Proofs.Expr.PredicateCalls
import FieldRules.Proofs.Program.Addressing
import FieldRules.Proofs.Datum.Elements
import FieldRules.Proofs.Eval.Binding
import FieldRules.Proofs.Eval.Retrieval
import FieldRules.Proofs.Number.IntegerPart
import FieldRules.Proofs.Eval.Remainder
import FieldRules.Proofs.Eval.IntegerVerbs
import FieldRules.Proofs.Program.Siblings
import FieldRules.Proofs.Engine.Wording
import FieldRules.Proofs.Eval.Concatenation
import FieldRules.Proofs.Eval.Filling
import FieldRules.Proofs.Expr.Surroundings
import FieldRules.Proofs.Datum.Documents
import FieldRules.Proofs.Eval.DocumentPaths
import FieldRules.Proofs.Text.Closing
import FieldRules.Proofs.Text.TopLevel
import FieldRules.Proofs.Expr.Progress
import FieldRules.Proofs.Expr.Legible
import FieldRules.Proofs.Number.Rendered
import FieldRules.Proofs.Number.Shortest
import FieldRules.Proofs.Number.Distinct
import FieldRules.Proofs.Expr.PrefixForms
import FieldRules.Proofs.Expr.Shown
