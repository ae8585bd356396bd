import MiniPascal.Operator
import MiniPascal.Decimal.Text
import MiniPascal.Decimal.Numeral
import MiniPascal.Text.Cursor
import MiniPascal.Text.Quoted
import MiniPascal.Token.Scan
import MiniPascal.Program.Printer
import MiniPascal.Program.Source
import MiniPascal.Machine
import MiniPascal.Value.Operation
import MiniPascal.Evaluation
import MiniPascal.Shell
import MiniPascal.Main
import MiniPascal.Proofs.Grammar
import MiniPascal.Proofs.Grammar.Soundness
import MiniPascal.Proofs.Grammar.Completeness
import MiniPascal.Proofs.Grammar.Acceptance
import MiniPascal.Proofs.Tree
import MiniPascal.Proofs.Writing.Style
import MiniPascal.Proofs.Writing.Minimal
import MiniPascal.Proofs.Lexical
import MiniPascal.Proofs.Text.Passing
import MiniPascal.Proofs.Lexical.Scan
import MiniPascal.Proofs.Lexical.Spelling
import MiniPascal.Proofs.Tree.Sourced
import MiniPascal.Proofs.Writing.Full
import MiniPascal.Proofs.Writing.RoundTrip
import MiniPascal.Proofs.Lexical.Append
import MiniPascal.Proofs.Reading.Steady
import MiniPascal.Proofs.Reading.Append
import MiniPascal.Proofs.Evaluation.Calls
import MiniPascal.Proofs.Evaluation.Values
import MiniPascal.Proofs.Evaluation.Discipline
import MiniPascal.Proofs.Shell.Lines
import MiniPascal.Proofs.Program.Append
import MiniPascal.Proofs.Program.Semicolon
import MiniPascal.Proofs.Shell.Session
import MiniPascal.Proofs.Evaluation.Evaluates
import MiniPascal.Proofs.Evaluation.Balance
import MiniPascal.Proofs.Evaluation.Constants
import MiniPascal.Proofs.Evaluation.Reach
import MiniPascal.Proofs.Tree.Statements
import MiniPascal.Proofs.Evaluation.Monotone
import MiniPascal.Proofs.Evaluation.Phrase
import MiniPascal.Proofs.Evaluation.Regime
import MiniPascal.Proofs.Evaluation.Positions
import MiniPascal.Proofs.Evaluation.Propagation
import MiniPascal.Proofs.Evaluation.Sound
import MiniPascal.Proofs.Evaluation.Termination
import MiniPascal.Proofs.Evaluation.Returned
import MiniPascal.Proofs.Lexical.Layout
import MiniPascal.Proofs.Lexical.Spacing
import MiniPascal.Proofs.Evaluation.Growth
import MiniPascal.Proofs.Tree.Bare
import MiniPascal.Proofs.Evaluation.Bare
import MiniPascal.Proofs.Evaluation.Mirror
import MiniPascal.Proofs.Evaluation.Alike
import MiniPascal.Proofs.Reading.Turns
import MiniPascal.Proofs.Reading.Accounts
import MiniPascal.Proofs.Reading.Progress
import MiniPascal.Proofs.Evaluation.Lowering
import MiniPascal.Proofs.Evaluation.Depth
import MiniPascal.Proofs.Evaluation.Drivers
import MiniPascal.Proofs.Shell.Script
import MiniPascal.Proofs.Evaluation.Loop
import MiniPascal.Proofs.Store.Nearest
import MiniPascal.Proofs.Evaluation.Arithmetic
import MiniPascal.Proofs.Program.Closing
import MiniPascal.Proofs.Lexical.Spaced
import MiniPascal.Proofs.Decimal.Numeral
import MiniPascal.Proofs.Reading.Numerals
import MiniPascal.Proofs.Program.Numerals
import MiniPascal.Proofs.Value.Comparison
import MiniPascal.Proofs.Evaluation.Identity
import MiniPascal.Proofs.Text.Slice
import MiniPascal.Proofs.Lexical.Slices
import MiniPascal.Proofs.Text.Operations
import MiniPascal.Proofs.Reading.Nesting
import MiniPascal.Proofs.Store.Chains
import MiniPascal.Proofs.Evaluation.Stages
import MiniPascal.Proofs.Evaluation.Chains
