import DarijaScript.Playground
import DarijaScript.CommandLine
import DarijaScript.Main
import DarijaScript.Proofs.Lexing.Partition
import DarijaScript.Proofs.Lexing.Woven
import DarijaScript.Proofs.Grammar.Acceptance
import DarijaScript.Proofs.Grammar.Lawful
import DarijaScript.Proofs.Printing.RoundTrip
import DarijaScript.Proofs.Store.Bindings
import DarijaScript.Proofs.Syntax.Declared
import DarijaScript.Proofs.Evaluation.InStep
import DarijaScript.Proofs.Evaluation.Steps
import DarijaScript.Proofs.Evaluation.Scopes
import DarijaScript.Proofs.Evaluation.BuiltinRules
import DarijaScript.Proofs.Evaluation.ExpressionRules
import DarijaScript.Proofs.Evaluation.StatementRules
import DarijaScript.Proofs.Evaluation.CallRules
import DarijaScript.Proofs.Evaluation.Moments
import DarijaScript.Proofs.Evaluation.Balance
import DarijaScript.Proofs.Evaluation.Jumps
import DarijaScript.Proofs.Evaluation.Reaching
import DarijaScript.Proofs.Evaluation.Hosts
import DarijaScript.Proofs.Evaluation.Constants
import DarijaScript.Proofs.Evaluation.Recursion
import DarijaScript.Proofs.Decimal.Compare
import DarijaScript.Proofs.Decimal.Sum
import DarijaScript.Proofs.Agenda.Usage
import DarijaScript.Proofs.Agenda.Queue
import DarijaScript.Proofs.Agenda.Faithful
import DarijaScript.Proofs.Agenda.Unissued
import DarijaScript.Proofs.Syntax.Mark
import DarijaScript.Proofs.Syntax.Height
import DarijaScript.Proofs.Grammar.Marks
import DarijaScript.Proofs.Grammar.Accounting
import DarijaScript.Proofs.Grammar.Recovery
import DarijaScript.Proofs.Grammar.Depth
import DarijaScript.Proofs.Store.Changes
import DarijaScript.Proofs.Evaluation.Counting
import DarijaScript.Proofs.Evaluation.Judgement
import DarijaScript.Proofs.Evaluation.Judgement.Expressions
import DarijaScript.Proofs.Evaluation.Judgement.Statements
import DarijaScript.Proofs.Evaluation.Judgement.Calls
import DarijaScript.Proofs.Evaluation.Invariant
import DarijaScript.Proofs.Evaluation.Frame
import DarijaScript.Proofs.Evaluation.Places
import DarijaScript.Proofs.Evaluation.Limits
import DarijaScript.Proofs.Grammar.Locality
import DarijaScript.Proofs.Grammar.Concatenation
import DarijaScript.Proofs.Evaluation.Lexical
import DarijaScript.Proofs.Store.Chains
import DarijaScript.Proofs.Evaluation.Names
import DarijaScript.Proofs.Store.Apart
import DarijaScript.Proofs.Evaluation.Spared
import DarijaScript.Proofs.Evaluation.Rounds
import DarijaScript.Proofs.Evaluation.Compound
import DarijaScript.Proofs.Builtin.Visits
import DarijaScript.Proofs.Value.Written
import DarijaScript.Proofs.Value.Sharing
import DarijaScript.Proofs.Evaluation.Clock
import DarijaScript.Proofs.Evaluation.Firing
import DarijaScript.Proofs.Evaluation.Fuel
import DarijaScript.Proofs.Evaluation.Coinciding
import DarijaScript.Proofs.Evaluation.Hoisting
import DarijaScript.Proofs.Decimal.Equality
import DarijaScript.Proofs.Value.Equality
import DarijaScript.Proofs.Decimal.Whole
import DarijaScript.Proofs.Value.Keys
import DarijaScript.Proofs.Value.Elements
import DarijaScript.Proofs.Evaluation.NumericKeys
import DarijaScript.Proofs.Evaluation.Enumeration
import DarijaScript.Proofs.Text.Search
import DarijaScript.Proofs.Text.Bytes
import DarijaScript.Proofs.Builtin.Methods
import DarijaScript.Proofs.Builtin.Joining
import DarijaScript.Proofs.Decimal.Signed
import DarijaScript.Proofs.Decimal.Integers
import DarijaScript.Proofs.Decimal.Truncation
import DarijaScript.Proofs.Builtin.Bounds
import DarijaScript.Proofs.Builtin.Slicing
import DarijaScript.Proofs.Builtin.Searching
import DarijaScript.Proofs.Lexing.Maximal
import DarijaScript.Proofs.Lexing.Progress
import DarijaScript.Proofs.Grammar.Bookkeeping
