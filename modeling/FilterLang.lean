import FilterLang.Text.Alphanumeric
import FilterLang.Text.Blank
import FilterLang.Text.Hidden
import FilterLang.Number.Decimal
import FilterLang.Number.Shortest
import FilterLang.Compile
import FilterLang.Json.Document
import FilterLang.Grammar.SettingsText
import FilterLang.Table.Dataset
import FilterLang.Table.Inspected
import FilterLang.Main
import FilterLang.Proofs.Expr.Precedence
import FilterLang.Proofs.Binding.Recording
import FilterLang.Proofs.Table.Meaning
import FilterLang.Proofs.Table.Bindable
import FilterLang.Proofs.Compile.Layout
import FilterLang.Proofs.Compile.Progress
import FilterLang.Proofs.Expr.Regular
import FilterLang.Proofs.Expr.Rebuild
import FilterLang.Proofs.Compile.Scan
import FilterLang.Proofs.Compile.LongestMatch
import FilterLang.Proofs.Compile.Adjacent
import FilterLang.Proofs.Expr.Reduction
import FilterLang.Proofs.Number.Rounding
import FilterLang.Proofs.Number.Shortest
import FilterLang.Proofs.Json.Printed
import FilterLang.Proofs.Number.Pointed
import FilterLang.Proofs.Json.Reading
import FilterLang.Proofs.Compile.Comparison
import FilterLang.Proofs.Table.DecimalText
import FilterLang.Proofs.Table.Columns
import FilterLang.Proofs.Table.Records
import FilterLang.Proofs.Table.Reordering
import FilterLang.Proofs.Table.Growth
import FilterLang.Proofs.Compile.CanonicalForm
import FilterLang.Proofs.Compile.Limit
import FilterLang.Proofs.Compile.MissingOperand
import FilterLang.Proofs.Expr.Reweighing
import FilterLang.Proofs.Compile.Reweighing
import FilterLang.Proofs.Command.Staging
import FilterLang.Proofs.Number.Rational
import FilterLang.Proofs.Expr.DecimalLiteral
import FilterLang.Proofs.Table.Loading
import FilterLang.Proofs.Compile.Awaiting
import FilterLang.Proofs.Table.Agreement
import FilterLang.Proofs.Table.Rendering
import FilterLang.Proofs.Grammar.SettingsText
import FilterLang.Proofs.Compile.InvalidOperands
