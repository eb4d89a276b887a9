import LooseSql.Main
import LooseSql.Step
import LooseSql.Proofs.Clause.Enclosure
import LooseSql.Proofs.Clause.HeadEnd
import LooseSql.Proofs.Clause.NewHead
import LooseSql.Proofs.Comment.Blank
import LooseSql.Proofs.Name.Grammar
import LooseSql.Proofs.Normalize
import LooseSql.Proofs.Normalize.Prologue
import LooseSql.Proofs.Normalize.Repeat
import LooseSql.Proofs.Selection.Order
import LooseSql.Proofs.Selection.Parts
import LooseSql.Proofs.Selection.Remainder
import LooseSql.Proofs.Selection.Variants
import LooseSql.Proofs.Split.Pieces
import LooseSql.Proofs.Split.Items
import LooseSql.Proofs.Split.Connectives
import LooseSql.Proofs.Condition.Tree
import LooseSql.Proofs.Name.Candidates
import LooseSql.Proofs.Name.Claims
import LooseSql.Proofs.Name.Cascade
import LooseSql.Proofs.Name.Literal
import LooseSql.Proofs.Name.Written
import LooseSql.Proofs.Name.Sources
import LooseSql.Proofs.Name.Joined
import LooseSql.Proofs.Name.Captured
import LooseSql.Proofs.Selection.Literal
import LooseSql.Proofs.Split.Predicates
import LooseSql.Proofs.Split.Quoted
import LooseSql.Proofs.Clause.Terminators
import LooseSql.Proofs.Clause.RowCounts
import LooseSql.Proofs.Selection.RowLimit
import LooseSql.Proofs.Column.Bracketed
import LooseSql.Proofs.Column.Named
import LooseSql.Proofs.Comment.Stripped
import LooseSql.Proofs.Comment.Quoted
import LooseSql.Proofs.Condition.Written
import LooseSql.Proofs.Column.Listed
import LooseSql.Proofs.Report.Table
import LooseSql.Proofs.Cli
import LooseSql.Proofs.Keyword.Searches
