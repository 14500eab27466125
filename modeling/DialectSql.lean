import DialectSql.Assembly.Statement
import DialectSql.Dialect.Configuration
import DialectSql.Entity.Coordinator
import DialectSql.Entity.Document
import DialectSql.Entity.Select
import DialectSql.Main
import DialectSql.Proofs.Annotation
import DialectSql.Proofs.Arithmetic.Value
import DialectSql.Proofs.Arity
import DialectSql.Proofs.CapabilityGaps
import DialectSql.Proofs.Comment.Opening
import DialectSql.Proofs.Condition.Combination
import DialectSql.Proofs.Document.RoundTrip
import DialectSql.Proofs.Entity.LastBinding
import DialectSql.Proofs.Entity.Orphans
import DialectSql.Proofs.Entity.PartialRecord
import DialectSql.Proofs.Entity.SingleOperation
import DialectSql.Proofs.Entity.Spared
import DialectSql.Proofs.Existence.Columns
import DialectSql.Proofs.Existence.NullTests
import DialectSql.Proofs.Gates
import DialectSql.Proofs.JoinOrder
import DialectSql.Proofs.JoinScope
import DialectSql.Proofs.Live.Termination
import DialectSql.Proofs.Locking.Translation
import DialectSql.Proofs.NativeDistinctness
import DialectSql.Proofs.Placeholder.Numbering
import DialectSql.Proofs.Quoting.Contents
import DialectSql.Proofs.Restriction
import DialectSql.Proofs.RowValue
import DialectSql.Proofs.RowWindow.Agreement
import DialectSql.Proofs.Rowless.Nested
import DialectSql.Proofs.Scope.Capture
import DialectSql.Proofs.SetOperation.Grouping
import DialectSql.Proofs.Slots.Generic
import DialectSql.Proofs.SortOrder.Comparison
import DialectSql.Proofs.Tables.Statement
import DialectSql.Render.Script
