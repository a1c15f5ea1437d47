import Columnar.Cache
import Columnar.Collection.Apply
import Columnar.Expr.Cut
import Columnar.Expr.Json
import Columnar.Schema.Json
import Columnar.Proofs.Decimal.Number
import Columnar.Proofs.Decimal.Writing
import Columnar.Proofs.Expr.Alike
import Columnar.Proofs.Expr.Query
import Columnar.Proofs.Expr.Writing
import Columnar.Proofs.Expr.Checker
import Columnar.Proofs.ElementType.Order
import Columnar.Proofs.Expr.Heap
import Columnar.Proofs.Expr.Outcome
import Columnar.Proofs.Expr.Membership
import Columnar.Proofs.Session.Basic
import Columnar.Proofs.Session.Growth
import Columnar.Proofs.Cache.Sharing
import Columnar.Proofs.Cache.Contents
import Columnar.Proofs.Collection.Fields
import Columnar.Proofs.Session.Invariant
import Columnar.Proofs.Expr.Shape
import Columnar.Proofs.Session.Sharing
import Columnar.Proofs.Session.Equality
import Columnar.Proofs.Session.Contents
import Columnar.Proofs.Session.Interning
import Columnar.Proofs.Session.Writing
import Columnar.Proofs.Session.Typing
import Columnar.Proofs.Session.Columns
import Columnar.Proofs.Session.Derivation
import Columnar.Proofs.Session.Filling
import Columnar.Proofs.Json.Reading
import Columnar.Proofs.Schema.Reading
import Columnar.Proofs.Datetime.Reading
import Columnar.Proofs.Binary.Units
import Columnar.Proofs.Decimal.Reading
import Columnar.Proofs.Expr.Document
import Columnar.Proofs.Session.Document
import Columnar.Proofs.Expr.Access
import Columnar.Proofs.Collection.Switch
import Columnar.Proofs.Collection.Cases
import Columnar.Proofs.Collection.Selection
import Columnar.Proofs.Collection.Application
import Columnar.Proofs.Expr.BinAccess
import Columnar.Proofs.Session.Access
import Columnar.Proofs.Bins.Labels
import Columnar.Proofs.Bins.Denotation
import Columnar.Proofs.Bins.Partition
import Columnar.Proofs.Bins.Count
import Columnar.Proofs.Expr.Comparison
import Columnar.Proofs.Expr.Congruence
import Columnar.Proofs.Session.Congruence
import Columnar.Proofs.Schema.Construction
import Columnar.Proofs.Binary.Rounding
import Columnar.Proofs.Binary.Number
import Columnar.Proofs.Binary.Error
import Columnar.Proofs.Binary.Nearest
import Columnar.Proofs.Binary.Conversion
import Columnar.Proofs.Decimal.Conversion
import Columnar.Proofs.Value.Number
import Columnar.Proofs.Value.Coercion
import Columnar.Proofs.Value.Promotion
import Columnar.Proofs.Expr.Edges
import Columnar.Proofs.Expr.Filling
import Columnar.Proofs.Expr.Binning
import Columnar.Proofs.Expr.Cutting
import Columnar.Proofs.Expr.Renumber
import Columnar.Proofs.Expr.Equivariance
import Columnar.Proofs.Collection.Renumber
import Columnar.Proofs.Cache.Renumber
import Columnar.Proofs.Session.Program
import Columnar.Proofs.Session.Renumber
import Columnar.Proofs.Expr.Traversal
import Columnar.Proofs.Session.Traversal
import Columnar.Proofs.Session.References
import Columnar.Proofs.Json.Numeral
import Columnar.Proofs.Value.Reading
