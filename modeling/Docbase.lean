import Docbase.Catalogue
import Docbase.Declaration.Basic
import Docbase.KeyEscape
import Docbase.OperatorDocument
import Docbase.Proofs.Language.Spelling
import Docbase.Proofs.Filter.Connective
import Docbase.Proofs.Language.Formula
import Docbase.Proofs.Language.Grammar
import Docbase.Proofs.Number.Decimal
import Docbase.Proofs.Path
import Docbase.Proofs.Collection
import Docbase.Proofs.Criteria
import Docbase.Proofs.Repository.Last
import Docbase.Proofs.Store.Documents
import Docbase.Proofs.Store.Acts
import Docbase.Proofs.Store.Continues
import Docbase.Proofs.Key
import Docbase.Proofs.Schema
import Docbase.Proofs.DocumentType.Resolution
import Docbase.Proofs.Repository.Insert
import Docbase.Proofs.Number.Shortest
import Docbase.Proofs.Number.Text
import Docbase.Proofs.Value.Calendar
import Docbase.Proofs.Text.Part
import Docbase.Proofs.Value.Display
import Docbase.Proofs.Language.Soundness
import Docbase.Proofs.Repository.Pages
import Docbase.Proofs.Language.FieldNames
import Docbase.Proofs.DocumentType.Maintained
import Docbase.Proofs.DocumentType.Encoding
import Docbase.Proofs.KeyEscape
import Docbase.Proofs.Filter.OperatorDocument
import Docbase.Proofs.Update.Edit
import Docbase.Proofs.Update.Unordered
import Docbase.Proofs.Update.OperatorDocument
import Docbase.Proofs.Update.Regrouping
import Docbase.Proofs.Repository.ReadBack
import Docbase.Proofs.Repository.Replace
import Docbase.Proofs.Binding.Calls
import Docbase.Proofs.Binding.Chain
import Docbase.Proofs.Store.AllOrNothing
import Docbase.Proofs.Collection.Serial
import Docbase.Proofs.Schema.Conforming
import Docbase.Proofs.Schema.Complete
import Docbase.Declaration.Nesting
import Docbase.Proofs.Declaration.Constants
import Docbase.Proofs.Value.Agreement
import Docbase.Proofs.Filter.Comparison
import Docbase.Proofs.Value.Compound
import Docbase.Proofs.Filter.Membership
import Docbase.Proofs.Value.Exchangeable
import Docbase.Proofs.Filter.Content
import Docbase.Proofs.Retyping
import Docbase.Proofs.Number.Position
import Docbase.Proofs.Update.Independent
import Docbase.Proofs.Location
import Docbase.Proofs.Update.Frame
import Docbase.Proofs.Update.Increment
import Docbase.Proofs.Sorting.OperatorDocument
import Docbase.Proofs.KeyEscape.Storable
import Docbase.Proofs.Page
import Docbase.Proofs.Store.Refused
import Docbase.Proofs.Filter.TextOperator
import Docbase.Proofs.Language.Height
import Docbase.Proofs.Language.Cursor
import Docbase.Proofs.Criteria.Composition
import Docbase.Proofs.DocumentType.TopLevel
import Docbase.Proofs.Declaration.Naming
import Docbase.Proofs.Filter.TextEquality
import Docbase.Proofs.Number.Real
import Docbase.Proofs.Language.Layout
