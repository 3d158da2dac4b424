import EntityQuery.Config.Reading
import EntityQuery.Entity.Codec
import EntityQuery.Entity.Directory
import EntityQuery.Http.Service
import EntityQuery.Number.Shortest
import EntityQuery.Proofs.Compilation
import EntityQuery.Proofs.Compilation.Joining
import EntityQuery.Proofs.Compilation.Rebuilding
import EntityQuery.Proofs.Declarations
import EntityQuery.Proofs.Document.Absence
import EntityQuery.Proofs.Document.Agreement
import EntityQuery.Proofs.Document.Chronology
import EntityQuery.Proofs.Document.Ordering
import EntityQuery.Proofs.Document.Reading
import EntityQuery.Proofs.Document.Sorting
import EntityQuery.Proofs.Entity.Finding
import EntityQuery.Proofs.Entity.Typing
import EntityQuery.Proofs.Http.Registration
import EntityQuery.Proofs.IdentifierOrder
import EntityQuery.Proofs.IdentifierText
import EntityQuery.Proofs.Listing.ByIdentifier
import EntityQuery.Proofs.Listing.FilterText
import EntityQuery.Proofs.Listing.Pagination
import EntityQuery.Proofs.Listing.Precedence
import EntityQuery.Proofs.Listing.SortFields
import EntityQuery.Proofs.Listing.Window
import EntityQuery.Proofs.Memory.Paging
import EntityQuery.Proofs.Memory.Strictness
import EntityQuery.Proofs.MixedNumbers
import EntityQuery.Proofs.Relational.Binding
import EntityQuery.Proofs.Relational.History
import EntityQuery.Proofs.Relational.Ordering
import EntityQuery.Proofs.Relational.RoundingDown
import EntityQuery.Proofs.Sql.Rendering
import EntityQuery.Proofs.Sql.Selection
import EntityQuery.Proofs.Time.Filters
import EntityQuery.Store.Document
import EntityQuery.Store.Memory
import EntityQuery.Store.Relational
