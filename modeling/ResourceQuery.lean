import ResourceQuery.Http.Server
import ResourceQuery.Json.Reader
import ResourceQuery.Operation.Standard
import ResourceQuery.Database.Loading
import ResourceQuery.Database.Script
import ResourceQuery.Statement.Sql
import ResourceQuery.Proofs.Catalog.Reach
import ResourceQuery.Proofs.Query.Node
import ResourceQuery.Proofs.Query.Configuration
import ResourceQuery.Proofs.Surplus.Fields
import ResourceQuery.Proofs.Service.Arrangement
import ResourceQuery.Proofs.Service.Inclusion
import ResourceQuery.Proofs.Service.IncludedPaths
import ResourceQuery.Proofs.Plan.JoinColumns
import ResourceQuery.Proofs.Service.AllowListed
import ResourceQuery.Proofs.Json.Keep
import ResourceQuery.Proofs.Parameter.WrittenFilters
import ResourceQuery.Proofs.Surplus.Strip
import ResourceQuery.Proofs.Query.Unrestricted
import ResourceQuery.Proofs.Database.Projection
import ResourceQuery.Proofs.Service.PageNodes
import ResourceQuery.Proofs.Service.FieldProjection
import ResourceQuery.Proofs.Database.RowByRow
import ResourceQuery.Proofs.Service.Noninterference
import ResourceQuery.Proofs.Parameter.CanonicalFilters
import ResourceQuery.Proofs.Plan.Calls
import ResourceQuery.Proofs.Plan.RequestedFields
import ResourceQuery.Proofs.Statement.Reading
import ResourceQuery.Proofs.Statement.Texts
import ResourceQuery.Proofs.Service.Root
import ResourceQuery.Proofs.Database.Carried
import ResourceQuery.Proofs.Service.CarriedRelations
import ResourceQuery.Proofs.Service.LoadedRow
import ResourceQuery.Proofs.Parameter.AskedValues
import ResourceQuery.Proofs.Service.PageTiling
import ResourceQuery.Proofs.Parameter.WrittenElements
import ResourceQuery.Proofs.Service.RelationOrder
import ResourceQuery.Proofs.Database.Readings
import ResourceQuery.Proofs.Service.Windows
import ResourceQuery.Proofs.Database.Tables
import ResourceQuery.Proofs.Service.SingleRelations
import ResourceQuery.Proofs.Database.Exchanges
import ResourceQuery.Proofs.Database.Attached
import ResourceQuery.Proofs.Database.Statements
import ResourceQuery.Proofs.Plan.KeptJoins
import ResourceQuery.Proofs.Query.Operations
import ResourceQuery.Proofs.Query.Grafting
import ResourceQuery.Proofs.Query.Mirrored
import ResourceQuery.Proofs.Json.Places
import ResourceQuery.Proofs.Surplus.Trimming
import ResourceQuery.Proofs.Surplus.Merging
import ResourceQuery.Proofs.Statement.Clauses
import ResourceQuery.Proofs.Database.Counting
import ResourceQuery.Proofs.Service.Totals
import ResourceQuery.Proofs.Parameter.Patterns
import ResourceQuery.Proofs.Parameter.ExpressionTiles
import ResourceQuery.Proofs.Service.RowOverlay
import ResourceQuery.Proofs.Database.Dialogues
import ResourceQuery.Proofs.Service.Failures
import ResourceQuery.Proofs.Registry.FirstMatch
import ResourceQuery.Proofs.Operation.ColumnOperations
import ResourceQuery.Proofs.Parameter.LastValues
import ResourceQuery.Proofs.Settings.Lookup
import ResourceQuery.Proofs.Day.Spellings
import ResourceQuery.Proofs.Operation.WholeDays
import ResourceQuery.Proofs.Surplus.Changes
import ResourceQuery.Proofs.Text.LeadingInteger
import ResourceQuery.Proofs.Path.Spelling
import ResourceQuery.Proofs.Operation.NameSpellings
import ResourceQuery.Proofs.Parameter.AssignedFilters
