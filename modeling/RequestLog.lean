import RequestLog.Config.Show
import RequestLog.Main
import RequestLog.Proofs.Filter.Isolation
import RequestLog.Proofs.Filter.Truth
import RequestLog.Proofs.Injection
import RequestLog.Proofs.Pairing
import RequestLog.Sample
import RequestLog.Scripted.Servers
import RequestLog.Proofs.Filter.Range
import RequestLog.Proofs.Filter.Agreement
import RequestLog.Proofs.Sql.Numeral
import RequestLog.Proofs.Text.Search
import RequestLog.Proofs.Sql.Computation
import RequestLog.Proofs.Sql.Engine
import RequestLog.Proofs.Pricing.Agreement
import RequestLog.Proofs.Relational.Engine
import RequestLog.Proofs.Sql.Select
import RequestLog.Proofs.Metric.Query
import RequestLog.Proofs.Relational.Admitted
import RequestLog.Proofs.Relational.Join
import RequestLog.Proofs.Relational.Ownership
import RequestLog.Proofs.Relational.Server
import RequestLog.Proofs.Metric.Isolation
import RequestLog.Proofs.Metric.Outcome
import RequestLog.Proofs.Store.Conversation
import RequestLog.Proofs.Store.Clients
import RequestLog.Proofs.Json.Text
import RequestLog.Proofs.Json.Number
import RequestLog.Proofs.Json.Token
import RequestLog.Proofs.Json.Tree
import RequestLog.Proofs.Filter.Wire
import RequestLog.Proofs.Filter.Shape
import RequestLog.Proofs.Instant.Calendar
import RequestLog.Proofs.Instant.Written
import RequestLog.Proofs.Filter.Document
import RequestLog.Proofs.Filter.Acceptance
import RequestLog.Proofs.Schema.Making
import RequestLog.Proofs.Store.Dialogue
import RequestLog.Proofs.Store.Embedded
import RequestLog.Proofs.Store.Race
import RequestLog.Proofs.Store.Servers
import RequestLog.Proofs.Store.Sites
import RequestLog.Proofs.Metric.Clause
import RequestLog.Proofs.Metric.Count
import RequestLog.Proofs.Store.Coercion
import RequestLog.Proofs.Store.Rows
import RequestLog.Proofs.Metric.Mean
import RequestLog.Proofs.Filter.Limits
import RequestLog.Proofs.Instant.Date
import RequestLog.Proofs.Instant.Stamped
import RequestLog.Proofs.Store.Bindable
import RequestLog.Proofs.Filter.Notation
import RequestLog.Proofs.Config.Layers
import RequestLog.Proofs.Store.Ending
import RequestLog.Proofs.Config.Complete
import RequestLog.Proofs.Store.Shape
import RequestLog.Proofs.Schema.Declared
import RequestLog.Proofs.Sql.Columns
import RequestLog.Proofs.Metric.Columns
import RequestLog.Proofs.Store.Transience
import RequestLog.Proofs.Metric.Disclosure
import RequestLog.Proofs.Store.Closing
import RequestLog.Proofs.Decimal.Sign
import RequestLog.Proofs.Pricing.Table
import RequestLog.Proofs.Pricing.File
import RequestLog.Proofs.Json.Size
import RequestLog.Proofs.Filter.Arguments
import RequestLog.Proofs.Config.Paths
