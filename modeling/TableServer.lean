import TableServer.Client.CommandLine
import TableServer.Client.FormEncoding
import TableServer.Client.Url
import TableServer.Client.Users
import TableServer.CommandLine.Options
import TableServer.Config.Basic
import TableServer.Config.Loading
import TableServer.Config.Setting
import TableServer.Config.Validation
import TableServer.Http.FieldValue
import TableServer.Http.Message
import TableServer.Http.Method
import TableServer.Http.Query
import TableServer.Http.Request
import TableServer.Http.Response
import TableServer.Http.Router
import TableServer.Http.Server
import TableServer.Http.Status
import TableServer.Http.Template
import TableServer.Http.Token
import TableServer.Http.Uri
import TableServer.Http.Wire
import TableServer.Json.Basic
import TableServer.Json.Document
import TableServer.Json.Embedded
import TableServer.Json.Entries
import TableServer.Json.NumberLiteral
import TableServer.Json.Pretty
import TableServer.Json.Reader
import TableServer.Json.Token
import TableServer.Json.Writer
import TableServer.Main
import TableServer.Net.Listener
import TableServer.Net.NumericHost
import TableServer.Net.SocketAddress
import TableServer.Number.Decimal
import TableServer.Number.Double
import TableServer.Number.Layout
import TableServer.Number.Power
import TableServer.Number.Scaling
import TableServer.Number.Shortest
import TableServer.Proofs.Client.Address
import TableServer.Proofs.Http.Division
import TableServer.Proofs.Http.Layers
import TableServer.Proofs.Http.Registration
import TableServer.Proofs.Http.Spelling
import TableServer.Proofs.Json.Documents
import TableServer.Proofs.Json.Literals
import TableServer.Proofs.Json.Objects
import TableServer.Proofs.Json.Texts
import TableServer.Proofs.Json.Tokens
import TableServer.Proofs.Number.ExactValue
import TableServer.Proofs.Number.Layouts
import TableServer.Proofs.Number.Nearest
import TableServer.Proofs.Number.ReadBack
import TableServer.Proofs.Number.Rounding
import TableServer.Proofs.Store.Failure
import TableServer.Proofs.Store.InsertModes
import TableServer.Proofs.Store.Interleaving
import TableServer.Proofs.Store.Mutation
import TableServer.Proofs.Store.RoundTrip
import TableServer.Proofs.Store.Settled
import TableServer.Proofs.Store.WriteBack
import TableServer.Proofs.Text.UnitOrder
import TableServer.Proofs.Users.Changes
import TableServer.Proofs.Users.Filtering
import TableServer.Proofs.Users.Identity
import TableServer.Proofs.Users.Listing
import TableServer.Proofs.Users.Refusal
import TableServer.Proofs.Users.Restart
import TableServer.Proofs.Users.Routing
import TableServer.Proofs.Where.AbstractComparison
import TableServer.Proofs.Where.Coherence
import TableServer.Proofs.Where.DecimalLiterals
import TableServer.Proofs.Where.Integers
import TableServer.Proofs.Where.NumberForms
import TableServer.Proofs.Where.Numerals
import TableServer.Proofs.Where.Outcome
import TableServer.Proofs.Where.TextOrder
import TableServer.Service.Broadcast
import TableServer.Service.Metrics
import TableServer.Service.Run
import TableServer.Service.Serving
import TableServer.Service.Shutdown
import TableServer.Service.Startup
import TableServer.Store.Basic
import TableServer.Store.History
import TableServer.Store.Slot
import TableServer.Store.Tables
import TableServer.Text.Ascii
import TableServer.Text.Blank
import TableServer.Text.Search
import TableServer.Text.Units
import TableServer.Text.UpperCase
import TableServer.Text.Utf8
import TableServer.Text.Uuid
import TableServer.Toml.Reader
import TableServer.Toml.Scalar
import TableServer.Toml.Text
import TableServer.Toml.Tree
import TableServer.Users.Api
import TableServer.Where.Basic
import TableServer.Where.Comparison
import TableServer.Where.Condition
import TableServer.Where.NumberText
import TableServer.Where.Operand
import TableServer.Where.Operator
import TableServer.Where.Reader
import TableServer.Proofs.Client.Reach
import TableServer.Proofs.Store.Selection
import TableServer.Proofs.Json.Recognition
import TableServer.Proofs.Json.Meaning
import TableServer.Proofs.Store.Opening
import TableServer.Proofs.Where.Reading
import TableServer.Proofs.Http.Filling
import TableServer.Proofs.Config.Merging
import TableServer.Proofs.Client.Filter
import TableServer.Proofs.Where.Insertion
import TableServer.Proofs.Service.Receptions
import TableServer.Proofs.Service.Stopping
import TableServer.Proofs.Json.Written
