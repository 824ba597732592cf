import ApiGateway.Action.Basic
import ApiGateway.Action.Registry
import ApiGateway.Action.Stock
import ApiGateway.Chain.Basic
import ApiGateway.Chain.Compile
import ApiGateway.Chain.Run
import ApiGateway.Condition.Basic
import ApiGateway.Condition.Compile
import ApiGateway.Condition.Evaluate
import ApiGateway.Condition.Writer
import ApiGateway.Config.Basic
import ApiGateway.Config.File
import ApiGateway.Config.Reader
import ApiGateway.Config.SocketAddress
import ApiGateway.Config.Tls
import ApiGateway.Config.Validation
import ApiGateway.Config.Writer
import ApiGateway.Decimal.Binary64
import ApiGateway.Decimal.Shortest
import ApiGateway.Dict
import ApiGateway.Document.Basic
import ApiGateway.Document.Error
import ApiGateway.Document.Record
import ApiGateway.Document.Stop
import ApiGateway.Document.Value
import ApiGateway.Gateway.Basic
import ApiGateway.Gateway.Metrics
import ApiGateway.Gateway.Router
import ApiGateway.Gateway.Service
import ApiGateway.Http.Host
import ApiGateway.Http.Message
import ApiGateway.Http.Token
import ApiGateway.Http.Uri
import ApiGateway.Json.Basic
import ApiGateway.Json.Printer
import ApiGateway.Json.Reader
import ApiGateway.Main
import ApiGateway.Mount.Dispatch
import ApiGateway.Mount.Endpoint
import ApiGateway.Mount.Path
import ApiGateway.Mount.Table
import ApiGateway.Options
import ApiGateway.Shutdown
import ApiGateway.Startup
import ApiGateway.Text.Blank
import ApiGateway.Text.Hex
import ApiGateway.Text.Quoted
import ApiGateway.Text.Split
import ApiGateway.Text.Unprintable
import ApiGateway.Text.Utf8
import ApiGateway.Toml.Reader
import ApiGateway.Toml.Scalar
import ApiGateway.Toml.Table
import ApiGateway.Toml.Text
import ApiGateway.Proofs.Mount.Dispatch
import ApiGateway.Proofs.Chain.Build
import ApiGateway.Proofs.Chain.Compile
import ApiGateway.Proofs.Gateway.Loading
import ApiGateway.Proofs.Gateway.History
import ApiGateway.Proofs.Condition.Reference
import ApiGateway.Proofs.Condition.Faults
import ApiGateway.Proofs.Flight.Restoration
import ApiGateway.Proofs.Flight.Interleaving
import ApiGateway.Proofs.Condition.Operands
import ApiGateway.Proofs.Condition.Rejection
import ApiGateway.Proofs.Condition.Parts
import ApiGateway.Proofs.Condition.Acceptance
import ApiGateway.Proofs.Condition.Rendering
import ApiGateway.Proofs.Condition.Rewriting
import ApiGateway.Proofs.Condition.Guarding
import ApiGateway.Proofs.Chain.Run
import ApiGateway.Proofs.Chain.Composition
import ApiGateway.Proofs.Mount.Relative
import ApiGateway.Proofs.Mount.Splitting
import ApiGateway.Proofs.Mount.Deadline
import ApiGateway.Proofs.Gateway.Serving
import ApiGateway.Proofs.Gateway.RequestId
import ApiGateway.Proofs.Gateway.Reloading
import ApiGateway.Proofs.Shutdown.Signals
import ApiGateway.Proofs.Gateway.Labels
import ApiGateway.Proofs.Config.RoundTrip
import ApiGateway.Proofs.Condition.Dependence
import ApiGateway.Proofs.Condition.Methods
import ApiGateway.Proofs.Condition.Headers
import ApiGateway.Proofs.Mount.Host
import ApiGateway.Proofs.Condition.Hosts
import ApiGateway.Proofs.Mount.Root
import ApiGateway.Proofs.Mount.Fields
import ApiGateway.Proofs.Config.Places
import ApiGateway.Proofs.Config.SocketAddress
import ApiGateway.Proofs.Config.Faults
import ApiGateway.Proofs.Config.Validation
import ApiGateway.Proofs.Condition.Printing
import ApiGateway.Proofs.Mount.Stripping
import ApiGateway.Proofs.Condition.Ports
import ApiGateway.Proofs.Action.Registries
