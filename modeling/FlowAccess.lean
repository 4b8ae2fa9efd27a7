import FlowAccess.Account
import FlowAccess.Address
import FlowAccess.Block
import FlowAccess.Bytes
import FlowAccess.Cadence.Ccf.Reader
import FlowAccess.Cadence.Ccf.StaticType
import FlowAccess.Cadence.Ccf.Tag
import FlowAccess.Cadence.Ccf.Wide
import FlowAccess.Cadence.Ccf.Writer
import FlowAccess.Cadence.Error
import FlowAccess.Cadence.JsonCdc
import FlowAccess.Cadence.Number
import FlowAccess.Cadence.Value
import FlowAccess.Cbor
import FlowAccess.Client.Connect
import FlowAccess.Client.Error
import FlowAccess.Client.Operation
import FlowAccess.Client.StatusCode
import FlowAccess.Codec
import FlowAccess.Config.Basic
import FlowAccess.Config.Environment
import FlowAccess.Decimal.Binary64
import FlowAccess.Decimal.Shortest
import FlowAccess.Encoding
import FlowAccess.Entries
import FlowAccess.Error
import FlowAccess.Event
import FlowAccess.Execution
import FlowAccess.Grpc.Client
import FlowAccess.Grpc.Message.Account
import FlowAccess.Grpc.Message.Block
import FlowAccess.Grpc.Message.Envelope
import FlowAccess.Grpc.Message.Event
import FlowAccess.Grpc.Message.Execution
import FlowAccess.Grpc.Message.Node
import FlowAccess.Grpc.Message.Transaction
import FlowAccess.Grpc.Rpc
import FlowAccess.Grpc.Script
import FlowAccess.Identifier
import FlowAccess.Json.Basic
import FlowAccess.Json.Document
import FlowAccess.Json.Node
import FlowAccess.Json.Number
import FlowAccess.Json.Printer
import FlowAccess.Network
import FlowAccess.Node
import FlowAccess.Octets
import FlowAccess.Proofs.Addresses
import FlowAccess.Proofs.Cbor
import FlowAccess.Proofs.Cbor.Items
import FlowAccess.Proofs.Ccf.Acceptance
import FlowAccess.Proofs.Ccf.Agreement
import FlowAccess.Proofs.Ccf.Bounds
import FlowAccess.Proofs.Ccf.Collection
import FlowAccess.Proofs.Ccf.Grammar
import FlowAccess.Proofs.Ccf.Instances
import FlowAccess.Proofs.Ccf.Integers
import FlowAccess.Proofs.Ccf.Language
import FlowAccess.Proofs.Ccf.Messages
import FlowAccess.Proofs.Ccf.Parts
import FlowAccess.Proofs.Ccf.Readers
import FlowAccess.Proofs.Ccf.Refusal
import FlowAccess.Proofs.Ccf.Room
import FlowAccess.Proofs.Ccf.RoundTrip
import FlowAccess.Proofs.Ccf.TypeNames
import FlowAccess.Proofs.Ccf.Types
import FlowAccess.Proofs.Ccf.Values
import FlowAccess.Proofs.Ccf.Wide
import FlowAccess.Proofs.Client.Agreement
import FlowAccess.Proofs.Client.Answers
import FlowAccess.Proofs.Client.Node
import FlowAccess.Proofs.Client.PartialEvents
import FlowAccess.Proofs.Codec
import FlowAccess.Proofs.ContentIds
import FlowAccess.Proofs.Crossing
import FlowAccess.Proofs.Event.Eagerness
import FlowAccess.Proofs.Event.Holders
import FlowAccess.Proofs.Event.Reception
import FlowAccess.Proofs.Event.Uses
import FlowAccess.Proofs.Grpc.ExecutionData
import FlowAccess.Proofs.Grpc.Messages
import FlowAccess.Proofs.Grpc.Readings
import FlowAccess.Proofs.Grpc.RoundTrip
import FlowAccess.Proofs.Grpc.Sessions
import FlowAccess.Proofs.Json.Depth
import FlowAccess.Proofs.Json.Documents
import FlowAccess.Proofs.Json.RoundTrip
import FlowAccess.Proofs.Json.Scan
import FlowAccess.Proofs.JsonCdc.Canonical
import FlowAccess.Proofs.JsonCdc.Compatibility
import FlowAccess.Proofs.JsonCdc.Numbers
import FlowAccess.Proofs.JsonCdc.RoundTrip
import FlowAccess.Proofs.Lists
import FlowAccess.Proofs.Literals
import FlowAccess.Proofs.Numbers
import FlowAccess.Proofs.Outcomes
import FlowAccess.Proofs.Protobuf.Messages
import FlowAccess.Proofs.Protobuf.Records
import FlowAccess.Proofs.Rendering
import FlowAccess.Proofs.Rest.Documents
import FlowAccess.Proofs.Rest.RoundTrip
import FlowAccess.Proofs.Scalars
import FlowAccess.Proofs.Subscription.Calls
import FlowAccess.Proofs.Subscription.Cancellation
import FlowAccess.Proofs.Subscription.Delivery
import FlowAccess.Proofs.Subscription.Demand
import FlowAccess.Proofs.Subscription.History
import FlowAccess.Proofs.Subscription.Quiescence
import FlowAccess.Proofs.Timestamp
import FlowAccess.Proofs.Transcoding
import FlowAccess.Proofs.Unwritable
import FlowAccess.Proofs.Value
import FlowAccess.Proofs.Wires
import FlowAccess.Protobuf.Message
import FlowAccess.Protobuf.Record
import FlowAccess.Rest.Client
import FlowAccess.Rest.Document.Account
import FlowAccess.Rest.Document.Block
import FlowAccess.Rest.Document.Event
import FlowAccess.Rest.Document.Execution
import FlowAccess.Rest.Document.Node
import FlowAccess.Rest.Document.Transaction
import FlowAccess.Rest.Query
import FlowAccess.Rest.Target
import FlowAccess.Sample
import FlowAccess.Scalar
import FlowAccess.Sha256
import FlowAccess.Subscription.Basic
import FlowAccess.Text.Base64
import FlowAccess.Text.Blank
import FlowAccess.Text.Glyph
import FlowAccess.Text.Hex
import FlowAccess.Text.Names
import FlowAccess.Text.Numeral
import FlowAccess.Text.Quoted
import FlowAccess.Text.Uri
import FlowAccess.Timestamp
import FlowAccess.Transaction
