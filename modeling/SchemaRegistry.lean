import SchemaRegistry.Deserializer
import SchemaRegistry.Main
import SchemaRegistry.Reference.Order
import SchemaRegistry.Schema.Json
import SchemaRegistry.Serializer
import SchemaRegistry.Proofs.Registry.Growth
import SchemaRegistry.Proofs.Registry.Invariant
import SchemaRegistry.Proofs.Client.Run
import SchemaRegistry.Proofs.Registry.Contents
import SchemaRegistry.Proofs.BigEndian
import SchemaRegistry.Proofs.Schema.Identity
import SchemaRegistry.Proofs.Registry.Identity
import SchemaRegistry.Proofs.Policy
import SchemaRegistry.Proofs.Envelope
import SchemaRegistry.Proofs.Endpoint
import SchemaRegistry.Proofs.Serializer.Recovery
import SchemaRegistry.Proofs.Serializer.Agreement
import SchemaRegistry.Proofs.Serializer.Isolation
import SchemaRegistry.Proofs.Client.Persistence
import SchemaRegistry.Proofs.Registry.Canonical
import SchemaRegistry.Proofs.Registry.Isolation
import SchemaRegistry.Proofs.Reference.Walk
import SchemaRegistry.Proofs.Reference.Graph
import SchemaRegistry.Proofs.Reference.Order
import SchemaRegistry.Proofs.Reference.Traversal
import SchemaRegistry.Proofs.Session.FailFast
import SchemaRegistry.Proofs.Failure
import SchemaRegistry.Proofs.Frame
import SchemaRegistry.Proofs.Json.Token
import SchemaRegistry.Proofs.Json.Document
import SchemaRegistry.Proofs.Json.Compact
import SchemaRegistry.Proofs.Json.Canonical
import SchemaRegistry.Proofs.Schema.Fingerprint
import SchemaRegistry.Proofs.Text.Integer
import SchemaRegistry.Proofs.Json.Record
import SchemaRegistry.Proofs.Schema.Json
import SchemaRegistry.Proofs.Policy.Fetched
import SchemaRegistry.Proofs.Reference.Construction
import SchemaRegistry.Proofs.Reference.ResolutionOrder
import SchemaRegistry.Proofs.Table
import SchemaRegistry.Proofs.Client.FirstVersions
import SchemaRegistry.Proofs.Reference.Unfolding
import SchemaRegistry.Proofs.Reference.Sources
import SchemaRegistry.Proofs.Avro.Linked
import SchemaRegistry.Proofs.Avro.Record
import SchemaRegistry.Proofs.Reference.Definitions
import SchemaRegistry.Proofs.Reference.Extension
import SchemaRegistry.Proofs.Reference.Filling
import SchemaRegistry.Proofs.Reference.Depth
import SchemaRegistry.Proofs.Serializer.Embedding
import SchemaRegistry.Proofs.Registry.LookUp
import SchemaRegistry.Proofs.Deserializer.Fetching
import SchemaRegistry.Proofs.Protobuf.Comment
import SchemaRegistry.Proofs.Avro.Name
import SchemaRegistry.Proofs.Avro.RootName
import SchemaRegistry.Proofs.Json.Layout
import SchemaRegistry.Proofs.Json.Reordering
import SchemaRegistry.Proofs.Schema.Layout
import SchemaRegistry.Proofs.Schema.Name
import SchemaRegistry.Proofs.Settings
import SchemaRegistry.Proofs.Policy.Selection
import SchemaRegistry.Proofs.Text.Blank
import SchemaRegistry.Proofs.Settings.Options
import SchemaRegistry.Proofs.CommandLine.Policy
import SchemaRegistry.Proofs.Text.Hex
import SchemaRegistry.Proofs.CommandLine.Envelope
import SchemaRegistry.Proofs.Toml.Word
import SchemaRegistry.Proofs.Toml.Assignment
import SchemaRegistry.Proofs.Directory
import SchemaRegistry.Proofs.Settings.Layered
import SchemaRegistry.Proofs.Settings.Saved
