import DataflowEditor.Compression.Bits
import DataflowEditor.Compression.CodeTree
import DataflowEditor.Compression.Gzip
import DataflowEditor.Compression.Inflate
import DataflowEditor.Envelope
import DataflowEditor.Graph.Address
import DataflowEditor.Graph.Basic
import DataflowEditor.Graph.Decode
import DataflowEditor.Graph.Descriptor
import DataflowEditor.Graph.Edit
import DataflowEditor.Graph.Encode
import DataflowEditor.Graph.Error
import DataflowEditor.Graph.InPlace
import DataflowEditor.Graph.Locate
import DataflowEditor.Graph.Order
import DataflowEditor.Graph.Selection
import DataflowEditor.Http.MediaType
import DataflowEditor.Http.Router
import DataflowEditor.Json.Basic
import DataflowEditor.Json.Canonical
import DataflowEditor.Json.Decode
import DataflowEditor.Json.Depth
import DataflowEditor.Json.Draft
import DataflowEditor.Json.Printer
import DataflowEditor.Main
import DataflowEditor.Net.IpAddress
import DataflowEditor.Number.Basic
import DataflowEditor.Number.Double
import DataflowEditor.Number.Shortest
import DataflowEditor.Program.CommandLine
import DataflowEditor.Program.Run
import DataflowEditor.Program.Settings
import DataflowEditor.Service.Action
import DataflowEditor.Service.Analysis
import DataflowEditor.Service.Compilation
import DataflowEditor.Service.Daemon
import DataflowEditor.Service.History
import DataflowEditor.Service.Insertion
import DataflowEditor.Service.Removal
import DataflowEditor.Service.Transformation
import DataflowEditor.Text.Blank
import DataflowEditor.Text.Integer
import DataflowEditor.Text.Printable
import DataflowEditor.Text.Utf8
import DataflowEditor.Toolkit.Analysis
import DataflowEditor.Toolkit.Call
import DataflowEditor.Toolkit.Channel
import DataflowEditor.Toolkit.Client
import DataflowEditor.Toolkit.Dialogue
import DataflowEditor.Toolkit.Error
import DataflowEditor.Toolkit.Exchange
import DataflowEditor.Toolkit.Link
import DataflowEditor.Toolkit.Message
import DataflowEditor.Toolkit.Pipe
import DataflowEditor.Proofs.Graph.Walk
import DataflowEditor.Proofs.Graph.WellFormed
import DataflowEditor.Proofs.Graph.Decoding
import DataflowEditor.Proofs.Graph.Editing
import DataflowEditor.Proofs.Graph.Containment
import DataflowEditor.Proofs.Text.Integer
import DataflowEditor.Proofs.Graph.AddressGrammar
import DataflowEditor.Proofs.Graph.Addressing
import DataflowEditor.Proofs.Graph.Locating
import DataflowEditor.Proofs.Graph.Descriptors
import DataflowEditor.Proofs.Graph.DescriptorKinds
import DataflowEditor.Proofs.Graph.Selecting
import DataflowEditor.Proofs.Graph.GivenGraph
import DataflowEditor.Proofs.Graph.Ownership
import DataflowEditor.Proofs.Graph.Additions
import DataflowEditor.Proofs.Graph.Growth
import DataflowEditor.Proofs.Json.Fields
import DataflowEditor.Proofs.Graph.Kinds
import DataflowEditor.Proofs.Graph.Descent
import DataflowEditor.Proofs.Graph.Rereading
import DataflowEditor.Proofs.Graph.RoundTrip
import DataflowEditor.Proofs.Graph.Instrumentation
import DataflowEditor.Proofs.Graph.Survivors
import DataflowEditor.Proofs.Graph.Pruning
import DataflowEditor.Proofs.Graph.Deletion
import DataflowEditor.Proofs.Graph.Detaching
import DataflowEditor.Proofs.Service.Removal
import DataflowEditor.Proofs.Graph.Remaining
import DataflowEditor.Proofs.Graph.Erasure
import DataflowEditor.Proofs.Graph.Scopes
import DataflowEditor.Proofs.Graph.NormalForm
import DataflowEditor.Proofs.Graph.Restoring
import DataflowEditor.Proofs.Graph.EdgeEnds
import DataflowEditor.Proofs.Graph.AddressText
import DataflowEditor.Proofs.Graph.Refusal
import DataflowEditor.Proofs.Service.Payload
import DataflowEditor.Proofs.Service.Insertion
import DataflowEditor.Proofs.Service.Session
import DataflowEditor.Proofs.Service.Extension
import DataflowEditor.Proofs.Service.Undoing
import DataflowEditor.Proofs.Toolkit.Dialogue
import DataflowEditor.Proofs.Service.Listing
import DataflowEditor.Proofs.Service.Expansion
import DataflowEditor.Proofs.Service.Transformation
import DataflowEditor.Proofs.Service.History
import DataflowEditor.Proofs.Service.Unreadable
import DataflowEditor.Proofs.Graph.Grammar
import DataflowEditor.Proofs.Graph.InPlace
import DataflowEditor.Proofs.Toolkit.LinkEffect
import DataflowEditor.Proofs.Toolkit.Correlation
import DataflowEditor.Proofs.Json.Records
import DataflowEditor.Proofs.Json.Printing
import DataflowEditor.Proofs.Text.Utf8
import DataflowEditor.Proofs.Toolkit.Spelling
import DataflowEditor.Proofs.Toolkit.Wire
import DataflowEditor.Proofs.Toolkit.Delivery
import DataflowEditor.Proofs.Service.Halting
import DataflowEditor.Proofs.Service.Answers
import DataflowEditor.Proofs.Toolkit.Prepared
import DataflowEditor.Proofs.Toolkit.Results
import DataflowEditor.Proofs.Service.Orderly
import DataflowEditor.Proofs.Service.Log
import DataflowEditor.Proofs.Graph.Traversal
import DataflowEditor.Proofs.Graph.Unfolding
import DataflowEditor.Proofs.Graph.Files
import DataflowEditor.Proofs.Graph.ScopeTable
import DataflowEditor.Proofs.Service.Labels
