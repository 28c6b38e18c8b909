import SerialRpc.Lib.ByteStream
import SerialRpc.Lib.LittleEndian
import SerialRpc.Lib.Leb128
import SerialRpc.Lib.Cut
import SerialRpc.Lib.Checks
import SerialRpc.Encoding.Skip
import SerialRpc.Encoding.Schema
import SerialRpc.Encoding.Protocol
import SerialRpc.Encoding.RoundTrip
import SerialRpc.Encoding.Canonical
import SerialRpc.Encoding.Overlay
import SerialRpc.Encoding.UnknownFields
import SerialRpc.Encoding.FieldNumber
import SerialRpc.Encoding.Framing
import SerialRpc.Encoding.Interop
import SerialRpc.Encoding.DynamicLocal
import SerialRpc.Encoding.Evolution
import SerialRpc.Encoding.DynamicTree
import SerialRpc.Encoding.LateReads
import SerialRpc.Encoding.Capacity
import SerialRpc.Encoding.Footprint
import SerialRpc.Service.Dispatch
import SerialRpc.Service.UnknownRequest
import SerialRpc.Service.Sessions
import SerialRpc.Service.EventIds
import SerialRpc.Service.Footprint
import SerialRpc.Service.References
import SerialRpc.Service.Names
import SerialRpc.Service.Uuid
import SerialRpc.Service.SchemaFidelity
import SerialRpc.Service.DiscoveredSchema
import SerialRpc.Service.Codecs
import SerialRpc.Service.Objects
import SerialRpc.Service.Declarations
import SerialRpc.Service.Accepted
import SerialRpc.Client.Input
import SerialRpc.Client.Chunked
import SerialRpc.Client.Version
import SerialRpc.Client.Callbacks
import SerialRpc.Client.Lifecycle
import SerialRpc.Client.Stranded
import SerialRpc.Client.Replies
import SerialRpc.Client.Completion
import SerialRpc.Client.Lifetime
import SerialRpc.Client.Failing
import SerialRpc.Client.Wakeup
import SerialRpc.Client.Pending
import SerialRpc.Client.Subscription
import SerialRpc.Session.Remote
import SerialRpc.Session.Lost
import SerialRpc.Session.Closed
import SerialRpc.Session.CommandLine
