import LowJs.App.CommandLine
import LowJs.App.MemoryLimit
import LowJs.Buffer.IndexOf
import LowJs.Collections.Collection
import LowJs.Collections.Iteration
import LowJs.Collections.Refinement
import LowJs.Core.Associations
import LowJs.Core.Bytes
import LowJs.Core.CodeUnits
import LowJs.Core.Entries
import LowJs.Core.Framing
import LowJs.Core.Hex
import LowJs.Core.IntrusiveQueue
import LowJs.Core.Machine
import LowJs.Core.Multimap
import LowJs.Core.Prefixes
import LowJs.Core.Segments
import LowJs.Core.Simulation
import LowJs.Core.Slots
import LowJs.Core.Whiles
import LowJs.Events.Emission
import LowJs.Events.Emitter
import LowJs.Events.Listeners
import LowJs.Events.Once
import LowJs.FS.File
import LowJs.FS.Protocol
import LowJs.FS.ReadStream
import LowJs.FS.Resolve
import LowJs.FS.WholeFiles
import LowJs.FS.WriteStream
import LowJs.HTTP.Agent
import LowJs.HTTP.AgentPool
import LowJs.HTTP.AgentQueue
import LowJs.HTTP.Headers
import LowJs.HTTPDirect.BlockLoops
import LowJs.HTTPDirect.BytesRead
import LowJs.HTTPDirect.Callbacks
import LowJs.HTTPDirect.ChunkDecoding
import LowJs.HTTPDirect.ChunkedWriting
import LowJs.HTTPDirect.Collect
import LowJs.HTTPDirect.Connection
import LowJs.HTTPDirect.Delivery
import LowJs.HTTPDirect.Feed
import LowJs.HTTPDirect.FramingChoice
import LowJs.HTTPDirect.Head
import LowJs.HTTPDirect.HeadBytes
import LowJs.HTTPDirect.HeadDelivery
import LowJs.HTTPDirect.Indexes
import LowJs.HTTPDirect.Lengths
import LowJs.HTTPDirect.Loop
import LowJs.HTTPDirect.MessageEnds
import LowJs.HTTPDirect.MutexDiscipline
import LowJs.HTTPDirect.Parser
import LowJs.HTTPDirect.ReadPaths
import LowJs.HTTPDirect.Readers
import LowJs.HTTPDirect.Rounds
import LowJs.HTTPDirect.Sections
import LowJs.HTTPDirect.SocketData
import LowJs.HTTPDirect.State
import LowJs.HTTPDirect.Steps
import LowJs.HTTPDirect.Tracking
import LowJs.HTTPDirect.WriteAccounts
import LowJs.HTTPDirect.WriteBuffers
import LowJs.HTTPDirect.WriteStash
import LowJs.Loop.CallbackQueue
import LowJs.Loop.NextTick
import LowJs.Loop.Requests
import LowJs.Loop.TimerOrder
import LowJs.Loop.TimerStore
import LowJs.Loop.Timers
import LowJs.Memory.DukHeap
import LowJs.Memory.Stash
import LowJs.Modules.Cache
import LowJs.Modules.Graph
import LowJs.Modules.Loader
import LowJs.Modules.Resolver
import LowJs.Net.Accepting
import LowJs.Net.DeferredReads
import LowJs.Net.LookupScan
import LowJs.Net.NameService
import LowJs.Net.SendOrder
import LowJs.Net.Server
import LowJs.Net.StartOfAuthority
import LowJs.OPCUA.Client
import LowJs.OPCUA.Counting
import LowJs.OPCUA.Lifetime
import LowJs.OPCUA.SendQueue
import LowJs.OPCUA.SubNode
import LowJs.OPCUA.Variants
import LowJs.Path.Basename
import LowJs.Path.Components
import LowJs.Path.Dirname
import LowJs.Path.Join
import LowJs.Path.Normalize
import LowJs.Path.Parts
import LowJs.Path.Path
import LowJs.Path.Relative
import LowJs.Path.Resolve
import LowJs.Promise.Adoption
import LowJs.Promise.Race
import LowJs.Promise.Settling
import LowJs.Promise.State
import LowJs.Promise.Subscribers
import LowJs.Promise.Unhandled
import LowJs.QueryString.Encoding
import LowJs.QueryString.Escape
import LowJs.QueryString.Pairs
import LowJs.QueryString.Parse
import LowJs.QueryString.Stringify
import LowJs.Readline.Lines
import LowJs.Socket.Answers
import LowJs.Socket.ConnectErrors
import LowJs.Socket.Datagram
import LowJs.Socket.DatagramRuns
import LowJs.Socket.State
import LowJs.Socket.Wakeups
import LowJs.Socket.WriteOutcome
import LowJs.Stream.Batches
import LowJs.Stream.Completion
import LowJs.Stream.Finished
import LowJs.Stream.MissingEnd
import LowJs.Stream.Pipes
import LowJs.Stream.ReadLengths
import LowJs.Stream.ReadOrder
import LowJs.Stream.Readable
import LowJs.Stream.Transform
import LowJs.Stream.Writable
import LowJs.Stream.WriteOrder
import LowJs.Threads.DataThread
import LowJs.Threads.Descriptors
import LowJs.Threads.PollTable
import LowJs.Threads.Resolvers
