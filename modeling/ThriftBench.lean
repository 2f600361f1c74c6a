import ThriftBench.Lib.Machine
import ThriftBench.Lib.Halting
import ThriftBench.Lib.Processes
import ThriftBench.Lib.CxxString
import ThriftBench.Lib.CString
import ThriftBench.Lib.Rank
import ThriftBench.Lib.Connections
import ThriftBench.Lib.Reading
import ThriftBench.Lib.Backend
import ThriftBench.Lib.Remote
import ThriftBench.Lib.Feed
import ThriftBench.Lib.Dialogue
import ThriftBench.UniqueId.PostId
import ThriftBench.UniqueId.Counter
import ThriftBench.UniqueId.SerialIds
import ThriftBench.UniqueId.Threads
import ThriftBench.UniqueId.Interleaving
import ThriftBench.UniqueId.StaleReading
import ThriftBench.UniqueId.SharedMutex
import ThriftBench.UniqueId.Restarts
import ThriftBench.UniqueId.Encoding
import ThriftBench.UniqueId.HardwareAddress
import ThriftBench.UniqueId.MachineHash
import ThriftBench.UniqueId.Identity
import ThriftBench.UniqueId.Descriptors
import ThriftBench.Pool.Bounds
import ThriftBench.Pool.Hang
import ThriftBench.Pool.Serial
import ThriftBench.Pool.SerialRuns
import ThriftBench.Inference.ComputeList
import ThriftBench.Inference.InputSafety
import ThriftBench.Inference.Tensor
import ThriftBench.Web.FrontEnd
import ThriftBench.Web.RestProxy
import ThriftBench.Load.Client
import ThriftBench.Load.Schedule
import ThriftBench.Load.Served
import ThriftBench.Load.Accounting
import ThriftBench.Hindsight.EchoServer
import ThriftBench.Hindsight.Sessions
import ThriftBench.Dump.Message
import ThriftBench.Dump.TradeHistory
import ThriftBench.Dump.Prompt
import ThriftBench.Rpc.Protocol
import ThriftBench.Rpc.Loopback
import ThriftBench.Rpc.Codec
import ThriftBench.Rpc.Call
import ThriftBench.Lib.Wire
import ThriftBench.Rpc.Foreign
import ThriftBench.Rpc.Oneway
import ThriftBench.Rpc.Services
import ThriftBench.Rpc.Newer
import ThriftBench.Dump.Clients
import ThriftBench.Dump.PromptClients
import ThriftBench.Hello.Clients
import ThriftBench.Hindsight.Clients
import ThriftBench.Async.Clients
import ThriftBench.Inference.Clients
import ThriftBench.UniqueId.Versions
import ThriftBench.Load.Workload
import ThriftBench.Load.Benchmarks
import ThriftBench.UniqueId.SingleClient
import ThriftBench.Lib.Dialogue
