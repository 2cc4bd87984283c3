import Zrt.Build.Integrity
import Zrt.Build.Recovery
import Zrt.Build.Specification
import Zrt.Chain
import Zrt.Codegen.Abi
import Zrt.Codegen.Analysis
import Zrt.Codegen.Bases
import Zrt.Codegen.Callbacks
import Zrt.Codegen.Declarations
import Zrt.Codegen.Emit
import Zrt.Codegen.Faithful
import Zrt.Codegen.Fields
import Zrt.Codegen.Handles
import Zrt.Codegen.Items
import Zrt.Codegen.Names
import Zrt.Codegen.Params
import Zrt.Codegen.Plain
import Zrt.Codegen.Positions
import Zrt.Codegen.Resolve
import Zrt.Codegen.Tokens
import Zrt.Codegen.Types
import Zrt.Crash
import Zrt.Custody
import Zrt.DrainLock
import Zrt.Dynamic.Capture
import Zrt.Dynamic.Cases
import Zrt.Dynamic.Conservation
import Zrt.Dynamic.Eviction
import Zrt.Dynamic.Exchange
import Zrt.Dynamic.Exhaustion
import Zrt.Dynamic.GpuChain
import Zrt.Dynamic.GraphBooks
import Zrt.Dynamic.GraphCases
import Zrt.Dynamic.Graphs
import Zrt.Dynamic.Index
import Zrt.Dynamic.Ledger
import Zrt.Dynamic.Mixing
import Zrt.Dynamic.Origins
import Zrt.Dynamic.Planned
import Zrt.Dynamic.PollOwned
import Zrt.Dynamic.PreparedSlots
import Zrt.Dynamic.Recent
import Zrt.Dynamic.RecoverySlots
import Zrt.Dynamic.Release
import Zrt.Dynamic.Specification
import Zrt.Dynamic.System
import Zrt.Dynamic.Unwinding
import Zrt.Dynamic.Warm
import Zrt.Environment
import Zrt.Error
import Zrt.FlagWord
import Zrt.Floating
import Zrt.Floating.Doubles
import Zrt.Floating.Mantissa
import Zrt.Floating.Operations
import Zrt.Floating.Packing
import Zrt.Handover
import Zrt.Lane.Access
import Zrt.Lane.Buffers
import Zrt.Lane.Frame
import Zrt.Lane.Graph
import Zrt.Lane.Handles
import Zrt.Lane.Leased
import Zrt.Lane.Outcome
import Zrt.Lane.Safety
import Zrt.Lane.Specification
import Zrt.Lease.Progress
import Zrt.Lease.Safety
import Zrt.Lease.Specification
import Zrt.Lending
import Zrt.Lts
import Zrt.ModelEditor
import Zrt.Ownership
import Zrt.Paging
import Zrt.Plugins.Safety
import Zrt.Plugins.Specification
import Zrt.Pool.Lanes
import Zrt.Pool.Progress
import Zrt.Pool.Safety
import Zrt.Pool.Specification
import Zrt.Recency
import Zrt.Recovery.Safety
import Zrt.Recovery.Specification
import Zrt.Refcount
import Zrt.Ring
import Zrt.Rounding
import Zrt.RunOptions
import Zrt.Session.AsyncRun
import Zrt.Session.BoundNames
import Zrt.Session.Constructors
import Zrt.Session.ElementCount
import Zrt.Session.ExecutionProvider
import Zrt.Session.GetterRuns
import Zrt.Session.Getters
import Zrt.Session.LifetimeSafety
import Zrt.Session.Lifetimes
import Zrt.Session.MemoryInfo
import Zrt.Session.MmapBuffer
import Zrt.Session.OutputHandles
import Zrt.Session.Outputs
import Zrt.Session.Prefault
import Zrt.Session.RunFuture
import Zrt.Session.RunHistory
import Zrt.Session.Runs
import Zrt.Session.SparseTensors
import Zrt.Session.StringTensor
import Zrt.ShapePlan.Elements
import Zrt.ShapePlan.Lookup
import Zrt.ShapePlan.Padding
import Zrt.ShapePlan.Safety
import Zrt.ShapePlan.Specification
import Zrt.Solo
import Zrt.Spool.Litter
import Zrt.Spool.Names
import Zrt.Spool.Safety
import Zrt.Spool.Specification
import Zrt.Spsc.Close
import Zrt.Spsc.Drop
import Zrt.Spsc.Moments
import Zrt.Spsc.Observe
import Zrt.Spsc.Order
import Zrt.Spsc.Progress
import Zrt.Spsc.Safety
import Zrt.Spsc.Shared
import Zrt.Spsc.Specification
import Zrt.SwapRemove
import Zrt.Tally
import Zrt.Teardown
import Zrt.Text
