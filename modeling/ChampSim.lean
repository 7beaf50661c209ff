import ChampSim.Library.Transition
import ChampSim.Library.CArray
import ChampSim.Library.ShiftRegister
import ChampSim.Library.Positions
import ChampSim.Library.Queue
import ChampSim.Library.Merge
import ChampSim.Library.Versions
import ChampSim.Library.Outcome
import ChampSim.Library.Scan
import ChampSim.Library.Recency
import ChampSim.Library.BitFields
import ChampSim.Library.Custody
import ChampSim.Library.Parity
import ChampSim.Library.Layout
import ChampSim.Library.Tickets
import ChampSim.Library.Nesting
import ChampSim.Library.SortedKeys
import ChampSim.Library.Loops
import ChampSim.Library.Ranks
import ChampSim.Library.Smear
import ChampSim.Library.Dictionary
import ChampSim.Msl.IntegerType
import ChampSim.Msl.Bits
import ChampSim.Msl.Fwcounter
import ChampSim.Msl.FwcounterOperands
import ChampSim.Msl.LruTable
import ChampSim.Msl.LruRanking
import ChampSim.Msl.LruRefinement
import ChampSim.Address
import ChampSim.Branch.Module
import ChampSim.Tage.Tables
import ChampSim.Tage.Hash
import ChampSim.Tage.Predict
import ChampSim.Tage.Update
import ChampSim.Tage.Effect
import ChampSim.Tage.Altpred
import ChampSim.Tage.Runs
import ChampSim.Tage.HistoryHash
import ChampSim.Tage.Allocation
import ChampSim.Tage.Convergence
import ChampSim.LTage.LoopPredictor
import ChampSim.LTage.LoopHistory
import ChampSim.LTage.LoopBounds
import ChampSim.LTage.LoopTags
import ChampSim.LTage.LoopTraining
import ChampSim.LTage.EmbeddedTage
import ChampSim.LTage.Simulation
import ChampSim.LTage.Convergence
import ChampSim.Cache.Packet
import ChampSim.Cache.Collision
import ChampSim.Cache.CollisionFates
import ChampSim.Cache.CollisionRuns
import ChampSim.Cache.CollisionDistinct
import ChampSim.Cache.State
import ChampSim.Cache.Operation
import ChampSim.Cache.Runs
import ChampSim.Cache.Dirty
import ChampSim.Cache.Operate
import ChampSim.Cache.Effects
import ChampSim.Cache.Cycle
import ChampSim.Cache.Returns
import ChampSim.Cache.Residency
import ChampSim.Cache.Writebacks
import ChampSim.Cache.Replacement
import ChampSim.Cache.Requesters
import ChampSim.Cache.Ledger
import ChampSim.Cache.Promises
import ChampSim.Cache.Stack
import ChampSim.Cache.Prefetches
import ChampSim.Core.Instruction
import ChampSim.Core.RegisterAllocator
import ChampSim.Core.State
import ChampSim.Core.Frontend
import ChampSim.Core.Backend
import ChampSim.Core.Cycle
import ChampSim.Core.Effects
import ChampSim.Core.Order
import ChampSim.Core.StageOrder
import ChampSim.Core.Decoding
import ChampSim.Core.ProgramOrder
import ChampSim.Core.Fresh
import ChampSim.Core.MemoryAccounts
import ChampSim.Core.MemoryStages
import ChampSim.Core.Renaming
import ChampSim.Core.RenamedRob
import ChampSim.Core.RegisterStages
import ChampSim.Core.RegisterRuns
import ChampSim.Core.Operands
import ChampSim.Core.Stalls
import ChampSim.Core.FetchReads
import ChampSim.Core.ScheduleSearch
import ChampSim.Core.MemoryQueues
import ChampSim.Core.StoreWrites
import ChampSim.Core.LoadPlacements
import ChampSim.Core.LoadReleases
import ChampSim.Core.StoreForwarding
import ChampSim.Dram.AddressMapping
import ChampSim.Splice
import ChampSim.Slice.Offset
import ChampSim.Slice.Relative
import ChampSim.Dram.Swizzle
import ChampSim.Dram.Coordinates
import ChampSim.Dram.Bijection
import ChampSim.Dram.Channel
import ChampSim.Dram.Slots
import ChampSim.Dram.SlotCollisions
import ChampSim.Dram.SlotStages
import ChampSim.Dram.SlotRuns
import ChampSim.Dram.Controller
import ChampSim.Dram.ReadHolders
import ChampSim.Dram.ReadStages
import ChampSim.Dram.ReadLedger
import ChampSim.Dram.ReadRuns
import ChampSim.Dram.Promises
import ChampSim.Dram.Cycle
import ChampSim.Dram.Service
import ChampSim.Dram.Refresh
import ChampSim.Vmem.VirtualMemory
import ChampSim.Vmem.Lookups
import ChampSim.Vmem.Regions
import ChampSim.Vmem.Placement
import ChampSim.Ptw.PageTableWalker
import ChampSim.Ptw.Walks
import ChampSim.Ptw.WalkStages
import ChampSim.Ptw.WalkRuns
import ChampSim.Ptw.WalkPaths
import ChampSim.Ptw.InFlight
import ChampSim.Bandwidth
import ChampSim.Extract
import ChampSim.Cache.Counters
import ChampSim.Cache.Shares
import ChampSim.Cache.Stash
import ChampSim.Cache.CheckNotes
import ChampSim.Cache.HookCalls
import ChampSim.Trace.Format
import ChampSim.Trace.Reader
import ChampSim.Trace.ReaderRuns
import ChampSim.Trace.InfStream
import ChampSim.HashedPerceptron.FoldedShiftRegister
import ChampSim.HashedPerceptron.Predictor
import ChampSim.Branch.Perceptron
import ChampSim.Branch.CounterTables
import ChampSim.Btb.BasicBtb
import ChampSim.Replacement.Rrpv
import ChampSim.Replacement.Ship
import ChampSim.Replacement.Drrip
import ChampSim.Stats.EventCounter
import ChampSim.Config.Chain
import ChampSim.Prefetch.IpStride
import ChampSim.Spp.Tables
import ChampSim.Spp.Operate
import ChampSim.Spp.Steps
import ChampSim.Spp.Invariants
import ChampSim.Spp.Depth
import ChampSim.Spp.Repeats
import ChampSim.Spp.Accuracy
import ChampSim.Core.StageFrames
import ChampSim.Core.Progress
import ChampSim.Simulation.System
import ChampSim.Simulation.Phase
import ChampSim.Simulation.Clocks
import ChampSim.Simulation.Lockstep
import ChampSim.Simulation.Delivery
import ChampSim.Simulation.Passes
import ChampSim.Simulation.Completion
import ChampSim.Simulation.Watchdogs
import ChampSim.Simulation.Hierarchy
import ChampSim.Trace.Repeatable
import ChampSim.Simulation.Traces
import ChampSim.Library.Reading
import ChampSim.Cvp.Record
import ChampSim.Cvp.Pages
import ChampSim.Cvp.Converter
