import AimSimulator.Lib.Runs
import AimSimulator.Base.Request
import AimSimulator.Dram.Node
import AimSimulator.Dram.Device
import AimSimulator.Dram.Lambdas
import AimSimulator.Dram.GDDR6
import AimSimulator.Dram.LPDDR
import AimSimulator.Dram.Timing
import AimSimulator.Dram.GDDR6Timing
import AimSimulator.Dram.ReadyClocks
import AimSimulator.Lib.Best
import AimSimulator.Controller.AiMController
import AimSimulator.Controller.Schedule
import AimSimulator.Controller.Run
import AimSimulator.Controller.Conservation
import AimSimulator.Controller.Ordering
import AimSimulator.Controller.Barrier
import AimSimulator.Dma.AiMDRAMSystem
import AimSimulator.Dma.Run
import AimSimulator.Dma.Decode
import AimSimulator.Dma.Retirement
import AimSimulator.Dma.ChannelMask
import AimSimulator.Dma.FanOut
import AimSimulator.Dram.BankRows
import AimSimulator.Dram.GDDR6Rows
import AimSimulator.Controller.Device
import AimSimulator.Controller.RowState
import AimSimulator.Controller.Refresh
import AimSimulator.Lib.Pairing
import AimSimulator.Plugin.RRS
import AimSimulator.Plugin.RowSwap
import AimSimulator.Dram.AllBankWrite
import AimSimulator.Controller.Closing
import AimSimulator.Dma.ConfigRegisters
import AimSimulator.Dram.LPDDRTiming
import AimSimulator.Controller.History
import AimSimulator.Dram.Shape
import AimSimulator.Dram.PreqWalk
import AimSimulator.Dram.PerBankRefresh
import AimSimulator.Dram.RefreshTables
import AimSimulator.Lib.Prompting
import AimSimulator.Dram.Convergence
import AimSimulator.Dram.LPDDRConvergence
import AimSimulator.Dram.Opening
import AimSimulator.Controller.ActiveBuffer
import AimSimulator.Dram.Dominance
import AimSimulator.Controller.SameLocation
import AimSimulator.Controller.Unblocked
import AimSimulator.Controller.ModeChange
import AimSimulator.Controller.PreOpened
import AimSimulator.Dram.OpenRows
import AimSimulator.Controller.Standby
import AimSimulator.AddrMapper.LinearMappers
import AimSimulator.Lib.MisraGries
import AimSimulator.Lib.Pending
import AimSimulator.Plugin.Activation
import AimSimulator.Plugin.Graphene
import AimSimulator.Plugin.Hydra
import AimSimulator.Plugin.HydraTracking
import AimSimulator.Plugin.HydraCache
import AimSimulator.Plugin.HydraLayout
import AimSimulator.Lib.Buckets
import AimSimulator.Processor.SimpleO3LLC
import AimSimulator.Translation.RandomTranslation
import AimSimulator.Processor.LLCStructure
import AimSimulator.Processor.WakeUps
import AimSimulator.Plugin.RowPairs
import AimSimulator.Plugin.SharedTable
import AimSimulator.Plugin.ChannelSwaps
import AimSimulator.Plugin.SwapRows
import AimSimulator.Plugin.TableSize
import AimSimulator.Analysis.ActivityCycles
import AimSimulator.Analysis.Simulation
import AimSimulator.Analysis.RowOps
import AimSimulator.Analysis.StandbyTotals
import AimSimulator.Analysis.TraceReplay
import AimSimulator.Analysis.BankLifetimes
import AimSimulator.Analysis.LegacyCounts
import AimSimulator.Frontend.AiMTrace
import AimSimulator.Analysis.Forwarding
import AimSimulator.Analysis.Assertions
import AimSimulator.Plugin.RowTables
import AimSimulator.Plugin.TWiCe
import AimSimulator.Plugin.OracleRH
import AimSimulator.Processor.LLCGeometry
import AimSimulator.Frontend.TraceText
import AimSimulator.Frontend.TraceFields
import AimSimulator.Frontend.TraceReader
import AimSimulator.Lib.TimedRuns
import AimSimulator.Lib.Cyclic
import AimSimulator.Lib.Outputs
import AimSimulator.Lib.Ring
import AimSimulator.Processor.InstWindow
import AimSimulator.Processor.SimpleO3Core
import AimSimulator.Processor.WriteBacks
import AimSimulator.Processor.SimpleO3Frontend
import AimSimulator.Lib.Decimals
import AimSimulator.Processor.TraceFile
import AimSimulator.Frontend.MemoryTraces
import AimSimulator.Controller.Accesses
import AimSimulator.Controller.GenericAccesses
import AimSimulator.Controller.Capacity
import AimSimulator.Dram.Siblings
import AimSimulator.Dram.Standard
import AimSimulator.Controller.GenericDevice
import AimSimulator.Dram.StandardTiming
import AimSimulator.Controller.Locality
import AimSimulator.Lib.Sweep
import AimSimulator.MemorySystem.GenericDRAMSystem
import AimSimulator.MemorySystem.Channels
import AimSimulator.MemorySystem.Timing
import AimSimulator.Controller.Conventional
import AimSimulator.Controller.GenericConservation
import AimSimulator.Dram.StandardOpening
import AimSimulator.Dram.StandardRows
import AimSimulator.MemorySystem.Conservation
import AimSimulator.MemorySystem.Rows
import AimSimulator.Dram.Exactness
import AimSimulator.Dram.AimExactness
import AimSimulator.Controller.Held
import AimSimulator.MemorySystem.AiMMemorySystem
import AimSimulator.MemorySystem.AiMChannels
import AimSimulator.MemorySystem.AiMCallbacks
import AimSimulator.MemorySystem.AiMTiming
import AimSimulator.Simulator.MainLoop
