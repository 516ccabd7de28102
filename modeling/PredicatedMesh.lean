import PredicatedMesh.Library.Scan
import PredicatedMesh.Library.Periodic
import PredicatedMesh.IR.Edge
import PredicatedMesh.Target.Model
import PredicatedMesh.Target.Shipped
import PredicatedMesh.Target.DFG
import PredicatedMesh.Target.DFGVerifier
import PredicatedMesh.Mapping.ModuloMapping
import PredicatedMesh.Mapping.Resource
import PredicatedMesh.Mapping.Reservation
import PredicatedMesh.Mapping.RouteSearch
import PredicatedMesh.Mapping.Verifier
import PredicatedMesh.Mapping.VerifierSpec
import PredicatedMesh.Schedule.Staged
import PredicatedMesh.Schedule.Execution
import PredicatedMesh.RegisterAllocation.Storage
import PredicatedMesh.RegisterAllocation.Verifier
import PredicatedMesh.RegisterAllocation.Soundness
import PredicatedMesh.Schedule.SignedTime
import PredicatedMesh.Schedule.Materialized
import PredicatedMesh.Schedule.MaterializedVerifier
import PredicatedMesh.Schedule.Materializer
import PredicatedMesh.Library.Tiling
import PredicatedMesh.Schedule.Exact
import PredicatedMesh.Lowering.Control
import PredicatedMesh.Lowering.Lowerer
import PredicatedMesh.Lowering.Uniform
import PredicatedMesh.Analysis.LowerBound
import PredicatedMesh.Analysis.Recurrence
import PredicatedMesh.Frontend.Pointer
import PredicatedMesh.Frontend.MemoryAnalysis
import PredicatedMesh.Frontend.MemorySoundness
import PredicatedMesh.RTL.Sequencer
import PredicatedMesh.RTL.RunGate
import PredicatedMesh.Golden.Execution
import PredicatedMesh.RTL.LoopController
import PredicatedMesh.Library.BitField
import PredicatedMesh.Target.ControlLayout
import PredicatedMesh.Target.ControlWord
import PredicatedMesh.Target.ControlCodec
import PredicatedMesh.Target.ShippedControl
import PredicatedMesh.Golden.Control
import PredicatedMesh.RTL.ControlPkg
import PredicatedMesh.Target.CodecAgreement
import PredicatedMesh.IR.DFG
import PredicatedMesh.IR.DFGVerifier
import PredicatedMesh.Target.Legalizer
import PredicatedMesh.RegisterAllocation.Ports
import PredicatedMesh.Lowering.Seeds
import PredicatedMesh.Lowering.WritePorts
import PredicatedMesh.Lowering.ControlVerifier
import PredicatedMesh.Lowering.Builder
import PredicatedMesh.Lowering.TargetLowering
import PredicatedMesh.Target.Providers
import PredicatedMesh.Lowering.EventCalls
import PredicatedMesh.Lowering.StorageReads
import PredicatedMesh.Lowering.Acceptance
import PredicatedMesh.RTL.ConfigMemory
import PredicatedMesh.Library.Predecessor
import PredicatedMesh.Library.Json
import PredicatedMesh.Library.ShortestPath
import PredicatedMesh.Library.Matching
import PredicatedMesh.Lowering.Manifest
import PredicatedMesh.Golden.Manifest
import PredicatedMesh.Lowering.Replay
import PredicatedMesh.Pipeline.CompileDFG
import PredicatedMesh.Tools.ProgramValidator
import PredicatedMesh.Pipeline.ManifestValidity
import PredicatedMesh.Target.Loading
import PredicatedMesh.Target.Legalization
import PredicatedMesh.Mapping.ResourceIds
import PredicatedMesh.RegisterAllocation.Coverage
import PredicatedMesh.RegisterAllocation.Allocator
import PredicatedMesh.RegisterAllocation.PortMatching
import PredicatedMesh.Library.Coloring
import PredicatedMesh.RegisterAllocation.Coloring
import PredicatedMesh.RegisterAllocation.Exactness
import PredicatedMesh.RegisterAllocation.Accepted
import PredicatedMesh.Library.Numeral
import PredicatedMesh.Tools.ConfigStream
import PredicatedMesh.Tools.HexGrammar
import PredicatedMesh.Tools.StreamWrites
import PredicatedMesh.Tools.EmittedStream
import PredicatedMesh.Schedule.StageRelaxation
import PredicatedMesh.Schedule.StageSolution
import PredicatedMesh.Library.SortedMap
import PredicatedMesh.Mapping.ModuloMapper
import PredicatedMesh.Mapping.MapperRollback
import PredicatedMesh.Mapping.MapperExhaustion
import PredicatedMesh.Library.MachineInt
import PredicatedMesh.Schedule.ExactTime
import PredicatedMesh.Library.Interning
import PredicatedMesh.Lowering.ConstantImage
import PredicatedMesh.Mapping.RouteStates
import PredicatedMesh.Mapping.RouteSoundness
import PredicatedMesh.Mapping.TransportAcceptance
import PredicatedMesh.Mapping.MapperAcceptance
import PredicatedMesh.Mapping.MapperConsistency
import PredicatedMesh.Mapping.MapperTransactions
import PredicatedMesh.Mapping.RouteSearchExact
import PredicatedMesh.Mapping.RouteOptimality
import PredicatedMesh.Library.Backtracking
import PredicatedMesh.Mapping.ExactOracle
import PredicatedMesh.Mapping.OracleRoutes
import PredicatedMesh.Mapping.Solution
import PredicatedMesh.Mapping.OracleLeaves
import PredicatedMesh.Mapping.OracleExact
import PredicatedMesh.Library.JsonReading
import PredicatedMesh.Mapping.Serialization
import PredicatedMesh.Mapping.RoundTrip
import PredicatedMesh.Schedule.StagedSerialization
import PredicatedMesh.RegisterAllocation.Serialization
import PredicatedMesh.IR.DFGBuilder
import PredicatedMesh.IR.Serialization
import PredicatedMesh.IR.Built
import PredicatedMesh.IR.RoundTrip
import PredicatedMesh.Pipeline.Artifacts
import PredicatedMesh.Schedule.VerifierComplete
import PredicatedMesh.Schedule.EventStreams
import PredicatedMesh.Schedule.KernelWindow
import PredicatedMesh.Schedule.Placement
import PredicatedMesh.Schedule.Totality
import PredicatedMesh.Frontend.AddressLowering
import PredicatedMesh.Frontend.AddressSoundness
import PredicatedMesh.Library.Linearization
import PredicatedMesh.IR.Reference
import PredicatedMesh.ABI.Kernel
import PredicatedMesh.ABI.Verifier
import PredicatedMesh.ABI.Binder
import PredicatedMesh.ABI.BoundGraph
import PredicatedMesh.ABI.Extension
import PredicatedMesh.ABI.Preservation
import PredicatedMesh.ABI.OutputRegion
