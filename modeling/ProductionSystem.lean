import ProductionSystem.Arguments
import ProductionSystem.Binary64
import ProductionSystem.Builtin
import ProductionSystem.Command
import ProductionSystem.CommandLine
import ProductionSystem.Condition
import ProductionSystem.Config
import ProductionSystem.Conflict
import ProductionSystem.Decimal.Shortest
import ProductionSystem.Decimal.Style
import ProductionSystem.Dictionary
import ProductionSystem.Engine
import ProductionSystem.Error
import ProductionSystem.Executor
import ProductionSystem.Fact
import ProductionSystem.Json
import ProductionSystem.Json.Numeral
import ProductionSystem.Json.Reader
import ProductionSystem.Load
import ProductionSystem.Load.Document
import ProductionSystem.Load.Problem
import ProductionSystem.Load.Statement
import ProductionSystem.Main
import ProductionSystem.Matching
import ProductionSystem.Proofs.ActionFates
import ProductionSystem.Proofs.Agenda
import ProductionSystem.Proofs.AllOrNothing
import ProductionSystem.Proofs.Alternation
import ProductionSystem.Proofs.AsyncWork
import ProductionSystem.Proofs.Backtracking
import ProductionSystem.Proofs.BindingIsolation
import ProductionSystem.Proofs.BuiltinScripts
import ProductionSystem.Proofs.CommandBodies
import ProductionSystem.Proofs.CommandChanges
import ProductionSystem.Proofs.ComposedLoads
import ProductionSystem.Proofs.ConditionOrder
import ProductionSystem.Proofs.ConditionSpellings
import ProductionSystem.Proofs.Consumption
import ProductionSystem.Proofs.Crew
import ProductionSystem.Proofs.CrewAccounts
import ProductionSystem.Proofs.CrewProgress
import ProductionSystem.Proofs.EngineActs
import ProductionSystem.Proofs.EngineFrame
import ProductionSystem.Proofs.Ensemble
import ProductionSystem.Proofs.EnsembleAccounts
import ProductionSystem.Proofs.EnsembleFacts
import ProductionSystem.Proofs.EnsembleFailures
import ProductionSystem.Proofs.Equipment
import ProductionSystem.Proofs.FactLifetime
import ProductionSystem.Proofs.FactOrder
import ProductionSystem.Proofs.FactOrigins
import ProductionSystem.Proofs.FactProgress
import ProductionSystem.Proofs.FactShapes
import ProductionSystem.Proofs.FailedLoads
import ProductionSystem.Proofs.FailureLog
import ProductionSystem.Proofs.FailureReports
import ProductionSystem.Proofs.FieldWrites
import ProductionSystem.Proofs.FiringBindings
import ProductionSystem.Proofs.FiringChanges
import ProductionSystem.Proofs.FirstMatch
import ProductionSystem.Proofs.FixedPoint
import ProductionSystem.Proofs.FlatMemory
import ProductionSystem.Proofs.FrameBudget
import ProductionSystem.Proofs.FreshStart
import ProductionSystem.Proofs.GrowingMemory
import ProductionSystem.Proofs.HaltRequests
import ProductionSystem.Proofs.HeldSnapshots
import ProductionSystem.Proofs.Interleaving
import ProductionSystem.Proofs.JobRecords
import ProductionSystem.Proofs.LeastSolutions
import ProductionSystem.Proofs.LiveLists
import ProductionSystem.Proofs.LiveVisibility
import ProductionSystem.Proofs.LoadedDocuments
import ProductionSystem.Proofs.Loads
import ProductionSystem.Proofs.MakeSpellings
import ProductionSystem.Proofs.MatchSession
import ProductionSystem.Proofs.MemoryChanges
import ProductionSystem.Proofs.MemoryHistory
import ProductionSystem.Proofs.MemoryRefinement
import ProductionSystem.Proofs.MemoryTrace
import ProductionSystem.Proofs.ParallelMatch
import ProductionSystem.Proofs.PartialChoices
import ProductionSystem.Proofs.PastEngines
import ProductionSystem.Proofs.PastMachines
import ProductionSystem.Proofs.PastMatches
import ProductionSystem.Proofs.Pasts
import ProductionSystem.Proofs.PooledRuns
import ProductionSystem.Proofs.ProducerAccounts
import ProductionSystem.Proofs.Producers
import ProductionSystem.Proofs.Quiescence
import ProductionSystem.Proofs.Resolution
import ProductionSystem.Proofs.RuleDeclarations
import ProductionSystem.Proofs.RuleGrammar
import ProductionSystem.Proofs.RuleOrder
import ProductionSystem.Proofs.Scheduling
import ProductionSystem.Proofs.Scoping
import ProductionSystem.Proofs.Scripts
import ProductionSystem.Proofs.SearchStack
import ProductionSystem.Proofs.SnapshotMatch
import ProductionSystem.Proofs.SplitRuns
import ProductionSystem.Proofs.TicketBalance
import ProductionSystem.Proofs.TicketProtocol
import ProductionSystem.Proofs.Unification
import ProductionSystem.Proofs.Uninterrupted
import ProductionSystem.Proofs.Wakeups
import ProductionSystem.Proofs.WrittenLines
import ProductionSystem.Registry
import ProductionSystem.Rule
import ProductionSystem.Run
import ProductionSystem.Search
import ProductionSystem.Slots
import ProductionSystem.Store
import ProductionSystem.Template
import ProductionSystem.Text.Extending
import ProductionSystem.Text.Quoted
import ProductionSystem.Text.Ranges
import ProductionSystem.Text.Unprintable
import ProductionSystem.Value
import ProductionSystem.WorkerPool
import ProductionSystem.Workspace
