import SceneGraph.Assets
import SceneGraph.Binary64
import SceneGraph.CommandLines
import SceneGraph.Commands
import SceneGraph.CompiledScenes
import SceneGraph.ComponentRegistries
import SceneGraph.Components
import SceneGraph.Configurations
import SceneGraph.Dictionaries
import SceneGraph.DocumentBuilding
import SceneGraph.DocumentValidation
import SceneGraph.Documents
import SceneGraph.EditEffects
import SceneGraph.EditEngine
import SceneGraph.EditHistories
import SceneGraph.Entities
import SceneGraph.Environments
import SceneGraph.Folders
import SceneGraph.Identifiers
import SceneGraph.JsonLayouts
import SceneGraph.JsonParsing
import SceneGraph.JsonSources
import SceneGraph.JsonValues
import SceneGraph.KeyframeTracks
import SceneGraph.Main
import SceneGraph.OperationWires
import SceneGraph.Operations
import SceneGraph.Proofs.AcceptedEdits
import SceneGraph.Proofs.Ancestries
import SceneGraph.Proofs.AnimationTracks
import SceneGraph.Proofs.BreadthFirst
import SceneGraph.Proofs.BuiltDocuments
import SceneGraph.Proofs.CompileOutcomes
import SceneGraph.Proofs.CompiledForms
import SceneGraph.Proofs.CompleteReading
import SceneGraph.Proofs.ComponentSlots
import SceneGraph.Proofs.ContentReversals
import SceneGraph.Proofs.DataForms
import SceneGraph.Proofs.DeferredReading
import SceneGraph.Proofs.Deletions
import SceneGraph.Proofs.DictionaryLaws
import SceneGraph.Proofs.DocumentReading
import SceneGraph.Proofs.EditErrors
import SceneGraph.Proofs.EditMoves
import SceneGraph.Proofs.EditTraces
import SceneGraph.Proofs.EngineRuns
import SceneGraph.Proofs.EngineTraces
import SceneGraph.Proofs.EntityChanges
import SceneGraph.Proofs.EnvironmentDeltas
import SceneGraph.Proofs.EqualDocuments
import SceneGraph.Proofs.EqualForms
import SceneGraph.Proofs.ExchangeableForms
import SceneGraph.Proofs.Exchanges
import SceneGraph.Proofs.FieldWrites
import SceneGraph.Proofs.FiniteReading
import SceneGraph.Proofs.Footprints
import SceneGraph.Proofs.Forests
import SceneGraph.Proofs.Groupings
import SceneGraph.Proofs.Histories
import SceneGraph.Proofs.IndependentWrites
import SceneGraph.Proofs.KeptForms
import SceneGraph.Proofs.KeyframeLists
import SceneGraph.Proofs.KeyframeRemovals
import SceneGraph.Proofs.LevelOrder
import SceneGraph.Proofs.ListDigests
import SceneGraph.Proofs.ListPlaces
import SceneGraph.Proofs.Moves
import SceneGraph.Proofs.NodeChanges
import SceneGraph.Proofs.NodeDeltas
import SceneGraph.Proofs.NormalForms
import SceneGraph.Proofs.OpenForms
import SceneGraph.Proofs.OperationLogs
import SceneGraph.Proofs.Outlines
import SceneGraph.Proofs.PathExchanges
import SceneGraph.Proofs.PathWrites
import SceneGraph.Proofs.PayloadUpgrades
import SceneGraph.Proofs.PortableParts
import SceneGraph.Proofs.PropertyExchanges
import SceneGraph.Proofs.PropertyParts
import SceneGraph.Proofs.PropertyPositions
import SceneGraph.Proofs.PropertyReversals
import SceneGraph.Proofs.RecordExchanges
import SceneGraph.Proofs.RecordReading
import SceneGraph.Proofs.Rejections
import SceneGraph.Proofs.Relocations
import SceneGraph.Proofs.Renewals
import SceneGraph.Proofs.ReportedValues
import SceneGraph.Proofs.Restorations
import SceneGraph.Proofs.RootedTrees
import SceneGraph.Proofs.RoundTrips
import SceneGraph.Proofs.SceneUpdates
import SceneGraph.Proofs.Singletons
import SceneGraph.Proofs.SortedTracks
import SceneGraph.Proofs.StandingPaths
import SceneGraph.Proofs.StoredDocuments
import SceneGraph.Proofs.StoredForms
import SceneGraph.Proofs.StoredOperations
import SceneGraph.Proofs.TreeMoves
import SceneGraph.Proofs.TreeReversals
import SceneGraph.Proofs.UndoDepths
import SceneGraph.Proofs.UndoRedo
import SceneGraph.Proofs.ValidDocuments
import SceneGraph.Proofs.ValidScenes
import SceneGraph.Proofs.ValueReading
import SceneGraph.Proofs.WalkOrder
import SceneGraph.Proofs.WrittenRecords
import SceneGraph.Proofs.ZeroSigns
import SceneGraph.PropertyPaths
import SceneGraph.PropertyWrites
import SceneGraph.QuotedText
import SceneGraph.Readers
import SceneGraph.SceneCompilation
import SceneGraph.SceneDeltas
import SceneGraph.SceneValidation
import SceneGraph.TomlDocuments
import SceneGraph.TomlScalars
import SceneGraph.Transforms
