import ErrorTaxonomy.Arguments
import ErrorTaxonomy.Binary64
import ErrorTaxonomy.Compilation
import ErrorTaxonomy.CompileError
import ErrorTaxonomy.CompiledOrder
import ErrorTaxonomy.Configuration
import ErrorTaxonomy.ConfigurationSearch
import ErrorTaxonomy.Declaration
import ErrorTaxonomy.DeclarationForms
import ErrorTaxonomy.Decoding
import ErrorTaxonomy.Definition
import ErrorTaxonomy.DefinitionText
import ErrorTaxonomy.Displays
import ErrorTaxonomy.Document
import ErrorTaxonomy.FieldType
import ErrorTaxonomy.Files.FileTree
import ErrorTaxonomy.Files.PathText
import ErrorTaxonomy.InheritanceGraph
import ErrorTaxonomy.Journal
import ErrorTaxonomy.Json.Failure
import ErrorTaxonomy.Json.Printer
import ErrorTaxonomy.Json.Reader
import ErrorTaxonomy.Json.Scanner
import ErrorTaxonomy.Json.Serializer
import ErrorTaxonomy.Json.Tree
import ErrorTaxonomy.Json.TreeReader
import ErrorTaxonomy.Level
import ErrorTaxonomy.LoadError
import ErrorTaxonomy.Loader
import ErrorTaxonomy.Main
import ErrorTaxonomy.Model
import ErrorTaxonomy.OrderingStrategy
import ErrorTaxonomy.Pipeline
import ErrorTaxonomy.Program
import ErrorTaxonomy.Proofs.CycleSearch
import ErrorTaxonomy.Proofs.FirstFailure
import ErrorTaxonomy.Proofs.InheritanceLinks
import ErrorTaxonomy.Proofs.NameIndex
import ErrorTaxonomy.Proofs.ParentChains
import ErrorTaxonomy.Proofs.RepeatedScan
import ErrorTaxonomy.Proofs.RootedWalk
import ErrorTaxonomy.Report
import ErrorTaxonomy.Run
import ErrorTaxonomy.TaxonomyError
import ErrorTaxonomy.Text.Blank
import ErrorTaxonomy.Text.Hidden
import ErrorTaxonomy.Text.Quoted
import ErrorTaxonomy.Toml.Decoder
import ErrorTaxonomy.Toml.Parser
import ErrorTaxonomy.Toml.Value
import ErrorTaxonomy.Traced
import ErrorTaxonomy.Validation
import ErrorTaxonomy.Yaml.Cursor
import ErrorTaxonomy.Yaml.Decoder
import ErrorTaxonomy.Yaml.Document
import ErrorTaxonomy.Yaml.Meaning
import ErrorTaxonomy.Yaml.Parser
import ErrorTaxonomy.Yaml.PropertyScanner
import ErrorTaxonomy.Yaml.ScalarScanner
import ErrorTaxonomy.Yaml.Scanner
import ErrorTaxonomy.Yaml.Token
import ErrorTaxonomy.Proofs.FirstViolation
import ErrorTaxonomy.Proofs.GraphConstruction
import ErrorTaxonomy.Proofs.StrategyAgreement
import ErrorTaxonomy.Proofs.FieldTyping
import ErrorTaxonomy.Proofs.CompiledListing
import ErrorTaxonomy.Proofs.Acceptance
import ErrorTaxonomy.Proofs.ModelOrder
import ErrorTaxonomy.Proofs.ErrorSelection
import ErrorTaxonomy.Proofs.CoherentDefinitions
import ErrorTaxonomy.Proofs.ListingOrder
import ErrorTaxonomy.Proofs.Ancestry
import ErrorTaxonomy.Proofs.ConservativeExtension
import ErrorTaxonomy.Proofs.IgnoredInput
import ErrorTaxonomy.Proofs.Rearrangement
import ErrorTaxonomy.Proofs.Decompilation
import ErrorTaxonomy.Proofs.InversionOrder
import ErrorTaxonomy.Proofs.FileEntries
import ErrorTaxonomy.Proofs.AtomicRun
import ErrorTaxonomy.Proofs.NameOrder
import ErrorTaxonomy.Proofs.PathSegments
import ErrorTaxonomy.Proofs.DirectoryPaths
import ErrorTaxonomy.Proofs.DirectoryView
import ErrorTaxonomy.Proofs.RunView
import ErrorTaxonomy.Proofs.CanonicalListing
import ErrorTaxonomy.Proofs.DecodedLists
import ErrorTaxonomy.Proofs.LoadOutcome
import ErrorTaxonomy.Proofs.PairedFiles
import ErrorTaxonomy.Proofs.JsonGrammar
import ErrorTaxonomy.Proofs.JsonLayouts
import ErrorTaxonomy.Proofs.JsonBlanks
import ErrorTaxonomy.Proofs.Emission
import ErrorTaxonomy.Proofs.LosslessDocument
import ErrorTaxonomy.Proofs.FaithfulCheck
import ErrorTaxonomy.Proofs.ReportedCycle
import ErrorTaxonomy.Proofs.ModelHierarchy
import ErrorTaxonomy.Proofs.EmittedMetadata
import ErrorTaxonomy.Proofs.ScanCount
import ErrorTaxonomy.Proofs.LevelGroups
import ErrorTaxonomy.Proofs.FieldLookup
import ErrorTaxonomy.Proofs.RecordPresentation
import ErrorTaxonomy.Proofs.JsonSkipping
import ErrorTaxonomy.Proofs.JsonReading
import ErrorTaxonomy.Proofs.PresentedDeclarations
import ErrorTaxonomy.Proofs.QuotedScalars
import ErrorTaxonomy.Proofs.FlowText
import ErrorTaxonomy.Proofs.FlowTokens
import ErrorTaxonomy.Proofs.FlowEvents
import ErrorTaxonomy.Proofs.FlowNodes
import ErrorTaxonomy.Proofs.CompactDefinitions
import ErrorTaxonomy.Proofs.GraphRepresentation
import ErrorTaxonomy.Proofs.WalkMoves
