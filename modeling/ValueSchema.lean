import ValueSchema.Arena.Basic
import ValueSchema.Arena.Pool
import ValueSchema.Calendar.CivilDate
import ValueSchema.Calendar.Instant
import ValueSchema.Calendar.Reader
import ValueSchema.Call.Cache
import ValueSchema.Call.Options
import ValueSchema.Call.Outcome
import ValueSchema.Check.Basic
import ValueSchema.Check.Evaluate
import ValueSchema.Check.Registry
import ValueSchema.Coercion
import ValueSchema.Context.Report
import ValueSchema.Context.Tree
import ValueSchema.Double.Basic
import ValueSchema.Double.Reader
import ValueSchema.Double.Shortest
import ValueSchema.Double.Text
import ValueSchema.Entries
import ValueSchema.Int128
import ValueSchema.Issue.Basic
import ValueSchema.Issue.Message
import ValueSchema.Json
import ValueSchema.Parse.Checks
import ValueSchema.Parse.Choice
import ValueSchema.Parse.Container
import ValueSchema.Parse.Descent
import ValueSchema.Parse.Entry
import ValueSchema.Parse.Node
import ValueSchema.Parse.Parser
import ValueSchema.Parse.Run
import ValueSchema.Path
import ValueSchema.Proofs.Alike
import ValueSchema.Proofs.ArenaActs
import ValueSchema.Proofs.ArenaHistories
import ValueSchema.Proofs.BigIntegers
import ValueSchema.Proofs.BuilderPrograms
import ValueSchema.Proofs.CallCounts
import ValueSchema.Proofs.Calls
import ValueSchema.Proofs.CallsByMode
import ValueSchema.Proofs.CheckVerdicts
import ValueSchema.Proofs.Choice
import ValueSchema.Proofs.CoercionLaws
import ValueSchema.Proofs.Collisions
import ValueSchema.Proofs.Composition
import ValueSchema.Proofs.Conformance
import ValueSchema.Proofs.Containers
import ValueSchema.Proofs.ContextActs
import ValueSchema.Proofs.ContextLinks
import ValueSchema.Proofs.ContextNodes
import ValueSchema.Proofs.ContextValidity
import ValueSchema.Proofs.Conversions
import ValueSchema.Proofs.DecimalLiterals
import ValueSchema.Proofs.DepthLimit
import ValueSchema.Proofs.DigestLaws
import ValueSchema.Proofs.DoubleSums
import ValueSchema.Proofs.Exactness
import ValueSchema.Proofs.FirstIssue
import ValueSchema.Proofs.Heeded
import ValueSchema.Proofs.InstantText
import ValueSchema.Proofs.Intersection
import ValueSchema.Proofs.Items
import ValueSchema.Proofs.JsonDocuments
import ValueSchema.Proofs.KeyAccounts
import ValueSchema.Proofs.Kinds
import ValueSchema.Proofs.LeafChecks
import ValueSchema.Proofs.Merge
import ValueSchema.Proofs.MergeOrder
import ValueSchema.Proofs.Messages
import ValueSchema.Proofs.Mirror
import ValueSchema.Proofs.MissingValue
import ValueSchema.Proofs.Modes
import ValueSchema.Proofs.Multiples
import ValueSchema.Proofs.NearMultiples
import ValueSchema.Proofs.NewDefinitions
import ValueSchema.Proofs.Objects
import ValueSchema.Proofs.OrderLaws
import ValueSchema.Proofs.Outcome
import ValueSchema.Proofs.OutputKeys
import ValueSchema.Proofs.Parity
import ValueSchema.Proofs.PartialObjects
import ValueSchema.Proofs.Parts
import ValueSchema.Proofs.Placement
import ValueSchema.Proofs.Plan
import ValueSchema.Proofs.Pointers
import ValueSchema.Proofs.Policies
import ValueSchema.Proofs.Quotients
import ValueSchema.Proofs.Rearranged
import ValueSchema.Proofs.Reassembly
import ValueSchema.Proofs.RecentChecks
import ValueSchema.Proofs.Recursion
import ValueSchema.Proofs.References
import ValueSchema.Proofs.Repeats
import ValueSchema.Proofs.Report
import ValueSchema.Proofs.Rounding
import ValueSchema.Proofs.Run
import ValueSchema.Proofs.Schedules
import ValueSchema.Proofs.Sessions
import ValueSchema.Proofs.Shape
import ValueSchema.Proofs.SharedCache
import ValueSchema.Proofs.SharedCells
import ValueSchema.Proofs.SharedReports
import ValueSchema.Proofs.Sizes
import ValueSchema.Proofs.Solos
import ValueSchema.Proofs.Sorting
import ValueSchema.Proofs.SplitObjects
import ValueSchema.Proofs.StandingChecks
import ValueSchema.Proofs.Steps
import ValueSchema.Proofs.Success
import ValueSchema.Proofs.Throughout
import ValueSchema.Proofs.TranslatedNodes
import ValueSchema.Proofs.Translation
import ValueSchema.Proofs.Union
import ValueSchema.Proofs.Validity
import ValueSchema.Proofs.VisitCalls
import ValueSchema.Proofs.Visits
import ValueSchema.Proofs.WellBuilt
import ValueSchema.Regex.Anchor
import ValueSchema.Regex.Automaton
import ValueSchema.Regex.Basic
import ValueSchema.Regex.Bracket
import ValueSchema.Regex.CharFragment
import ValueSchema.Regex.Compile
import ValueSchema.Regex.Escape
import ValueSchema.Regex.Memo
import ValueSchema.Regex.Modes
import ValueSchema.Regex.Reader
import ValueSchema.Regex.Search
import ValueSchema.Regex.WordFragment
import ValueSchema.Schema.Basic
import ValueSchema.Schema.Builder
import ValueSchema.Schema.Effect
import ValueSchema.Text.Blank
import ValueSchema.Text.Hex
import ValueSchema.Text.Part
import ValueSchema.Unicode.Age
import ValueSchema.Unicode.ByteRange
import ValueSchema.Unicode.Casing
import ValueSchema.Unicode.Category
import ValueSchema.Unicode.CodeSet
import ValueSchema.Unicode.Derived
import ValueSchema.Unicode.Folding
import ValueSchema.Unicode.NamedSet
import ValueSchema.Unicode.Property
import ValueSchema.Unicode.Query
import ValueSchema.Unicode.Script
import ValueSchema.Unicode.Segment
import ValueSchema.Value.Basic
import ValueSchema.Value.Digest
import ValueSchema.Value.Equality
import ValueSchema.Value.Json
import ValueSchema.Value.Order
