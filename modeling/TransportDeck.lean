import TransportDeck.Analysis
import TransportDeck.Blocks
import TransportDeck.Card.Cell
import TransportDeck.Card.Data
import TransportDeck.Card.Fill
import TransportDeck.Card.Keyword
import TransportDeck.Card.Material
import TransportDeck.Card.Region
import TransportDeck.Card.Surface
import TransportDeck.Card.Tally
import TransportDeck.Card.Transform
import TransportDeck.CardFault
import TransportDeck.Cell
import TransportDeck.CommandLine
import TransportDeck.CrossRefs
import TransportDeck.DataCard
import TransportDeck.Deck
import TransportDeck.Diagnostic
import TransportDeck.Fill
import TransportDeck.FillGraph
import TransportDeck.FillGraph.Cycles
import TransportDeck.FillGraph.Depth
import TransportDeck.FillGraph.Instances
import TransportDeck.Finding
import TransportDeck.Geometry
import TransportDeck.Hierarchy
import TransportDeck.Like
import TransportDeck.LogicalCard
import TransportDeck.Main
import TransportDeck.Material
import TransportDeck.Number.Binary
import TransportDeck.Number.Decimal
import TransportDeck.Number.Notation
import TransportDeck.Number.Shortest
import TransportDeck.Number.Shorthand
import TransportDeck.Number.Word
import TransportDeck.Particle
import TransportDeck.Proofs.Analysis.Density
import TransportDeck.Proofs.Analysis.Errors
import TransportDeck.Proofs.Analysis.ExactTables
import TransportDeck.Proofs.Analysis.LetterCase
import TransportDeck.Proofs.Analysis.LineRange
import TransportDeck.Proofs.Analysis.PhaseCodes
import TransportDeck.Proofs.Analysis.ReportLines
import TransportDeck.Proofs.Analysis.Settings
import TransportDeck.Proofs.Analysis.Shapes
import TransportDeck.Proofs.Analysis.Soundness
import TransportDeck.Proofs.Blocks.BlankRuns
import TransportDeck.Proofs.Blocks.CardSizes
import TransportDeck.Proofs.Blocks.CommentCards
import TransportDeck.Proofs.Blocks.LetterCase
import TransportDeck.Proofs.Blocks.LineRange
import TransportDeck.Proofs.Blocks.MessageBlock
import TransportDeck.Proofs.Blocks.Outcomes
import TransportDeck.Proofs.Blocks.Separators
import TransportDeck.Proofs.Card.BareRepeats
import TransportDeck.Proofs.Card.CellForms
import TransportDeck.Proofs.Card.CellLines
import TransportDeck.Proofs.Card.CellParameters
import TransportDeck.Proofs.Card.DataLines
import TransportDeck.Proofs.Card.Fills
import TransportDeck.Proofs.Card.GroupedTokens
import TransportDeck.Proofs.Card.InlineTransforms
import TransportDeck.Proofs.Card.Isotopes
import TransportDeck.Proofs.Card.KeywordGroups
import TransportDeck.Proofs.Card.LetterCase
import TransportDeck.Proofs.Card.Materials
import TransportDeck.Proofs.Card.Names
import TransportDeck.Proofs.Card.Params
import TransportDeck.Proofs.Card.Quoted
import TransportDeck.Proofs.Card.Regions
import TransportDeck.Proofs.Card.Settings
import TransportDeck.Proofs.Card.TallyBins
import TransportDeck.Proofs.Card.WrittenOut
import TransportDeck.Proofs.Cell.Overlay
import TransportDeck.Proofs.Checked.Analysis
import TransportDeck.Proofs.Checked.CellCards
import TransportDeck.Proofs.Checked.CrossRefs
import TransportDeck.Proofs.Checked.CycleSearch
import TransportDeck.Proofs.Checked.DataCards
import TransportDeck.Proofs.Checked.Depths
import TransportDeck.Proofs.Checked.Fills
import TransportDeck.Proofs.Checked.Geometry
import TransportDeck.Proofs.Checked.Hierarchy
import TransportDeck.Proofs.Checked.Instances
import TransportDeck.Proofs.Checked.Lines
import TransportDeck.Proofs.Checked.Numbers
import TransportDeck.Proofs.Checked.Reading
import TransportDeck.Proofs.Checked.Segments
import TransportDeck.Proofs.Checked.Steps
import TransportDeck.Proofs.Checked.SurfaceCards
import TransportDeck.Proofs.Checked.Tokens
import TransportDeck.Proofs.Checked.Universes
import TransportDeck.Proofs.CrossRefs.CellLists
import TransportDeck.Proofs.CrossRefs.CellOrder
import TransportDeck.Proofs.CrossRefs.MissingTargets
import TransportDeck.Proofs.CrossRefs.ReportsByCode
import TransportDeck.Proofs.CrossRefs.Targets
import TransportDeck.Proofs.CrossRefs.UnusedRecords
import TransportDeck.Proofs.Fill.DeclaredLength
import TransportDeck.Proofs.Fill.Positions
import TransportDeck.Proofs.FillGraph.Balance
import TransportDeck.Proofs.FillGraph.ClosedPath
import TransportDeck.Proofs.FillGraph.CycleSearch
import TransportDeck.Proofs.FillGraph.FillPath
import TransportDeck.Proofs.FillGraph.Fills
import TransportDeck.Proofs.FillGraph.FirstPath
import TransportDeck.Proofs.FillGraph.Layers
import TransportDeck.Proofs.FillGraph.PathSum
import TransportDeck.Proofs.FillGraph.Search
import TransportDeck.Proofs.FillGraph.SearchInvariant
import TransportDeck.Proofs.FillGraph.SearchRun
import TransportDeck.Proofs.FillGraph.Totals
import TransportDeck.Proofs.FillGraph.Walks
import TransportDeck.Proofs.Geometry.FillCounts
import TransportDeck.Proofs.Geometry.Lattices
import TransportDeck.Proofs.Geometry.Rotations
import TransportDeck.Proofs.Hierarchy.Cycles
import TransportDeck.Proofs.Hierarchy.Depth
import TransportDeck.Proofs.Hierarchy.IdleUniverses
import TransportDeck.Proofs.Hierarchy.Instances
import TransportDeck.Proofs.Hierarchy.Placements
import TransportDeck.Proofs.Like.CellOrder
import TransportDeck.Proofs.Like.Chain
import TransportDeck.Proofs.Like.Expand
import TransportDeck.Proofs.Like.Links
import TransportDeck.Proofs.Like.Nearest
import TransportDeck.Proofs.Like.Outcomes
import TransportDeck.Proofs.Like.Overrides
import TransportDeck.Proofs.Like.RecursionLaw
import TransportDeck.Proofs.LogicalCard.CommentCards
import TransportDeck.Proofs.LogicalCard.Content
import TransportDeck.Proofs.LogicalCard.Groups
import TransportDeck.Proofs.LogicalCard.LetterCase
import TransportDeck.Proofs.LogicalCard.LineRange
import TransportDeck.Proofs.LogicalCard.Styles
import TransportDeck.Proofs.Number.Expansion
import TransportDeck.Proofs.Number.FloatTexts
import TransportDeck.Proofs.Number.FloatTokens
import TransportDeck.Proofs.Number.ModelRounding
import TransportDeck.Proofs.Number.Nearest
import TransportDeck.Proofs.Number.Numerals
import TransportDeck.Proofs.Number.Packing
import TransportDeck.Proofs.Number.Scientific
import TransportDeck.Proofs.Number.ShorthandTokens
import TransportDeck.Proofs.Reading.Bounds
import TransportDeck.Proofs.Reading.CellCards
import TransportDeck.Proofs.Reading.CellOrder
import TransportDeck.Proofs.Reading.Conservation
import TransportDeck.Proofs.Reading.Fates
import TransportDeck.Proofs.Reading.KeepFirst
import TransportDeck.Proofs.Reading.LetterCase
import TransportDeck.Proofs.Reading.Messages
import TransportDeck.Proofs.Reading.Places
import TransportDeck.Proofs.Reading.Regions
import TransportDeck.Proofs.Reading.Reports
import TransportDeck.Proofs.Reference.InTurn
import TransportDeck.Proofs.Reference.Naming
import TransportDeck.Proofs.Table.Order
import TransportDeck.Proofs.Text.Bytes
import TransportDeck.Proofs.Text.InlineComments
import TransportDeck.Proofs.Text.LetterCase
import TransportDeck.Proofs.Text.OneLine
import TransportDeck.Proofs.Text.Stops
import TransportDeck.Proofs.Text.Tokens
import TransportDeck.Proofs.Text.Trimming
import TransportDeck.Proofs.Text.Words
import TransportDeck.Reading
import TransportDeck.Reference
import TransportDeck.Region
import TransportDeck.Report
import TransportDeck.Report.Encoding
import TransportDeck.Report.Json
import TransportDeck.Span
import TransportDeck.Surface
import TransportDeck.SurfaceKind
import TransportDeck.Table
import TransportDeck.Table.Lookup
import TransportDeck.Tally
import TransportDeck.Text.Blank
import TransportDeck.Text.Capital
import TransportDeck.Text.Line
import TransportDeck.Transform
