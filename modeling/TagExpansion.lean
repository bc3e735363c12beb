import TagExpansion.Abbreviation
import TagExpansion.Command.Expand
import TagExpansion.Command.Line
import TagExpansion.Command.Outcome
import TagExpansion.Command.Toolkit
import TagExpansion.Command.Verbosity
import TagExpansion.Config.Layer
import TagExpansion.Config.Settled
import TagExpansion.Config.Source
import TagExpansion.Diagnostic
import TagExpansion.Double
import TagExpansion.Engine.Basic
import TagExpansion.Engine.Event
import TagExpansion.Engine.Limit
import TagExpansion.Files.Path
import TagExpansion.Files.Tree
import TagExpansion.Journal
import TagExpansion.Ledger
import TagExpansion.Log
import TagExpansion.Main
import TagExpansion.Markup.Escape
import TagExpansion.Markup.Format
import TagExpansion.Markup.Paragraph
import TagExpansion.OrderedMap
import TagExpansion.Scan.Parenthesis
import TagExpansion.Scan.Piece
import TagExpansion.Tag.Builtin
import TagExpansion.Tag.Definition
import TagExpansion.Tag.Name
import TagExpansion.Tag.Registry
import TagExpansion.Template
import TagExpansion.Text.Basic
import TagExpansion.Text.Blank
import TagExpansion.Text.LetterCase
import TagExpansion.Text.Numeral
import TagExpansion.Text.Printable
import TagExpansion.Text.Quoted
import TagExpansion.Text.Utf8
import TagExpansion.Toml.Document
import TagExpansion.Toml.Item
import TagExpansion.Toml.Joining
import TagExpansion.Toml.Key
import TagExpansion.Toml.Moment
import TagExpansion.Toml.Number
import TagExpansion.Toml.Quoted
import TagExpansion.Toml.Syntax
import TagExpansion.Tools.Arguments
import TagExpansion.Tools.Page
import TagExpansion.Tools.Reader
import TagExpansion.Tools.Standard
import TagExpansion.Tools.Terminal
import TagExpansion.Value
import TagExpansion.Proofs.Parenthesis
import TagExpansion.Proofs.Registry
import TagExpansion.Proofs.Expansion
import TagExpansion.Proofs.Tiling
import TagExpansion.Proofs.Trimming
import TagExpansion.Proofs.Machine
import TagExpansion.Proofs.Nesting
import TagExpansion.Proofs.Escaping
import TagExpansion.Proofs.HtmlOutput
import TagExpansion.Proofs.Headroom
import TagExpansion.Proofs.Last
import TagExpansion.Proofs.OrderedMap
import TagExpansion.Proofs.Likeness
import TagExpansion.Proofs.Seam
import TagExpansion.Proofs.Blocks
import TagExpansion.Proofs.HtmlDocument
import TagExpansion.Proofs.Defects
import TagExpansion.Proofs.Alteration
import TagExpansion.Proofs.Shelf
import TagExpansion.Proofs.Settings
import TagExpansion.Proofs.Loading
import TagExpansion.Proofs.Precedence
import TagExpansion.Proofs.Merging
import TagExpansion.Proofs.Indifference
import TagExpansion.Proofs.Formats
import TagExpansion.Proofs.Cleaning
import TagExpansion.Proofs.Workbench
import TagExpansion.Proofs.TagCharacters
import TagExpansion.Proofs.TagRuns
import TagExpansion.Proofs.Terminal
import TagExpansion.Proofs.Success
import TagExpansion.Proofs.Delivery
import TagExpansion.Proofs.ExitStatus
import TagExpansion.Proofs.ParameterForms
import TagExpansion.Proofs.NestedTags
import TagExpansion.Proofs.Verbatim
import TagExpansion.Proofs.Baseline
import TagExpansion.Proofs.Listing
import TagExpansion.Proofs.BlankLines
import TagExpansion.Proofs.Separators
import TagExpansion.Proofs.ParagraphBreaks
import TagExpansion.Proofs.Repetition
import TagExpansion.Proofs.LetterCase
import TagExpansion.Proofs.Relevance
import TagExpansion.Proofs.Overflow
import TagExpansion.Proofs.Interleaving
import TagExpansion.Proofs.Pairs
import TagExpansion.Proofs.NameVariants
import TagExpansion.Proofs.Threshold
import TagExpansion.Proofs.InlineElements
import TagExpansion.Proofs.Unescaping
