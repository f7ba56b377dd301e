import DocAtlas.Arguments
import DocAtlas.Atlas.Basic
import DocAtlas.Atlas.Coverage
import DocAtlas.Atlas.Link
import DocAtlas.Atlas.Review
import DocAtlas.Build
import DocAtlas.Command
import DocAtlas.Comment.Basic
import DocAtlas.Comment.Block
import DocAtlas.Element.Basic
import DocAtlas.Element.Field
import DocAtlas.Element.Forest
import DocAtlas.Element.Input
import DocAtlas.Element.Numbering
import DocAtlas.Element.Slug
import DocAtlas.Entry
import DocAtlas.FileSystem
import DocAtlas.Identity
import DocAtlas.Json.Datum
import DocAtlas.Json.Reader
import DocAtlas.Json.Record
import DocAtlas.Json.Value
import DocAtlas.Json.Writer
import DocAtlas.Keyed
import DocAtlas.Main
import DocAtlas.Name
import DocAtlas.Number.Binary
import DocAtlas.Number.Decimal
import DocAtlas.Number.Timestamp
import DocAtlas.Options.Basic
import DocAtlas.Options.Check
import DocAtlas.Options.Load
import DocAtlas.Options.Record
import DocAtlas.Page.Html
import DocAtlas.Page.Markdown
import DocAtlas.Page.Settings
import DocAtlas.Path
import DocAtlas.Proofs.Atlas.Declarations
import DocAtlas.Proofs.Atlas.LostReferences
import DocAtlas.Proofs.Atlas.Members
import DocAtlas.Proofs.Atlas.Mirror
import DocAtlas.Proofs.Atlas.Parents
import DocAtlas.Proofs.Atlas.References
import DocAtlas.Proofs.Atlas.Reordering
import DocAtlas.Proofs.Atlas.Sessions
import DocAtlas.Proofs.Atlas.SimplePath
import DocAtlas.Proofs.Command.Delivery
import DocAtlas.Proofs.Command.Outcomes
import DocAtlas.Proofs.Comment.RoundTrip
import DocAtlas.Proofs.Comment.Values
import DocAtlas.Proofs.Element.DomIds
import DocAtlas.Proofs.Element.Growth
import DocAtlas.Proofs.Element.Layout
import DocAtlas.Proofs.Element.Navigation
import DocAtlas.Proofs.Element.Nesting
import DocAtlas.Proofs.Element.Outline
import DocAtlas.Proofs.Element.Panels
import DocAtlas.Proofs.Element.Slugs
import DocAtlas.Proofs.FileSystem.Changes
import DocAtlas.Proofs.FirstOccurrences
import DocAtlas.Proofs.Identity.Forest
import DocAtlas.Proofs.Identity.Link
import DocAtlas.Proofs.Identity.Pages
import DocAtlas.Proofs.Identity.Renaming
import DocAtlas.Proofs.Json.Records
import DocAtlas.Proofs.Json.Strings
import DocAtlas.Proofs.Json.Values
import DocAtlas.Proofs.Page.Chapters
import DocAtlas.Proofs.Page.Escape
import DocAtlas.Proofs.Page.Markup
import DocAtlas.Proofs.Page.ReadBack
import DocAtlas.Proofs.Page.Rendering
import DocAtlas.Proofs.Page.SharedEntries
import DocAtlas.Proofs.Page.Traversal
import DocAtlas.Proofs.Registry
import DocAtlas.Proofs.Tag.Line
import DocAtlas.Proofs.Tag.Table
import DocAtlas.Proofs.Text.Pieces
import DocAtlas.Proofs.Text.Trim
import DocAtlas.Registry
import DocAtlas.Route
import DocAtlas.Scan
import DocAtlas.Tag.Line
import DocAtlas.Tag.Requirement
import DocAtlas.Tag.Table
import DocAtlas.Tag.Value
import DocAtlas.Text.Blank
import DocAtlas.Text.Decode
import DocAtlas.Text.Digit
import DocAtlas.Text.Loose
import DocAtlas.Text.Lowercase
import DocAtlas.Text.Range
import DocAtlas.Text.Search
import DocAtlas.Text.Word
import DocAtlas.Tree
import DocAtlas.Proofs.Comment.Grammar
import DocAtlas.Proofs.Comment.Blocks
import DocAtlas.Proofs.Comment.Closing
import DocAtlas.Proofs.Tag.Value
import DocAtlas.Proofs.Tag.Tokens
import DocAtlas.Proofs.Comment.Layout
import DocAtlas.Proofs.Atlas.Appending
import DocAtlas.Proofs.Atlas.Connecting
import DocAtlas.Proofs.Element.Completion
import DocAtlas.Proofs.Atlas.Notices
import DocAtlas.Proofs.Page.MissingAttributes
import DocAtlas.Proofs.Page.Rows
import DocAtlas.Proofs.Page.Roots
import DocAtlas.Proofs.FileSystem.Files
import DocAtlas.Proofs.FileSystem.Scanning
import DocAtlas.Proofs.Json.Members
import DocAtlas.Proofs.Json.Objects
import DocAtlas.Proofs.Options.Checks
import DocAtlas.Proofs.Options.Records
import DocAtlas.Proofs.Options.Loading
import DocAtlas.Proofs.Element.SlugSearch
import DocAtlas.Proofs.Options.FixedPoint
import DocAtlas.Proofs.FileSystem.Writing
import DocAtlas.Proofs.Command.Documents
import DocAtlas.Proofs.Tag.Requirement
import DocAtlas.Proofs.Page.Requirements
