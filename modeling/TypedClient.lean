import TypedClient.Analysis
import TypedClient.Binary64
import TypedClient.Binary64.Notation
import TypedClient.Binary64.Shortest
import TypedClient.Calendar
import TypedClient.Client
import TypedClient.Command.Footprint
import TypedClient.Command.Invocation
import TypedClient.Command.Options
import TypedClient.Command.Run
import TypedClient.Console
import TypedClient.DataDirectory
import TypedClient.Declaration
import TypedClient.Declaration.Reading
import TypedClient.Document
import TypedClient.Document.Reading
import TypedClient.Document.Reference
import TypedClient.Generation
import TypedClient.Identifier
import TypedClient.Json.Lexeme
import TypedClient.Json.Reader
import TypedClient.Json.Writer
import TypedClient.Library
import TypedClient.Loading.Decoding
import TypedClient.Loading.Document
import TypedClient.Loading.Source
import TypedClient.Loading.Version
import TypedClient.Main
import TypedClient.Mapping
import TypedClient.Markup
import TypedClient.NameSet
import TypedClient.Named
import TypedClient.Naming
import TypedClient.Path
import TypedClient.PathTemplate
import TypedClient.Pointer
import TypedClient.Problem
import TypedClient.Proofs.Analysis.Notes
import TypedClient.Proofs.Analysis.Operations
import TypedClient.Proofs.Binary64.Rounding
import TypedClient.Proofs.Binary64.Shortest
import TypedClient.Proofs.Binary64.WellFormed
import TypedClient.Proofs.Chain
import TypedClient.Proofs.Client.Assembly
import TypedClient.Proofs.Client.Draft
import TypedClient.Proofs.Client.Invariant
import TypedClient.Proofs.Client.Names
import TypedClient.Proofs.Client.Parameters
import TypedClient.Proofs.Client.Scope
import TypedClient.Proofs.Client.Types
import TypedClient.Proofs.Command.Attempt
import TypedClient.Proofs.Command.Consistency
import TypedClient.Proofs.Command.Endings
import TypedClient.Proofs.Console.Words
import TypedClient.Proofs.Document.Faults
import TypedClient.Proofs.Document.Modifiers
import TypedClient.Proofs.Document.Noting
import TypedClient.Proofs.Document.Parameters
import TypedClient.Proofs.Document.Passes
import TypedClient.Proofs.Document.References
import TypedClient.Proofs.Document.Responses
import TypedClient.Proofs.Document.Sites
import TypedClient.Proofs.FirstSeen
import TypedClient.Proofs.Generation.Capture
import TypedClient.Proofs.Generation.Closure
import TypedClient.Proofs.Generation.Discovery
import TypedClient.Proofs.Generation.Fit
import TypedClient.Proofs.Generation.Isolation
import TypedClient.Proofs.Generation.Order
import TypedClient.Proofs.Generation.Regeneration
import TypedClient.Proofs.Generation.Run
import TypedClient.Proofs.Identifier.Assignment
import TypedClient.Proofs.Identifier.Safety
import TypedClient.Proofs.Library.Chains
import TypedClient.Proofs.Library.Resolution
import TypedClient.Proofs.Library.Spelling
import TypedClient.Proofs.Library.TypeNames
import TypedClient.Proofs.Loading.Failures
import TypedClient.Proofs.Loading.Versions
import TypedClient.Proofs.Mapping.Fields
import TypedClient.Proofs.Mapping.Mentions
import TypedClient.Proofs.Mapping.Notes
import TypedClient.Proofs.Mapping.Parts
import TypedClient.Proofs.Mapping.Presentation
import TypedClient.Proofs.Mapping.Pruning
import TypedClient.Proofs.Mapping.References
import TypedClient.Proofs.Mapping.Switches
import TypedClient.Proofs.Mapping.TypeLists
import TypedClient.Proofs.Markup.Escaped
import TypedClient.Proofs.Markup.Shown
import TypedClient.Proofs.Named
import TypedClient.Proofs.Naming.Words
import TypedClient.Proofs.Outcome
import TypedClient.Proofs.PathTemplate.Marks
import TypedClient.Proofs.PathTemplate.Pieces
import TypedClient.Proofs.PathTemplate.Substitution
import TypedClient.Proofs.Pointer.Escaping
import TypedClient.Proofs.Pointer.Positions
import TypedClient.Proofs.Pointer.Verbatim
import TypedClient.Proofs.Schema.Annotations
import TypedClient.Proofs.Schema.Faults
import TypedClient.Proofs.Schema.Properties
import TypedClient.Proofs.Schema.Steps
import TypedClient.Proofs.Schema.Trails
import TypedClient.Proofs.Script.Comment
import TypedClient.Proofs.Script.Constant
import TypedClient.Proofs.Script.Expression
import TypedClient.Proofs.Script.Form
import TypedClient.Proofs.Script.Replace
import TypedClient.Proofs.Script.Token
import TypedClient.Proofs.Script.TypeReader
import TypedClient.Proofs.Script.TypeText
import TypedClient.Proofs.Script.Url
import TypedClient.Proofs.Script.Variables
import TypedClient.Proofs.Settings.Layers
import TypedClient.Proofs.Source.Layout
import TypedClient.Proofs.Source.Verbatim
import TypedClient.Proofs.Store.Delivery
import TypedClient.Proofs.Store.Files
import TypedClient.Proofs.Store.Placement
import TypedClient.Proofs.Store.Repetition
import TypedClient.Proofs.Store.Ways
import TypedClient.Proofs.Store.Writing
import TypedClient.Proofs.Text.Controls
import TypedClient.Proofs.Text.Indentation
import TypedClient.Proofs.Text.Integers
import TypedClient.Proofs.Text.Parts
import TypedClient.Proofs.Text.Returns
import TypedClient.Proofs.TypeExpr.Blank
import TypedClient.Proofs.TypeExpr.Parts
import TypedClient.Proofs.TypeLibrary.Declarations
import TypedClient.Proofs.TypeLibrary.Extension
import TypedClient.Proofs.TypeLibrary.Locations
import TypedClient.Proofs.TypeLibrary.Members
import TypedClient.Proofs.TypeLibrary.Nullability
import TypedClient.Proofs.TypeLibrary.References
import TypedClient.Schema
import TypedClient.Schema.Reading
import TypedClient.Settings
import TypedClient.Settings.Layers
import TypedClient.Settings.Reading
import TypedClient.Source.ClientText
import TypedClient.Source.Definitions
import TypedClient.Source.Files
import TypedClient.Source.Literal
import TypedClient.Source.TypeText
import TypedClient.Store
import TypedClient.Store.Writing
import TypedClient.Text.Base64
import TypedClient.Text.Blank
import TypedClient.Text.Case
import TypedClient.Text.CaseFold
import TypedClient.Text.CaseTable
import TypedClient.Text.Charset
import TypedClient.Text.Digits
import TypedClient.Text.Display
import TypedClient.Text.Encoding
import TypedClient.Text.Lines
import TypedClient.Text.Printable
import TypedClient.Text.Segments
import TypedClient.Text.Surrogate
import TypedClient.TypeExpr
import TypedClient.TypeExpr.Reading
import TypedClient.TypeLibrary
import TypedClient.Value
import TypedClient.Value.Display
import TypedClient.Value.Flag
import TypedClient.Yaml.Block
import TypedClient.Yaml.Content
import TypedClient.Yaml.Node
import TypedClient.Yaml.Numeral
import TypedClient.Yaml.Place
import TypedClient.Yaml.Plain
import TypedClient.Yaml.Property
import TypedClient.Yaml.Quoted
import TypedClient.Yaml.Tag
import TypedClient.Yaml.Timestamp
import TypedClient.Yaml.Token
