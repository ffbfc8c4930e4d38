import SchemaForge.Command.Run
import SchemaForge.Dialect
import SchemaForge.Expression.Render
import SchemaForge.Files.Delivery
import SchemaForge.Json.Notation
import SchemaForge.Json.Reader
import SchemaForge.Main
import SchemaForge.Module.Assembly
import SchemaForge.Module.Exports
import SchemaForge.Module.Types
import SchemaForge.Number.Notation
import SchemaForge.Proofs.Command.Options
import SchemaForge.Proofs.Command.Run
import SchemaForge.Proofs.Command.Session
import SchemaForge.Proofs.Expression.Acceptance
import SchemaForge.Proofs.Expression.Indentation
import SchemaForge.Proofs.Expression.Injectivity
import SchemaForge.Proofs.Expression.Keys
import SchemaForge.Proofs.Expression.Layout
import SchemaForge.Proofs.Expression.Legibility
import SchemaForge.Proofs.Expression.Likeness
import SchemaForge.Proofs.Expression.Lines
import SchemaForge.Proofs.Expression.Outline
import SchemaForge.Proofs.Expression.Parts
import SchemaForge.Proofs.Expression.Precedence
import SchemaForge.Proofs.Expression.Printing
import SchemaForge.Proofs.Expression.Tree
import SchemaForge.Proofs.Expression.Warnings
import SchemaForge.Proofs.Files.Delivery
import SchemaForge.Proofs.Files.Tree
import SchemaForge.Proofs.Module.Agreement
import SchemaForge.Proofs.Module.Controls
import SchemaForge.Proofs.Module.Generation
import SchemaForge.Proofs.Module.Injectivity
import SchemaForge.Proofs.Number.Notation
import SchemaForge.Proofs.Script.Definition
import SchemaForge.Proofs.Script.Lexing
import SchemaForge.Proofs.Script.Literal
import SchemaForge.Proofs.Script.Readability
import SchemaForge.Proofs.Script.Regex
import SchemaForge.Proofs.Script.Scalar
import SchemaForge.Proofs.Script.Term
import SchemaForge.Proofs.Shape.Description
import SchemaForge.Proofs.Shape.Failure
import SchemaForge.Proofs.Shape.Texts
import SchemaForge.Proofs.Shape.Walk
import SchemaForge.Script.Definition
import SchemaForge.Script.Regex
import SchemaForge.Script.Scalar
import SchemaForge.Settings
import SchemaForge.Shape.Enumeration
import SchemaForge.Shape.Equality
import SchemaForge.Shape.OfSchema
import SchemaForge.Text.Newlines
import SchemaForge.Text.Search
import SchemaForge.Unsupported
import SchemaForge.Proofs.Expression.Definitional
import SchemaForge.Proofs.Script.Operators
import SchemaForge.Proofs.Script.Passes
import SchemaForge.Proofs.Script.Pattern
import SchemaForge.Proofs.Script.Denoting
import SchemaForge.Proofs.Expression.Enumeration
import SchemaForge.Proofs.Expression.Overlap
import SchemaForge.Proofs.Shape.Keywords
import SchemaForge.Proofs.Shape.Spelling
import SchemaForge.Proofs.Shape.Position
import SchemaForge.Proofs.Expression.Blame
import SchemaForge.Proofs.Files.Independence
import SchemaForge.Proofs.Json.RoundTrip
import SchemaForge.Proofs.Expression.Renumbering
import SchemaForge.Proofs.Shape.Rejection
import SchemaForge.Proofs.Module.Imports
import SchemaForge.Proofs.Dialect.Lookup
import SchemaForge.Proofs.Expression.Quotation
