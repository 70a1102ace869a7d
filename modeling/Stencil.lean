import Stencil.Main
import Stencil.Proofs.Building
import Stencil.Template.Same
import Stencil.Proofs.Nesting.Basic
import Stencil.Proofs.Nesting.Acceptance
import Stencil.Proofs.Expr.Acceptance
import Stencil.Proofs.Expr.Printing
import Stencil.Proofs.Expr.PrintedPhrases
import Stencil.Proofs.Expr.RoundTrip
import Stencil.Proofs.Source.Writing
import Stencil.Proofs.Source.Characters
import Stencil.Proofs.Source.Tags
import Stencil.Proofs.Source.Reading
import Stencil.Proofs.Source.Printed
import Stencil.Proofs.Source.Directives
import Stencil.Proofs.Source.Running
import Stencil.Proofs.Source.RoundTrip
import Stencil.Proofs.Building.Moves
import Stencil.Proofs.Building.Calls
import Stencil.Proofs.Building.Reached
import Stencil.Proofs.Nesting.Spans
import Stencil.Proofs.Building.AttributeValues
import Stencil.Proofs.Building.OpenElements
import Stencil.Proofs.Tree.Nodes
import Stencil.Proofs.Tree.Stacks
import Stencil.Proofs.Tree.Pointers
import Stencil.Proofs.Tree.Formed
import Stencil.Proofs.Building.OpenNodes
import Stencil.Proofs.Building.Ending
import Stencil.Proofs.Tree.Expressions
import Stencil.Proofs.Source.Expressions
import Stencil.Proofs.Source.OpenText
import Stencil.Proofs.Source.Minified
import Stencil.Proofs.Source.Escaping
import Stencil.Proofs.Settings.Cache
import Stencil.Proofs.Dump.Expressions
import Stencil.Proofs.Dump.Recovery
import Stencil.Proofs.Dump.Templates
import Stencil.Proofs.Tree.Changed
import Stencil.Proofs.Building.Changed
import Stencil.Proofs.Views
import Stencil.Proofs.Session
import Stencil.Proofs.Command.Order
import Stencil.Proofs.Expr.Subexpressions
import Stencil.Proofs.Braces
import Stencil.Proofs.Braces.Balance
import Stencil.Proofs.Expr.Braces
import Stencil.Proofs.Span
import Stencil.Proofs.Registry
import Stencil.Proofs.Json
import Stencil.Proofs.Command.Parse
import Stencil.Proofs.Expr.Lexicon
import Stencil.Proofs.Expr.Lockstep
import Stencil.Proofs.Expr.Gaps
import Stencil.Proofs.Expr.Descent
import Stencil.Proofs.Expr.Stopping
import Stencil.Proofs.Expr.Failures
import Stencil.Proofs.Directive.Headers
import Stencil.Proofs.Directive.Values
import Stencil.Proofs.Text.Blank
import Stencil.Proofs.Text.Camel
import Stencil.Proofs.Span.Joining
import Stencil.Proofs.Tree.Made
import Stencil.Proofs.Building.Forms
import Stencil.Proofs.Expr.Objects
import Stencil.Proofs.Views.Children
import Stencil.Proofs.Views.Arrays
import Stencil.Proofs.Views.Members
import Stencil.Proofs.Views.Keys
import Stencil.Proofs.Views.Asking
import Stencil.Proofs.Views.Resolution
import Stencil.Proofs.Views.References
import Stencil.Proofs.Text.Ink
import Stencil.Proofs.Text.Collapse
import Stencil.Proofs.Markup.Recognisers
import Stencil.Proofs.Markup.Regions
import Stencil.Proofs.Markup.Parts
import Stencil.Proofs.Markup.Thinning
import Stencil.Proofs.Markup.Pieces
import Stencil.Proofs.Markup.Softened
import Stencil.Proofs.Markup.Minified
import Stencil.Proofs.Value.Distinct
import Stencil.Proofs.Settings.Layered
import Stencil.Proofs.Settings.Runtime
import Stencil.Proofs.Settings.Environment
import Stencil.Proofs.Observers
import Stencil.Proofs.Files
import Stencil.Proofs.Log.Seats
import Stencil.Proofs.Log.Rotation
