import WidgetScript.Main
import WidgetScript.Proofs.Directive.Apply
import WidgetScript.Proofs.Directive.Change
import WidgetScript.Proofs.Directive.Fits
import WidgetScript.Proofs.Directive.Payload
import WidgetScript.Proofs.Directive.Widget
import WidgetScript.Proofs.Dispatch
import WidgetScript.Proofs.Equality
import WidgetScript.Proofs.Eval.Discipline
import WidgetScript.Proofs.Eval.Run
import WidgetScript.Proofs.Eval.Operators
import WidgetScript.Proofs.Eval.Sound
import WidgetScript.Proofs.Eval.Steady
import WidgetScript.Proofs.Fields
import WidgetScript.Proofs.Forest
import WidgetScript.Proofs.Forest.Swap
import WidgetScript.Proofs.Live.Apply
import WidgetScript.Proofs.Live.Destroy
import WidgetScript.Proofs.Live.Emit
import WidgetScript.Proofs.Live.InSync
import WidgetScript.Proofs.Live.Reconcile
import WidgetScript.Proofs.Live.Survey
import WidgetScript.Proofs.Live.Tree
import WidgetScript.Proofs.Outcome
import WidgetScript.Proofs.Property.Coerce
import WidgetScript.Proofs.Session.InSync
import WidgetScript.Proofs.Session.Reach
import WidgetScript.Proofs.Value
import WidgetScript.Proofs.WellFormed
import WidgetScript.Proofs.Forest.Tour
import WidgetScript.Proofs.Live.Handle
import WidgetScript.Proofs.Live.Plan
import WidgetScript.Proofs.Session.Reload
import WidgetScript.Proofs.Ast.Bare
import WidgetScript.Proofs.Ast.Spelling
import WidgetScript.Proofs.Parser.Collections
import WidgetScript.Proofs.Parser.RoundTrip
import WidgetScript.Proofs.Session.Replay
import WidgetScript.Proofs.Session.Queue
import WidgetScript.Proofs.Ast.Relocate
import WidgetScript.Proofs.Value.Relocate
import WidgetScript.Proofs.Eval.Relocate
import WidgetScript.Proofs.Parser.Grammar
import WidgetScript.Proofs.Parser.Sound
import WidgetScript.Proofs.Token.Places
import WidgetScript.Proofs.Parser.Places
import WidgetScript.Proofs.Live.Relocate
import WidgetScript.Proofs.Session.Layout
import WidgetScript.Proofs.Ast.Depth
import WidgetScript.Proofs.Parser.Depth
import WidgetScript.Proofs.Live.Mismatch
import WidgetScript.Proofs.Live.Silent
import WidgetScript.Proofs.Session.Pending
import WidgetScript.Proofs.Parser.Shown
import WidgetScript.Proofs.Token.Shown
import WidgetScript.Proofs.Eval.Restore
import WidgetScript.Proofs.Eval.Mirror
import WidgetScript.Proofs.Eval.Definitions
import WidgetScript.Proofs.Token.Alike
import WidgetScript.Proofs.Parser.Reread
import WidgetScript.Proofs.Parser.Balanced
import WidgetScript.Proofs.Parser.Embedded
import WidgetScript.Proofs.Parser.Matched
import WidgetScript.Proofs.Parser.Bracketed
import WidgetScript.Proofs.Parser.Breaks
import WidgetScript.Proofs.Directive.InPlace
import WidgetScript.Proofs.Parser.Reflow
import WidgetScript.Proofs.Session.Failing
import WidgetScript.Proofs.Directive.Effect
import WidgetScript.Proofs.Property.Canonical
import WidgetScript.Proofs.Property.Polyline
import WidgetScript.Proofs.Directive.ReadBack
import WidgetScript.Proofs.Forest.Addition
import WidgetScript.Proofs.Directive.Commute
import WidgetScript.Proofs.Parser.Distinct
import WidgetScript.Proofs.Token.Quoted
import WidgetScript.Proofs.Token.Shift
import WidgetScript.Proofs.Token.Origin
import WidgetScript.Proofs.Eval.Crafted
import WidgetScript.Proofs.Forest.Relocate
import WidgetScript.Proofs.Directive.Described
import WidgetScript.Proofs.Forest.Removal
import WidgetScript.Proofs.Reload.Debounce
import WidgetScript.Proofs.Eval.Stages
import WidgetScript.Proofs.Eval.Levels
import WidgetScript.Proofs.Token.Row
import WidgetScript.Proofs.Forest.Repetition
import WidgetScript.Proofs.Eval.Unique
