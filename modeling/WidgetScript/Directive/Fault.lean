import WidgetScript.Directive
import WidgetScript.Eval.Fault
import WidgetScript.Live.Reconcile
import WidgetScript.Text.Diagnostic

/-! Why an event, or a part of what its handler asks for, comes to nothing. -/
namespace WidgetScript

inductive PayloadFault where
  | invalidJson
  | updatesNotList (got : String)
  | noUpdates
  | unexpected (got : String)
  | notMap (got : String)
  | targetNotString
  | noTarget
  | actionNotString
  | noAction (target : String)
deriving DecidableEq, Repr

def PayloadFault.message : PayloadFault → String
  | .invalidJson => "invalid JSON"
  | .updatesNotList got => "`updates` must be a list, got " ++ got
  | .noUpdates => "expected an `updates` list"
  | .unexpected got => "expected a map, a list, or nil, got " ++ got
  | .notMap got => "directive must be a map, got " ++ got
  | .targetNotString => "`target_id` must be a string"
  | .noTarget => "directive has no `target_id`"
  | .actionNotString => "`action` must be a string"
  | .noAction target => "directive for `" ++ target ++ "` has no `action`"

inductive ValueFault where
  | expectedImage (got : String)
  | expectedBool (got : String)
  | expectedStyle (got : String)
  | expectedName
  | expectedNameAndValue (got : String)
  | expectedTwoNumbers
  | expectedNumeric (first second : String)
  | expectedPair (first second got : String)
  | idFixed
  | misfit (key : String) (reason : Misfit)
  | expectedChildId
  | notAChild (id : String)
  | noChildrenAllowed
  | windowPlacement
  | replacementId (id : String)
  | kindTaken (id : String) (live declared : Kind)
  | tooDeep (limit : Nat)
  | expectedWidget (got : String)
  | unknownKind (name : String)
  | missingId
  | childrenNotList (got : String)
  | leafWithChildren (kind : Kind)

def ValueFault.message : ValueFault → String
  | .expectedImage got => "expected an image path, got " ++ got
  | .expectedBool got => "expected true or false, got " ++ got
  | .expectedStyle got => "expected a map of properties, got " ++ got
  | .expectedName => "expected `name`"
  | .expectedNameAndValue got => "expected \x7bname:, value:\x7d, got " ++ got
  | .expectedTwoNumbers => "expected two numbers"
  | .expectedNumeric first second => "expected numeric `" ++ first ++ "` and `" ++ second ++ "`"
  | .expectedPair first second got =>
      "expected [" ++ first ++ ", " ++ second ++ "], got " ++ got
  | .idFixed => "`id` cannot be changed"
  | .misfit key reason => "`" ++ key ++ "`: " ++ reason.message
  | .expectedChildId => "expected the child id"
  | .notAChild id => "`" ++ id ++ "` is not a child"
  | .noChildrenAllowed => "target cannot have children"
  | .windowPlacement => "windows can only be top-level"
  | .replacementId id => "replacement has id `" ++ id ++ "`"
  | .kindTaken id live declared =>
      "`" ++ id ++ "` is a " ++ live.name ++ ", not a " ++ declared.name
  | .tooDeep limit => "widgets would nest deeper than " ++ toString limit ++ " levels"
  | .expectedWidget got => "expected a widget, got " ++ got
  | .unknownKind name => "unknown widget kind " ++ Text.quote name
  | .missingId => "widget needs a non-empty string `id`"
  | .childrenNotList got => "`children` must be a list, got " ++ got
  | .leafWithChildren kind => "`" ++ kind.name ++ "` cannot have children"

inductive DispatchError where
  | malformedEvent
  | unknownHandler (name : String)
  | arity (name : String) (params : Nat)
  | handler (name : String) (error : SemanticError)
  | malformedPayload (fault : PayloadFault)
  | unknownTarget (id : String) (action : Action)
  | unknownAction (id : String) (action : String)
  | badValue (id : String) (action : Action) (fault : ValueFault)
  | duplicateId (id : String) (action : Action)
  | reconcile (error : ReconcileError)

def DispatchError.message : DispatchError → String
  | .malformedEvent => "malformed event"
  | .unknownHandler name => "no handler named `" ++ name ++ "`"
  | .arity name params => "handler `" ++ name ++ "` takes " ++ toString params
      ++ " parameters; at most one (the event params) is supported"
  | .handler name error => "handler `" ++ name ++ "` failed: " ++ error.message
  | .malformedPayload fault => "malformed update payload: " ++ fault.message
  | .unknownTarget id action =>
      "update `" ++ action.name ++ "` targets unknown widget `" ++ id ++ "`"
  | .unknownAction id action => "unknown update action `" ++ action ++ "` for `" ++ id ++ "`"
  | .badValue id action fault =>
      "bad value for `" ++ action.name ++ "` on `" ++ id ++ "`: " ++ fault.message
  | .duplicateId id action => "`" ++ action.name ++ "` would duplicate widget id `" ++ id ++ "`"
  | .reconcile error => "reconcile error: " ++ error.message

end WidgetScript
