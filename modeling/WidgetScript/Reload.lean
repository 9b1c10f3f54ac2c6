import WidgetScript.Directive.Fault
import WidgetScript.Token.Fault

/-! A reload runs a script anew. It goes through reading, parsing, evaluating and
reconciling, and fails at the first of these that fails. -/
namespace WidgetScript

inductive ReloadError where
  | read (path reason : String)
  | parse (error : SyntaxError)
  | evaluate (error : SemanticError)
  | reconcile (error : ReconcileError)

def ReloadError.message : ReloadError → String
  | .read path reason => "failed to read " ++ path ++ ": " ++ reason
  | .parse error => error.message
  | .evaluate error => "semantic error at " ++ error.message
  | .reconcile error => "reconcile error: " ++ error.message

inductive Report where
  | reload (error : ReloadError)
  | dispatch (error : DispatchError)

namespace Report

def stage : Report → String
  | .reload _ => "reload"
  | .dispatch _ => "dispatch"

def message : Report → String
  | .reload error => "reload failed: " ++ error.message
  | .dispatch error => "dispatch failed: " ++ error.message

def json (r : Report) : Json :=
  .object [("op", .string "error"), ("stage", .string r.stage), ("message", .string r.message)]

end Report
end WidgetScript
