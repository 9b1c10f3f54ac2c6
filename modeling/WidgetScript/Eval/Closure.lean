import WidgetScript.Value
import WidgetScript.Ast
import WidgetScript.Text.Diagnostic

/-! Functions that a script defines. A function keeps the variables as they were where
it was defined; the functions that it calls are looked up by name when it runs, so it may
call one that is defined after it. -/
namespace WidgetScript

structure Closure where
  name : String
  params : List String
  body : List Stmt
  captured : Fields Value
  pos : Position

abbrev Handlers := Fields Closure

namespace Handlers

/-- A later definition replaces an earlier one of its name, with a warning. -/
def define (handlers : Handlers) (c : Closure) : Handlers × List LogLine :=
  let warnings := match Fields.get? handlers c.name with
    | some earlier => [⟨.warn, "`def " ++ c.name ++ "` at " ++ c.pos.text
        ++ " replaces the definition at " ++ earlier.pos.text⟩]
    | none => []
  (Fields.insert c.name c handlers, warnings)

end Handlers
end WidgetScript
