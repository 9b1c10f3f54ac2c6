import WidgetScript.Directive.Apply
import WidgetScript.Directive.Payload
import WidgetScript.Eval.Script
import WidgetScript.Event

/-! Dispatching an event runs the handler that it names, edits the declaration by the
directives that the handler gives, and reconciles once. A directive that fails is
reported and the others are still applied. -/
namespace WidgetScript

/-- The declaration after an event, the commands and errors it gave rise to, and what the
handler logged. -/
structure Dispatched where
  forest : Forest
  commands : List Command
  errors : List DispatchError
  log : List LogLine

namespace Dispatch

/-- A handler takes the event's parameters or nothing. -/
def arguments (c : Closure) (event : Event) : Except DispatchError (List Value) :=
  match c.params with
  | [] => .ok []
  | [_] => .ok [event.paramsValue]
  | params => .error (.arity c.name params.length)

def entries (handlers : Handlers) (event : Event) (maxCallDepth : Nat) :
    Except DispatchError (List Value) × List LogLine :=
  match Fields.get? handlers event.handlerName with
  | none => (.error (.unknownHandler event.handlerName), [])
  | some c =>
      match arguments c event with
      | .error e => (.error e, [])
      | .ok args =>
          match handlers.call c args maxCallDepth with
          | (.error e, log) => (.error (.handler c.name e), log)
          | (.ok payload, log) =>
              ((Payload.entries payload).mapError .malformedPayload, log)

def applyEntry (live : LiveTree) (forest : Forest) (entry : Value) :
    Except DispatchError Forest := do
  let d ← Directive.ofValue entry
  d.apply forest live

def applyEntries (live : LiveTree) (forest : Forest) :
    List Value → Forest × List DispatchError
  | [] => (forest, [])
  | entry :: rest =>
      match applyEntry live forest entry with
      | .ok forest => applyEntries live forest rest
      | .error e =>
          let (forest, errors) := applyEntries live forest rest
          (forest, e :: errors)

variable {live : LiveTree} {f f' : Forest} {entry : Value} {d : Directive} {e : DispatchError}

theorem applyEntry_of_read (read : Directive.ofValue entry = .ok d) :
    applyEntry live f entry = d.apply f live := by
  rw [applyEntry, read]
  rfl

theorem applyEntry_of_malformed (malformed : Directive.ofValue entry = .error e) :
    applyEntry live f entry = .error e := by
  rw [applyEntry, malformed]
  rfl

theorem applyEntries_of_ok (rest : List Value) (h : applyEntry live f entry = .ok f') :
    applyEntries live f (entry :: rest) = applyEntries live f' rest := by
  rw [applyEntries, h]

theorem applyEntries_of_error (rest : List Value) (h : applyEntry live f entry = .error e) :
    applyEntries live f (entry :: rest) =
      ((applyEntries live f rest).1, e :: (applyEntries live f rest).2) := by
  rw [applyEntries, h]

end Dispatch

/-- If the live tree cannot follow, the declaration stays as it was. -/
def Event.dispatch (event : Event) (handlers : Handlers) (forest : Forest) (live : LiveTree)
    (maxCallDepth : Nat) : Dispatched :=
  match Dispatch.entries handlers event maxCallDepth with
  | (.error e, log) => ⟨forest, [], [e], log⟩
  | (.ok [], log) => ⟨forest, [], [], log⟩
  | (.ok entries, log) =>
      let (edited, errors) := Dispatch.applyEntries live forest entries
      match live.reconcile edited with
      | .ok commands => ⟨edited, commands, errors, log⟩
      | .error e => ⟨forest, [], errors ++ [.reconcile e], log⟩

end WidgetScript
