import WidgetScript.Ast.Parser
import WidgetScript.Dispatch
import WidgetScript.Reload.Status
import WidgetScript.Session.Queue

/-! A session holds the functions and the declaration of the last good script and the live
tree that follows it. A request either succeeds as a whole pass or, if it is a reload that
fails, changes nothing but the status. -/
namespace WidgetScript

structure Session where
  handlers : Handlers
  forest : Forest
  live : LiveTree
  status : Status
  maxCallDepth : Nat

/-- What a request sends out: the commands for a renderer, already applied to the live
tree, then the failures, and the lines for the log. -/
structure Emission where
  commands : List Command
  reports : List Report
  log : List LogLine

namespace Emission

def lines (e : Emission) : List String :=
  (e.commands.map Command.json ++ e.reports.map Report.json).map Json.render

end Emission

namespace Session

def start (maxCallDepth : Nat) (now : Nat) : Session :=
  ⟨[], .empty, .empty, .start now, maxCallDepth⟩

def load (s : Session) (source : String) :
    Except ReloadError (Evaluation × List Command) × List LogLine :=
  match Script.parse source with
  | .error e => (.error (.parse e), [])
  | .ok script =>
      match script.evaluate s.maxCallDepth with
      | (.error e, log) => (.error (.evaluate e), log)
      | (.ok evaluation, log) =>
          match s.live.reconcile evaluation.forest with
          | .error e => (.error (.reconcile e), log)
          | .ok commands => (.ok (evaluation, commands), log)

def answer (s : Session) (source : String) : Except ReloadError Nat :=
  (s.load source).1.map fun (_, commands) => commands.length

/-- On failure the functions, the declaration and the live tree stay as they are. -/
def reload (s : Session) (source : String) (now : Nat) : Session × Emission :=
  let status := s.status.begin now
  match s.load source with
  | (.ok (evaluation, commands), log) =>
      let (live, warnings) := s.live.applyAll commands
      ({ s with handlers := evaluation.handlers, forest := evaluation.forest, live,
                status := status.succeed now },
        ⟨commands, [], log ++ warnings⟩)
  | (.error e, log) => ({ s with status := status.fail e now }, ⟨[], [.reload e], log⟩)

def dispatch (s : Session) (event : Event) : Session × Emission :=
  let d := event.dispatch s.handlers s.forest s.live s.maxCallDepth
  let (live, warnings) := s.live.applyAll d.commands
  ({ s with forest := d.forest, live }, ⟨d.commands, d.errors.map .dispatch, d.log ++ warnings⟩)

def handle? (s : Session) (request : Request) (now : Nat) : Option (Session × Emission) :=
  match request with
  | .reload source => some (s.reload source now)
  | .dispatch event => some (s.dispatch event)
  | .shutdown => none

/-- Handles what it pops from the queue, up to a shutdown or until nothing waits. -/
def drain (s : Session) (now : Nat) (q : Queue) : Session × Queue × List Emission :=
  match _ : q.pop? with
  | none => (s, q, [])
  | some (r, rest) =>
      match s.handle? r now with
      | none => (s, rest, [])
      | some (s, e) =>
          let (s, q, es) := s.drain now rest
          (s, q, e :: es)
termination_by q.size
decreasing_by exact Queue.size_lt_of_pop? ‹_›

/-- What comes of a queue in which these requests wait. -/
def run (s : Session) (now : Nat) (waiting : List Request) : Session × List Emission :=
  let (s, _, es) := s.drain now ⟨waiting, false⟩
  (s, es)

end Session
end WidgetScript
