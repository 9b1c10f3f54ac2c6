import Mathlib
import WidgetScript.Proofs.Live.Plan
import WidgetScript.Proofs.Session.Reach

/-! A reload happens as a whole or not at all. Whichever stage fails, the session keeps what it
has, and a renderer is told of the failure and nothing else. If no stage fails, functions and
declaration are those of the new source alone, and the live tree follows by the commands that
the renderer gets. -/
namespace WidgetScript.Session
open LiveTree

/-- The source fails at a stage, and all stages before it succeed. -/
inductive Fails (s : Session) (source : String) : ReloadError → Prop where
  | parse {e : SyntaxError} : Script.parse source = .error e → Fails s source (.parse e)
  | evaluate {script : Script} {e : SemanticError} :
      Script.parse source = .ok script → (script.evaluate s.maxCallDepth).1 = .error e →
      Fails s source (.evaluate e)
  | reconcile {script : Script} {ev : Evaluation} {e : ReconcileError} :
      Script.parse source = .ok script → (script.evaluate s.maxCallDepth).1 = .ok ev →
      s.live.reconcile ev.forest = .error e → Fails s source (.reconcile e)

/-- Only the status has changed since `s`, and only the failure is sent. -/
structure Refused (s : Session) (e : ReloadError) (s' : Session) (sent : Emission) : Prop where
  handlers : s'.handlers = s.handlers
  forest : s'.forest = s.forest
  live : s'.live = s.live
  commands : sent.commands = []
  reports : sent.reports = [.reload e]
  phase : s'.status.phase = .failed
  lastError : s'.status.lastError = some e
  completed : s'.status.completed = s.status.completed + 1

/-- All is as the evaluated script has it, and what is sent are the `n` commands that have led
the live tree there. -/
structure TakenOver (s : Session) (ev : Evaluation) (n : Nat) (s' : Session) (sent : Emission) :
    Prop where
  handlers : s'.handlers = ev.handlers
  forest : s'.forest = ev.forest
  live : Runs s.live sent.commands s'.live
  count : sent.commands.length = n
  reports : sent.reports = []
  phase : s'.status.phase = .idle
  lastError : s'.status.lastError = none
  completed : s'.status.completed = s.status.completed + 1

variable {s : Session} {source : String} {now : Nat} {admits : Event → Prop}
  {ev : Evaluation} {cmds : List Command} {log : List LogLine} {e : ReloadError}

theorem load_eq_error (h : s.load source = (.error e, log)) : s.Fails source e := by
  unfold load at h
  split at h
  next e' parsed =>
    cases h
    exact .parse parsed
  next script parsed =>
    split at h
    next e' log' evaluated =>
      cases h
      exact .evaluate parsed (by rw [evaluated])
    next ev' log' evaluated =>
      split at h
      next e' reconciled =>
        cases h
        exact .reconcile parsed (by rw [evaluated]) reconciled
      next => exact nomatch h

theorem refused_of_load (h : s.load source = (.error e, log)) :
    s.Refused e (s.reload source now).1 (s.reload source now).2 := by
  unfold reload
  rw [h]
  exact ⟨rfl, rfl, rfl, rfl, rfl, rfl, rfl, rfl⟩

theorem takenOver_of_load (linked : s.Linked) (h : s.load source = (.ok (ev, cmds), log)) :
    s.TakenOver ev cmds.length (s.reload source now).1 (s.reload source now).2 := by
  obtain ⟨script, _, evaluated, reconciled⟩ := load_eq_ok h
  obtain ⟨_, _, _, _, distinct⟩ := Script.evaluate_eq_ok evaluated
  obtain ⟨_, t, _, run, _⟩ := Reconcile.reconcile_runs linked.wellFormed distinct reconciled
  unfold reload
  rw [h]
  dsimp only
  rw [run.applyAll_eq]
  exact ⟨rfl, rfl, run, rfl, rfl, rfl, rfl, rfl⟩

/-- Either the reload is refused for what fails in it, or the new script is taken over. -/
theorem reload_all_or_nothing (h : s.Reachable admits) (source : String) (now : Nat) :
    (∀ e, s.answer source = .error e → s.Fails source e ∧
      s.Refused e (s.reload source now).1 (s.reload source now).2) ∧
    (∀ n, s.answer source = .ok n → ∃ script ev, Script.parse source = .ok script ∧
      (script.evaluate s.maxCallDepth).1 = .ok ev ∧
      s.TakenOver ev n (s.reload source now).1 (s.reload source now).2) := by
  unfold answer
  cases loaded : s.load source with
  | mk result log =>
    cases result with
    | error e =>
      refine ⟨fun e' he => ?_, fun n hn => (nomatch hn)⟩
      cases he
      exact ⟨load_eq_error loaded, refused_of_load loaded⟩
    | ok pass =>
      obtain ⟨ev, cmds⟩ := pass
      refine ⟨fun e he => (nomatch he), fun n hn => ?_⟩
      cases hn
      obtain ⟨script, parsed, evaluated, _⟩ := load_eq_ok loaded
      exact ⟨script, ev, parsed, evaluated, takenOver_of_load h.linked loaded⟩

/-- A first script is taken over with one command, and one that breaks off is then refused. -/
theorem reload_all_or_nothing_twice :
    let s := start 64 0
    let first := s.reload "window(id: \"main\")" 1
    let second := first.1.reload "window(" 2
    (s.answer "window(id: \"main\")" = .ok 1 ∧ ∃ ev, s.TakenOver ev 1 first.1 first.2) ∧
      ∃ e, first.1.answer "window(" = .error e ∧ first.1.Refused e second.1 second.2 := by
  have broken : ∃ e, Script.parse "window(" = .error e := by
    refine ⟨?_, ?_⟩
    rotate_left
    · cbv
      rfl
  obtain ⟨e, broken⟩ := broken
  have one : (start 64 0).answer "window(id: \"main\")" = .ok 1 := by cbv
  intro s first second
  have reached : s.Reachable fun _ => True := .start _ _
  have fails : first.1.answer "window(" = .error (.parse e) := by
    unfold answer load
    rw [broken]
    rfl
  obtain ⟨_, ev, _, _, taken⟩ := (reload_all_or_nothing reached "window(id: \"main\")" 1).2 1 one
  obtain ⟨_, refused⟩ := (reload_all_or_nothing (reached.reload _ 1) "window(" 2).1 _ fails
  exact ⟨⟨one, ev, taken⟩, _, fails, refused⟩

end WidgetScript.Session
