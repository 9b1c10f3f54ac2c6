import Mathlib
import WidgetScript.Proofs.Ast.Relocate
import WidgetScript.Proofs.Eval.Relocate
import WidgetScript.Proofs.Live.Relocate
import WidgetScript.Proofs.Parser.Places
import WidgetScript.Proofs.Session.InSync

/-! The layout of a source shows nowhere but in places. Two sources that spell one script come to
the same, and once the one is loaded there is nothing to do for the other. -/
namespace WidgetScript

theorem Script.outcome_eq_ok {script : Script} {depth : Nat} {bare : Evaluation} :
    script.outcome depth = .ok bare ↔
      ∃ ev, (script.evaluate depth).1 = .ok ev ∧ ev.bare = bare := by
  rw [outcome, mapError_eq_ok, map_eq_ok]

theorem Script.outcome_congr {first second : String} {a b : Script} (ha : parse first = .ok a)
    (hb : parse second = .ok b) (same : a.bare = b.bare) (depth : Nat) :
    a.outcome depth = b.outcome depth := by
  obtain ⟨f, inj, rfl⟩ := exists_relocate same (places_nodup ha) (places_nodup hb)
  exact (outcome_relocate inj a depth).symm

namespace Session
variable {s : Session} {first : String} {n : Nat}

theorem load_ok (s : Session) {source : String} {script : Script} {ev : Evaluation}
    {cmds : List Command} (parsed : Script.parse source = .ok script)
    (evaluated : (script.evaluate s.maxCallDepth).1 = .ok ev)
    (reconciled : s.live.reconcile ev.forest = .ok cmds) :
    ∃ log, s.load source = (.ok (ev, cmds), log) := by
  unfold load
  rw [parsed]
  dsimp only
  generalize script.evaluate s.maxCallDepth = outcome at evaluated ⊢
  obtain ⟨result, log⟩ := outcome
  cases evaluated
  dsimp only
  rw [reconciled]
  exact ⟨log, rfl⟩

theorem Linked.reload_answered (linked : s.Linked) (h : s.answer first = .ok n) (now : Nat) :
    ∃ script ev, Script.parse first = .ok script ∧ (script.evaluate s.maxCallDepth).1 = .ok ev ∧
      (s.reload first now).1.maxCallDepth = s.maxCallDepth ∧
      (s.reload first now).1.live.reconcile ev.forest = .ok [] := by
  obtain ⟨⟨ev, cmds⟩, loaded, -⟩ := map_eq_ok.1 h
  have loaded : s.load first = (.ok (ev, cmds), (s.load first).2) := by rw [← loaded]
  obtain ⟨script, parsed, evaluated, reconciled⟩ := load_eq_ok loaded
  obtain ⟨distinct, regular, -⟩ := Script.evaluate_regular evaluated
  obtain ⟨wellFormed, mirrors, carries⟩ := linked.wellFormed.applyAll_mirrors distinct reconciled
  refine ⟨script, ev, parsed, evaluated, ?_⟩
  unfold Session.reload
  rw [loaded]
  exact ⟨rfl, LiveTree.InSync.reconcile_eq_nil ⟨wellFormed, mirrors, carries.holds regular⟩⟩

/-- Two sources that differ in layout fail alike or give the same functions and the same
declaration, and a reload of the one after the other takes no commands and sends nothing. -/
theorem layout_never_shows {admits : Event → Prop} {second : String} {a b : Script}
    (ha : Script.parse first = .ok a) (hb : Script.parse second = .ok b) (same : a.bare = b.bare) :
    (∀ maxCallDepth, a.outcome maxCallDepth = b.outcome maxCallDepth) ∧
      ∀ s : Session, s.Reachable admits → ∀ n now later, s.answer first = .ok n →
        (s.reload first now).1.answer second = .ok 0 ∧
          ((s.reload first now).1.reload second later).2.commands = [] ∧
          ((s.reload first now).1.reload second later).2.reports = [] := by
  refine ⟨Script.outcome_congr ha hb same, fun s reached n now later answered => ?_⟩
  obtain ⟨script, ev, parsed, evaluated, depth, settled⟩ :=
    reached.linked.reload_answered answered now
  cases ha.symm.trans parsed
  have outcome := Script.outcome_congr ha hb same s.maxCallDepth
  rw [Script.outcome_eq_ok.2 ⟨ev, evaluated, rfl⟩] at outcome
  obtain ⟨ev', evaluated', bare⟩ := Script.outcome_eq_ok.1 outcome.symm
  have roots : ev'.forest.roots.map Widget.bare = ev.forest.roots.map Widget.bare :=
    congrArg (·.forest.roots) bare
  generalize (s.reload first now).1 = s' at depth settled ⊢
  rw [← depth] at evaluated'
  rw [← s'.live.reconcile_congr roots] at settled
  obtain ⟨log, loaded⟩ := s'.load_ok hb evaluated' settled
  unfold answer reload
  rw [loaded]
  exact ⟨rfl, rfl, rfl⟩

set_option maxRecDepth 2000 in
/-- Here the second source has blank lines, a line break in the call and a comment. -/
theorem layout_never_shows_window :
    let first := "window(id: \"main\")"
    let second := "\n\nwindow(\n  id: \"main\")  # the same"
    let s := ((start 64 0).reload first 1).1
    s.answer second = .ok 0 ∧ (s.reload second 2).2.commands = [] ∧
      (s.reload second 2).2.reports = [] := by
  intro first second s
  let script (call key value : Position) : Script :=
    ⟨[.expr (.call "window" [] [.mk "id" (.literal (.str "main") value) key] none call)]⟩
  have ha : Script.parse first = .ok (script ⟨1, 1⟩ ⟨1, 8⟩ ⟨1, 12⟩) := by cbv
  have hb : Script.parse second = .ok (script ⟨3, 1⟩ ⟨4, 3⟩ ⟨4, 7⟩) := by cbv
  have answered : (start 64 0).answer first = .ok 1 := by cbv
  have reached : (start 64 0).Reachable fun _ => True := .start _ _
  exact (layout_never_shows ha hb rfl).2 _ reached 1 1 2 answered

end Session
end WidgetScript
