import WidgetScript.Proofs.Dispatch
import WidgetScript.Proofs.Eval.Run
import WidgetScript.Proofs.Session.Run

/-! The sessions that requests can lead to. In each of them the live tree is well formed and
the image of the declaration, because whatever comes into either has passed a reconciliation
that succeeded. -/
namespace WidgetScript

namespace Session

/-- What requests can lead to from the start of a session, if the events among them are
admitted ones. Others may report what they see of the script's file in the status. -/
inductive Reachable (admits : Event → Prop) : Session → Prop where
  | start (maxCallDepth now : Nat) : Reachable admits (start maxCallDepth now)
  | reload {s : Session} (source : String) (now : Nat) :
      Reachable admits s → Reachable admits (s.reload source now).1
  | dispatch {s : Session} {event : Event} :
      admits event → Reachable admits s → Reachable admits (s.dispatch event).1
  | report {s : Session} (status : Status) :
      Reachable admits s → Reachable admits { s with status }

structure Linked (s : Session) : Prop where
  wellFormed : s.live.WellFormed
  mirrors : s.live.Mirrors s.forest
  carries : s.live.Carries s.forest

variable {s : Session} {event : Event} {source : String} {now : Nat} {admits : Event → Prop}

theorem load_eq_ok {ev : Evaluation} {cmds : List Command} {log : List LogLine}
    (h : s.load source = (.ok (ev, cmds), log)) :
    ∃ script, Script.parse source = .ok script ∧
      (script.evaluate s.maxCallDepth).1 = .ok ev ∧ s.live.reconcile ev.forest = .ok cmds := by
  unfold load at h
  split at h
  · exact nomatch h
  next script parsed =>
    split at h
    · exact nomatch h
    next ev' log' evaluated =>
      split at h
      · exact nomatch h
      next cmds' reconciled =>
        cases h
        exact ⟨script, parsed, by rw [evaluated], reconciled⟩

theorem reload_cases (s : Session) (source : String) (now : Nat) :
    (∃ script ev cmds, (Script.evaluate script s.maxCallDepth).1 = .ok ev ∧
      s.live.reconcile ev.forest = .ok cmds ∧
      (s.reload source now).1.handlers = ev.handlers ∧
      (s.reload source now).1.forest = ev.forest ∧
      (s.reload source now).1.live = (s.live.applyAll cmds).1) ∨
    ((s.reload source now).1.handlers = s.handlers ∧
      (s.reload source now).1.forest = s.forest ∧ (s.reload source now).1.live = s.live) := by
  unfold Session.reload
  dsimp only
  split
  next ev cmds log loaded =>
    obtain ⟨script, _, evaluated, reconciled⟩ := load_eq_ok loaded
    exact .inl ⟨script, ev, cmds, evaluated, reconciled, rfl, rfl, rfl⟩
  next => exact .inr ⟨rfl, rfl, rfl⟩

theorem dispatch_cases (s : Session) (event : Event) :
    (∃ entries cmds, (Dispatch.entries s.handlers event s.maxCallDepth).1 = .ok entries ∧
      s.live.reconcile (Dispatch.applyEntries s.live s.forest entries).1 = .ok cmds ∧
      (s.dispatch event).1 = { s with
        forest := (Dispatch.applyEntries s.live s.forest entries).1
        live := (s.live.applyAll cmds).1 } ∧
      (s.dispatch event).2.commands = cmds) ∨
    ((s.dispatch event).1 = s ∧ (s.dispatch event).2.commands = []) := by
  have outcome : Event.Outcome (Dispatch.entries s.handlers event s.maxCallDepth).1 s.forest s.live
      (event.dispatch s.handlers s.forest s.live s.maxCallDepth) := Event.dispatch_outcome
  unfold Session.dispatch
  dsimp only
  generalize event.dispatch s.handlers s.forest s.live s.maxCallDepth = d at outcome ⊢
  cases outcome with
  | edited given reconciled => exact .inl ⟨_, _, given, reconciled, rfl, rfl⟩
  | nothing | undone => exact .inr ⟨rfl, rfl⟩

theorem Linked.distinct (linked : s.Linked) : s.forest.Distinct :=
  linked.mirrors.distinct linked.wellFormed

theorem Linked.start (maxCallDepth now : Nat) : (start maxCallDepth now).Linked := by
  refine ⟨LiveTree.wellFormed_empty, ⟨rfl, rfl, fun p n hn => ?_⟩, fun n hn => ?_⟩
  · exact nomatch hn
  · exact nomatch hn

theorem Linked.reload (linked : s.Linked) : (s.reload source now).1.Linked := by
  rcases s.reload_cases source now with
    ⟨script, ev, cmds, evaluated, reconciled, _, forest, live⟩ | ⟨_, forest, live⟩
  · obtain ⟨_, _, _, _, distinct⟩ := Script.evaluate_eq_ok evaluated
    obtain ⟨wellFormed, mirrors, carries⟩ := linked.wellFormed.applyAll_mirrors distinct reconciled
    constructor
    · rw [live]
      exact wellFormed
    · rw [live, forest]
      exact mirrors
    · rw [live, forest]
      exact carries
  · constructor
    · rw [live]
      exact linked.wellFormed
    · rw [live, forest]
      exact linked.mirrors
    · rw [live, forest]
      exact linked.carries

/-- Whatever entries a handler gives, the live tree can follow what becomes of the forest. -/
theorem Linked.reconcile_isOk (linked : s.Linked) (entries : List Value) :
    (Dispatch.applyEntries s.live s.forest entries).1.Distinct ∧
      ∃ cmds, s.live.reconcile (Dispatch.applyEntries s.live s.forest entries).1 = .ok cmds := by
  obtain ⟨distinct, fits⟩ :=
    Dispatch.applyEntries_fits entries linked.distinct linked.mirrors.fits
  exact ⟨distinct, fits.reconcile_isOk linked.wellFormed distinct⟩

theorem Linked.dispatch (linked : s.Linked) : (s.dispatch event).1.Linked := by
  rcases s.dispatch_cases event with ⟨entries, cmds, _, reconciled, edited, _⟩ | ⟨same, _⟩
  · obtain ⟨wellFormed, mirrors, carries⟩ :=
      linked.wellFormed.applyAll_mirrors (linked.reconcile_isOk entries).1 reconciled
    rw [edited]
    exact ⟨wellFormed, mirrors, carries⟩
  · rw [same]
    exact linked

theorem Reachable.handles {t : Session} {rs : List Request} {es : List Emission}
    (h : s.Reachable admits) (handled : s.Handles now rs t es)
    (admitted : ∀ event, .dispatch event ∈ rs → admits event) : t.Reachable admits := by
  induction handled with
  | nil => exact h
  | reload _ ih =>
    exact ih (h.reload _ _) fun event mem => admitted event (List.mem_cons_of_mem _ mem)
  | dispatch _ ih =>
    exact ih (.dispatch (admitted _ List.mem_cons_self) h) fun event mem =>
      admitted event (List.mem_cons_of_mem _ mem)

theorem Reachable.run {waiting : List Request} (h : s.Reachable admits)
    (admitted : ∀ event, .dispatch event ∈ waiting → admits event) :
    (s.run now waiting).1.Reachable admits := by
  obtain ⟨rs, first, handled⟩ := s.run_handles now waiting
  exact h.handles handled fun event mem => admitted event (first.subset mem)

theorem Reachable.linked (h : s.Reachable admits) : s.Linked := by
  induction h with
  | start maxCallDepth now => exact .start maxCallDepth now
  | reload source now _ ih => exact ih.reload
  | dispatch _ _ ih => exact ih.dispatch
  | report status _ ih => exact ⟨ih.wellFormed, ih.mirrors, ih.carries⟩

/-- No dispatch fails to reconcile. What its directives made of the forest stays, and no error
blames the live tree. -/
theorem dispatch_never_undone (h : s.Reachable fun _ => True) (event : Event) :
    (∀ entries, ∃ cmds,
      s.live.reconcile (Dispatch.applyEntries s.live s.forest entries).1 = .ok cmds) ∧
    (∀ entries log, Dispatch.entries s.handlers event s.maxCallDepth = (.ok entries, log) →
      (event.dispatch s.handlers s.forest s.live s.maxCallDepth).forest =
        (Dispatch.applyEntries s.live s.forest entries).1) ∧
    ∀ e, DispatchError.reconcile e ∉
      (event.dispatch s.handlers s.forest s.live s.maxCallDepth).errors := by
  have follows (entries : List Value) := (h.linked.reconcile_isOk entries).2
  refine ⟨follows, fun entries log given => ?_, fun e he => ?_⟩
  · unfold Event.dispatch
    rw [given]
    cases entries with
    | nil => rfl
    | cons entry rest =>
      obtain ⟨cmds, reconciled⟩ := follows (entry :: rest)
      dsimp only
      rw [reconciled]
  · have outcome : Event.Outcome (Dispatch.entries s.handlers event s.maxCallDepth).1 s.forest
        s.live (event.dispatch s.handlers s.forest s.live s.maxCallDepth) := Event.dispatch_outcome
    generalize event.dispatch s.handlers s.forest s.live s.maxCallDepth = d at outcome he
    cases outcome with
    | nothing early => exact early _ he
    | @edited entries _ _ _ _ => exact Dispatch.applyEntries_early entries _ he
    | @undone entries e' _ _ failed =>
      obtain ⟨cmds, reconciled⟩ := follows entries
      exact nomatch failed.symm.trans reconciled

/-- Here the handler removes the text that the window has and then puts it back. -/
theorem dispatch_never_undone_press :
    let source := "window(id: \"main\") do\n  text(id: \"label\")\nend\ndef press()\n" ++
      "  [\x7btarget_id: \"main\", action: \"removeChild\", value: \"label\"\x7d,\n" ++
      "   \x7btarget_id: \"main\", action: \"appendChild\", value: " ++
      "\x7bkind: \"text\", id: \"label\"\x7d\x7d]\nend"
    let s := ((start 64 0).reload source 5).1
    ∀ e, DispatchError.reconcile e ∉ (Event.dispatch ⟨"main", "press", []⟩ s.handlers s.forest s.live
      s.maxCallDepth).errors := by
  intro source s
  have reached : s.Reachable fun _ => True := .reload _ _ (.start _ _)
  exact (dispatch_never_undone reached ⟨"main", "press", []⟩).2.2

end Session
end WidgetScript
