import WidgetScript.Proofs.Directive.Fits

/-! A dispatch either leaves the declaration as it is and sends no commands, or it applies
all directives of the payload and sends what reconciling gives. Only the reconciliation at
the end can blame the live tree. -/
namespace WidgetScript

def DispatchError.Early : DispatchError → Prop
  | .reconcile _ => False
  | _ => True

namespace Directive
variable {forest : Forest} {live : LiveTree} {d : Directive} {target : Widget} {v : Value}

theorem ofValue_failsBy : FailsBy DispatchError.Early (Directive.ofValue v) := by
  have text (fault : PayloadFault) (v : Value) :
      FailsBy DispatchError.Early (textOf fault v) := by
    unfold textOf
    split
    · exact .ok
    · exact .error trivial
  unfold Directive.ofValue
  split
  · split
    · exact .error trivial
    · refine .bind (text _ _) fun target => ?_
      split
      · exact .error trivial
      · refine .bind (text _ _) fun name => ?_
        split
        · exact .error trivial
        · exact .ok
  · exact .error trivial

theorem change_failsBy : FailsBy DispatchError.Early (d.change forest live target) := by
  have bad {α : Type} (action : Action) (r : Except ValueFault α) :
      FailsBy DispatchError.Early (r.mapError (DispatchError.badValue d.target action)) :=
    .mapError fun _ => trivial
  have ids (replaced : List String) (action : Action) (w : Widget) :
      FailsBy DispatchError.Early (checkIds forest replaced action w) := by
    unfold checkIds
    dsimp only
    split
    · exact .error trivial
    · exact .ok
  unfold Directive.change
  dsimp only
  cases d.action with
  | set setter => exact .bind (bad _ _) fun _ => .bind (bad _ _) fun _ => .ok
  | appendChild =>
    refine .bind (bad _ _) fun child => ?_
    split
    · exact bad _ _
    · split
      · exact bad _ _
      · exact .bind (ids _ _ _) fun _ => .bind (bad _ _) fun _ => .bind (bad _ _) fun _ => .ok
  | removeChild =>
    dsimp only
    split
    · exact bad _ _
    · split
      · exact bad _ _
      · exact .ok
  | replace =>
    refine .bind (bad _ _) fun w => ?_
    split
    · exact bad _ _
    · split
      · exact bad _ _
      · exact .bind (ids _ _ _) fun _ => .bind (bad _ _) fun _ => .bind (bad _ _) fun _ => .ok

theorem apply_failsBy : FailsBy DispatchError.Early (d.apply forest live) := by
  unfold Directive.apply
  split
  · exact .error trivial
  · exact .bind change_failsBy fun _ => .ok

end Directive

namespace Dispatch
variable {forest : Forest} {live : LiveTree} {handlers : Handlers} {event : Event}
  {maxCallDepth : Nat}

theorem applyEntries_early (entries : List Value) :
    ∀ e ∈ (applyEntries live forest entries).2, e.Early := by
  induction entries generalizing forest with
  | nil =>
    intro e he
    exact nomatch he
  | cons entry rest ih =>
    rw [applyEntries]
    split
    next => exact ih
    next e failed =>
      rw [List.forall_mem_cons]
      refine ⟨?_, ih⟩
      exact FailsBy.bind Directive.ofValue_failsBy (fun _ => Directive.apply_failsBy) e failed

theorem entries_failsBy : FailsBy DispatchError.Early (entries handlers event maxCallDepth).1 := by
  unfold entries
  split
  · exact .error trivial
  next c _ =>
    split
    next e failed =>
      refine .error ?_
      have early : FailsBy DispatchError.Early (arguments c event) := by
        unfold arguments
        split
        · exact .ok
        · exact .ok
        · exact .error trivial
      exact early e failed
    next =>
      split
      · exact .error trivial
      · exact .mapError fun _ => trivial

end Dispatch

namespace Event
open Dispatch
variable {event : Event} {handlers : Handlers} {forest : Forest} {live : LiveTree}
  {maxCallDepth : Nat}

/-- All that a dispatch can come to, given the entries of the payload. -/
inductive Outcome (payload : Except DispatchError (List Value)) (forest : Forest)
    (live : LiveTree) : Dispatched → Prop where
  | nothing {errors : List DispatchError} {log : List LogLine} :
      (∀ e ∈ errors, e.Early) → Outcome payload forest live ⟨forest, [], errors, log⟩
  | edited {entries : List Value} {commands : List Command} {log : List LogLine} :
      payload = .ok entries →
      live.reconcile (applyEntries live forest entries).1 = .ok commands →
      Outcome payload forest live ⟨(applyEntries live forest entries).1, commands,
        (applyEntries live forest entries).2, log⟩
  | undone {entries : List Value} {e : ReconcileError} {log : List LogLine} :
      payload = .ok entries →
      live.reconcile (applyEntries live forest entries).1 = .error e →
      Outcome payload forest live ⟨forest, [],
        (applyEntries live forest entries).2 ++ [.reconcile e], log⟩

theorem dispatch_outcome : Outcome (Dispatch.entries handlers event maxCallDepth).1 forest live
    (event.dispatch handlers forest live maxCallDepth) := by
  have early : FailsBy DispatchError.Early (Dispatch.entries handlers event maxCallDepth).1 :=
    entries_failsBy
  unfold Event.dispatch
  split
  next e log failed =>
    rw [failed] at early
    refine .nothing ?_
    simpa using early e rfl
  next => exact .nothing (by simp)
  next entries log _ given =>
    have payload : (Dispatch.entries handlers event maxCallDepth).1 = .ok entries := by rw [given]
    dsimp only
    split
    next commands h => exact .edited payload h
    next e h => exact .undone payload h

end Event
end WidgetScript
