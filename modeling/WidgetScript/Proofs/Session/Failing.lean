import WidgetScript.Proofs.Directive.InPlace
import WidgetScript.Proofs.Session.InSync

/-! An entry of a payload that fails leaves no trace but its error. What the others come to is what
they come to without it, and so are the commands. -/
namespace WidgetScript

namespace Dispatch
variable {live : LiveTree} {forest forest' : Forest}
  {outcomes : List (Value × Option DispatchError)}

/-- One entry after the other is read as a directive and applied. It fails if it is none or cannot
be applied, and then leaves the forest as it is. -/
inductive Run (live : LiveTree) : Forest → List (Value × Option DispatchError) → Forest → Prop where
  | nil {f : Forest} : Run live f [] f
  | effect {f f₁ f' : Forest} {entry : Value} {d : Directive}
      {rest : List (Value × Option DispatchError)} :
      Directive.ofValue entry = .ok d → d.apply f live = .ok f₁ → Run live f₁ rest f' →
      Run live f ((entry, none) :: rest) f'
  | malformed {f f' : Forest} {entry : Value} {e : DispatchError}
      {rest : List (Value × Option DispatchError)} :
      Directive.ofValue entry = .error e → Run live f rest f' →
      Run live f ((entry, some e) :: rest) f'
  | failure {f f' : Forest} {entry : Value} {d : Directive} {e : DispatchError}
      {rest : List (Value × Option DispatchError)} :
      Directive.ofValue entry = .ok d → d.apply f live = .error e → Run live f rest f' →
      Run live f ((entry, some e) :: rest) f'

def effective (outcomes : List (Value × Option DispatchError)) : List Value :=
  (outcomes.filter (·.2.isNone)).map Prod.fst

namespace Run

theorem exists_run (live : LiveTree) (forest : Forest) (entries : List Value) :
    ∃ outcomes, outcomes.map Prod.fst = entries ∧
      Run live forest outcomes (applyEntries live forest entries).1 := by
  induction entries generalizing forest with
  | nil => exact ⟨[], rfl, .nil⟩
  | cons entry rest ih =>
    obtain ⟨outcomes, rfl, run⟩ := ih forest
    cases read : Directive.ofValue entry with
    | error e =>
      rw [applyEntries_of_error _ (applyEntry_of_malformed read)]
      exact ⟨(entry, some e) :: outcomes, rfl, .malformed read run⟩
    | ok d =>
      have same : applyEntry live forest entry = d.apply forest live := applyEntry_of_read read
      cases applied : d.apply forest live with
      | error e =>
        rw [applyEntries_of_error _ (same.trans applied)]
        exact ⟨(entry, some e) :: outcomes, rfl, .failure read applied run⟩
      | ok f₁ =>
        rw [applyEntries_of_ok _ (same.trans applied)]
        obtain ⟨others, eq, run⟩ := ih f₁
        exact ⟨(entry, none) :: others, congrArg (entry :: ·) eq, .effect read applied run⟩

theorem applyEntries_eq (h : Run live forest outcomes forest') :
    applyEntries live forest (outcomes.map Prod.fst) = (forest', outcomes.filterMap Prod.snd) := by
  induction h with
  | nil => rfl
  | effect read applied _ ih =>
    rw [List.map_cons, applyEntries_of_ok _ ((applyEntry_of_read read).trans applied), ih]
    rfl
  | malformed malformed _ ih =>
    rw [List.map_cons, applyEntries_of_error _ (applyEntry_of_malformed malformed), ih]
    rfl
  | failure read failed _ ih =>
    rw [List.map_cons, applyEntries_of_error _ ((applyEntry_of_read read).trans failed), ih]
    rfl

theorem filter (h : Run live forest outcomes forest') :
    Run live forest (outcomes.filter (·.2.isNone)) forest' := by
  induction h with
  | nil => exact .nil
  | effect read applied _ ih => exact .effect read applied ih
  | malformed _ _ ih => exact ih
  | failure _ _ _ ih => exact ih

theorem applyEntries_effective (h : Run live forest outcomes forest') :
    applyEntries live forest (effective outcomes) = (forest', []) := by
  rw [effective, h.filter.applyEntries_eq]
  congr 1
  rw [List.filterMap_eq_nil_iff]
  intro outcome kept
  exact Option.isNone_iff_eq_none.1 (List.mem_filter.1 kept).2

end Run
end Dispatch

namespace Session
open Dispatch
variable {s : Session} {event : Event} {handlers : Handlers} {depth : Nat} {entries : List Value}
  {log : List LogLine}

/-- What is dispatched in a linked session, given the entries; nothing is reconciled for none. -/
theorem Linked.dispatch_eq (linked : s.Linked)
    (given : Dispatch.entries handlers event depth = (.ok entries, log)) :
    ∃ commands, event.dispatch handlers s.forest s.live depth =
        ⟨(applyEntries s.live s.forest entries).1, commands,
          (applyEntries s.live s.forest entries).2, log⟩ ∧
      (entries = [] → commands = []) ∧
      (entries ≠ [] →
        s.live.reconcile (applyEntries s.live s.forest entries).1 = .ok commands) := by
  unfold Event.dispatch
  rw [given]
  cases entries with
  | nil => exact ⟨[], rfl, fun _ => rfl, absurd rfl⟩
  | cons entry rest =>
    obtain ⟨_, commands, reconciled⟩ := linked.reconcile_isOk (entry :: rest)
    refine ⟨commands, ?_, nofun, fun _ => reconciled⟩
    dsimp only
    rw [reconciled]

theorem Linked.dispatch_run (linked : s.Linked)
    (given : Dispatch.entries handlers event depth = (.ok entries, log)) :
    ∃ outcomes, outcomes.map Prod.fst = entries ∧
      Run s.live s.forest outcomes (event.dispatch handlers s.forest s.live depth).forest ∧
      (event.dispatch handlers s.forest s.live depth).errors = outcomes.filterMap Prod.snd := by
  obtain ⟨commands, dispatched, _⟩ := linked.dispatch_eq given
  obtain ⟨outcomes, rfl, run⟩ := Run.exists_run s.live s.forest entries
  rw [dispatched]
  exact ⟨outcomes, rfl, run, congrArg Prod.snd run.applyEntries_eq⟩

theorem Linked.dispatch_effective (linked : s.Linked) {forest : Forest}
    {outcomes : List (Value × Option DispatchError)} (run : Run s.live s.forest outcomes forest)
    (given : Dispatch.entries handlers event depth = (.ok (effective outcomes), log)) :
    (event.dispatch handlers s.forest s.live depth).forest = forest ∧
      (event.dispatch handlers s.forest s.live depth).errors = [] := by
  obtain ⟨commands, dispatched, _⟩ := linked.dispatch_eq given
  rw [dispatched, run.applyEntries_effective]
  exact ⟨rfl, rfl⟩

/-- For no entries the commands are none, and so are those that reconciling gives without NaN. -/
theorem Linked.dispatch_reconciled (linked : s.Linked)
    (given : Dispatch.entries handlers event depth = (.ok entries, log))
    (due : entries ≠ [] ∨ s.forest.Regular) :
    s.live.reconcile (event.dispatch handlers s.forest s.live depth).forest =
      .ok (event.dispatch handlers s.forest s.live depth).commands := by
  obtain ⟨commands, dispatched, nothing, reconciled⟩ := linked.dispatch_eq given
  rw [dispatched]
  rcases due with some | regular
  · exact reconciled some
  · cases entries with
    | nil =>
      rw [nothing rfl]
      exact LiveTree.InSync.reconcile_eq_nil
        ⟨linked.wellFormed, linked.mirrors, linked.carries.holds regular⟩
    | cons => exact reconciled nofun

/-- A directive that fails leaves a forest that is edited in place as it was. So each entry that a
handler gives has its effect or gives one error, in the order of the entries, and a handler that
gives only the others comes to the same forest without errors. It comes to the same commands too if
there are others, or if no declared value is NaN, as none is unless an event has brought one in. -/
theorem failing_entries_leave_no_trace :
    (∀ (d : Directive) live forest,
      (∀ forest', d.apply forest live = .ok forest' → d.perform live forest = (.ok (), forest')) ∧
      ∀ e, d.apply forest live = .error e → d.perform live forest = (.error e, forest)) ∧
    ∀ (admits : Event → Prop) (s : Session), s.Reachable admits → ∀ event entries log,
      Dispatch.entries s.handlers event s.maxCallDepth = (.ok entries, log) →
      let d := event.dispatch s.handlers s.forest s.live s.maxCallDepth
      ∃ outcomes : List (Value × Option DispatchError), outcomes.map Prod.fst = entries ∧
        Run s.live s.forest outcomes d.forest ∧ d.errors = outcomes.filterMap Prod.snd ∧
        ∀ handlers event' depth log',
          Dispatch.entries handlers event' depth = (.ok (effective outcomes), log') →
          let d' := event'.dispatch handlers s.forest s.live depth
          d'.forest = d.forest ∧ d'.errors = [] ∧
            (effective outcomes ≠ [] ∨ s.forest.Regular ∨
              (∀ e, admits e → e.Regular ∨ ∃ text, Event.parse? text = some e) →
              d'.commands = d.commands) := by
  constructor
  · exact fun d live forest => ⟨fun _ => d.perform_of_ok, fun _ => d.perform_of_error⟩
  intro admits s reached event entries log given d
  have linked := reached.linked
  obtain ⟨outcomes, rfl, run, errors⟩ := linked.dispatch_run given
  refine ⟨outcomes, rfl, run, errors, ?_⟩
  intro handlers event' depth log' given' d'
  obtain ⟨same, none⟩ := linked.dispatch_effective run given'
  refine ⟨same, none, fun spared => ?_⟩
  have due : effective outcomes ≠ [] ∨ s.forest.Regular := by
    rcases spared with some | regular | harmless
    · exact .inl some
    · exact .inr regular
    · exact .inr (reached.valued harmless).regular
  have all : outcomes.map Prod.fst ≠ [] ∨ s.forest.Regular := by
    refine due.imp_left fun some empty => some ?_
    rw [effective, List.map_eq_nil_iff.1 empty]
    rfl
  have second := linked.dispatch_reconciled given' due
  rw [same] at second
  exact Except.ok.inj (second.symm.trans (linked.dispatch_reconciled given all))

/-- The first entry is no directive, and the second one sets the window's text. -/
theorem failing_entries_leave_no_trace_text :
    let setText : Value :=
      .map [("target_id", .str "main"), ("action", .str "setText"), ("value", .str "hi")]
    let event (items : List Value) : Event := ⟨"main", "press", [("updates", .list items)]⟩
    let d (items : List Value) := (event items).dispatch echoing.handlers echoing.forest
      echoing.live echoing.maxCallDepth
    (d [.nil, setText]).forest = ⟨[⟨.window, "main", [("text", .str "hi")], [], ⟨1, 1⟩⟩]⟩ ∧
      (d [.nil, setText]).commands = [.update "main" [("text", .str "hi")]] ∧
      (∃ e, (d [.nil, setText]).errors = [e]) ∧ (d [setText]).forest = (d [.nil, setText]).forest ∧
      (d [setText]).errors = [] ∧ (d [setText]).commands = (d [.nil, setText]).commands ∧
      Directive.perform ⟨"nobody", .set .text, .nil⟩ echoing.live echoing.forest =
        (.error (.unknownTarget "nobody" (.set .text)), echoing.forest) := by
  intro setText event d
  have given (items : List Value) : Dispatch.entries echoing.handlers (event items)
      echoing.maxCallDepth = (.ok items, []) := rfl
  have reached : echoing.Reachable fun _ => True := echoing_reachable
  obtain ⟨outcomes, same, run, errors, rest⟩ :=
    failing_entries_leave_no_trace.2 _ _ reached (event [.nil, setText]) _ _ (given _)
  obtain ⟨e, rfl⟩ : ∃ e, outcomes = [(.nil, some e), (setText, none)] := by
    obtain ⟨⟨_, o⟩, _, rfl, rfl, behind⟩ := List.map_eq_cons_iff.1 same
    obtain ⟨⟨_, o'⟩, _, rfl, rfl, none⟩ := List.map_eq_cons_iff.1 behind
    obtain rfl := List.map_eq_nil_iff.1 none
    cases run with
    | effect read => exact nomatch read
    | failure read => exact nomatch read
    | malformed _ run =>
      cases run with
      | effect => exact ⟨_, rfl⟩
      | malformed unread => exact nomatch unread
      | failure read failed =>
        cases read
        exact nomatch failed
  obtain ⟨forest, none, commands⟩ := rest echoing.handlers (event [setText]) _ _ (given _)
  refine ⟨rfl, rfl, ⟨e, errors⟩, forest, none, commands (.inl (List.cons_ne_nil _ _)), ?_⟩
  exact (failing_entries_leave_no_trace.1 _ _ _).2 _ rfl

/-- Nothing is reconciled for a payload without entries, but it is for one whose entries all fail,
and then the size is sent anew. -/
theorem not_failing_entries_leave_no_trace :
    let event (items : List Value) : Event := ⟨"main", "press", [("updates", .list items)]⟩
    let given (items : List Value) :=
      Dispatch.entries withNaN.handlers (event items) withNaN.maxCallDepth
    let d (items : List Value) := (event items).dispatch withNaN.handlers withNaN.forest
      withNaN.live withNaN.maxCallDepth
    withNaN.Reachable (fun _ => True) ∧ given [.nil] = (.ok [.nil], []) ∧ given [] = (.ok [], []) ∧
      (∃ e, Run withNaN.live withNaN.forest [(.nil, some e)] (d [.nil]).forest ∧
        effective [(.nil, some e)] = []) ∧
      (d []).commands ≠ (d [.nil]).commands := by
  intro event given d
  have sent : (d [.nil]).commands = [.update "label" unsized.props] := rfl
  refine ⟨withNaN_reachable, rfl, rfl, ⟨_, .malformed rfl .nil, rfl⟩, ?_⟩
  rw [sent]
  exact nofun

end Session
end WidgetScript
