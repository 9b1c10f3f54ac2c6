import Mathlib
import WidgetScript.Proofs.Directive.Payload
import WidgetScript.Proofs.Directive.Widget
import WidgetScript.Proofs.Session.Reach

/-! In every session the live tree is in sync with the declaration: it is its image and carries
what it declares. Nothing is left to send, unless a declared number is NaN, which does not even
equal itself. Scripts and directives see to that themselves, so that only a widget that comes with
an event can bring one in, and none comes with an event that was read from a text. -/
namespace WidgetScript

def Widget.Regular (w : Widget) : Prop := w.Each (·.props.Regular)

/-- No widget among the parameters holds NaN. -/
def Event.Regular (e : Event) : Prop := e.All Widget.Regular

theorem Event.regular_of_parse? {text : String} {e : Event} (h : parse? text = some e) :
    e.Regular :=
  all_of_parse? h

namespace Widget

theorem buildable_regular : Buildable Regular :=
  buildable_each fun _ _ _ _ _ _ _ regular _ => regular

theorem Regular.props {w : Widget} (h : w.Regular) : ∀ field ∈ w.props, field.2.Regular :=
  (each_iff.1 h).1.2

end Widget

theorem Forest.regular_iff {f : Forest} : f.Regular ↔ ∀ p n, (p, n) ∈ f.placed →
    n.props.Regular := by
  constructor
  · intro h p n hn
    exact h n (Widget.mem_preorder_of_placed hn)
  · intro h n hn
    obtain ⟨p, hp⟩ := Widget.placed_of_mem_preorder none hn
    exact h p n hp

namespace Directive
variable {d : Directive} {forest forest' : Forest} {live : LiveTree} {m n : Widget}

theorem Renewed.regular (renewed : Renewed d m n) (all : d.value.All Widget.Regular)
    (old : m.props.Regular) : n.props.Regular := by
  rcases renewed.props with same | ⟨_, given, ps, assigned, coerced, props⟩
  · rw [same]
    exact old
  · rw [props]
    refine regular_assign old fun field hf p hp => ?_
    obtain ⟨v, hv, becomes⟩ := (coerceAll_eq_ok coerced field hf).2 p hp
    exact Property.regular_of_coerce (all_assignments all assigned _ hv) becomes

theorem apply_regular (h : d.apply forest live = .ok forest') (distinct : forest.Distinct)
    (all : d.value.All Widget.Regular) (regular : forest.Regular) : forest'.Regular := by
  rw [Forest.regular_iff] at regular ⊢
  refine apply_forall_placed h distinct regular (fun _ _ _ renewed => renewed.regular all) ?_
  intro p w brought q n hn
  have good : w.Regular := Widget.good_of_ofValue Widget.buildable_regular _ _ all brought.value
  exact good n (Widget.mem_preorder_of_mem_placed hn)

end Directive

theorem Dispatch.applyEntries_regular {live : LiveTree} {entries : List Value} {forest : Forest}
    (all : ∀ entry ∈ entries, entry.All Widget.Regular) (distinct : forest.Distinct)
    (regular : forest.Regular) : (applyEntries live forest entries).1.Regular := by
  have kept : (applyEntries live forest entries).1.Distinct ∧
      (applyEntries live forest entries).1.Regular := by
    refine applyEntries_keeps (p := fun f => f.Distinct ∧ f.Regular) ?_ ⟨distinct, regular⟩
    rintro entry hentry d read f f' ⟨distinct, regular⟩ h
    have value := Directive.all_value (all entry hentry) read
    exact ⟨Directive.apply_distinct h distinct, Directive.apply_regular h distinct value regular⟩
  exact kept.2

theorem Script.evaluate_regular {script : Script} {depth : Nat} {ev : Evaluation}
    (h : (script.evaluate depth).1 = .ok ev) :
    ev.forest.Distinct ∧ ev.forest.Regular ∧ ev.handlers.Sound Widget.Regular := by
  obtain ⟨distinct, roots, sound⟩ := Script.evaluate_sound Widget.buildable_regular
    (fun _ => Widget.Regular.props) h
  refine ⟨distinct, fun n hn => ?_, sound⟩
  obtain ⟨r, hr, hn⟩ := Widget.mem_preorderAll.1 hn
  exact (roots r hr).1.good n hn

namespace Session
variable {s : Session} {event : Event} {source : String} {now : Nat} {admits : Event → Prop}

structure Valued (s : Session) : Prop where
  regular : s.forest.Regular
  handlers : s.handlers.Sound Widget.Regular

theorem Valued.start (maxCallDepth now : Nat) : (start maxCallDepth now).Valued := by
  refine ⟨fun n hn => ?_, fun field hf => ?_⟩
  · exact nomatch hn
  · exact nomatch hf

theorem Valued.reload (valued : s.Valued) : (s.reload source now).1.Valued := by
  rcases s.reload_cases source now with
    ⟨script, ev, cmds, evaluated, _, handlers, forest, _⟩ | ⟨handlers, forest, _⟩
  · obtain ⟨_, regular, sound⟩ := Script.evaluate_regular evaluated
    constructor
    · rw [forest]
      exact regular
    · rw [handlers]
      exact sound
  · constructor
    · rw [forest]
      exact valued.regular
    · rw [handlers]
      exact valued.handlers

theorem Valued.dispatch (valued : s.Valued) (linked : s.Linked) (regular : event.Regular) :
    (s.dispatch event).1.Valued := by
  rcases s.dispatch_cases event with ⟨entries, cmds, given, _, edited, _⟩ | ⟨same, _⟩
  · have all : ∀ entry ∈ entries, entry.All Widget.Regular :=
      Dispatch.all_entries Widget.buildable_regular (fun _ => Widget.Regular.props)
        valued.handlers regular given
    rw [edited]
    exact ⟨Dispatch.applyEntries_regular all linked.distinct valued.regular, valued.handlers⟩
  · rw [same]
    exact valued

theorem Reachable.valued (h : s.Reachable admits)
    (harmless : ∀ e, admits e → e.Regular ∨ ∃ text, Event.parse? text = some e) : s.Valued := by
  induction h with
  | start maxCallDepth now => exact .start maxCallDepth now
  | reload source now _ ih => exact ih.reload
  | dispatch admitted reached ih =>
    refine ih.dispatch reached.linked ?_
    rcases harmless _ admitted with regular | ⟨text, parsed⟩
    · exact regular
    · exact Event.regular_of_parse? parsed
  | report status _ ih => exact ⟨ih.regular, ih.handlers⟩

/-- What holds after each request, if the events among the requests are admitted ones. -/
structure Synced (admits : Event → Prop) (s : Session) : Prop where
  wellFormed : s.live.WellFormed
  mirrors : s.live.Mirrors s.forest
  carries : s.live.Carries s.forest
  silent : s.forest.Regular → s.live.Holds s.forest ∧ s.live.reconcile s.forest = .ok []
  regular : (∀ e, admits e → e.Regular ∨ ∃ text, Event.parse? text = some e) → s.forest.Regular

theorem Reachable.synced (h : s.Reachable admits) : s.Synced admits := by
  obtain ⟨wellFormed, mirrors, carries⟩ := h.linked
  refine ⟨wellFormed, mirrors, carries, fun regular => ?_, fun harmless => ?_⟩
  · have holds := carries.holds regular
    exact ⟨holds, LiveTree.InSync.reconcile_eq_nil ⟨wellFormed, mirrors, holds⟩⟩
  · exact (h.valued harmless).regular

/-- Whatever was requested before, the live tree is well formed and the image of the declaration,
and carries what is declared. If no declared value is NaN it has all the values and needs no
commands, and none is if no event has brought one in, as none does that was read from a text. So it
stays when more requests are handled. -/
theorem reachable_in_sync (h : s.Reachable admits) :
    s.Synced admits ∧ ∀ now waiting, (∀ event, .dispatch event ∈ waiting → admits event) →
      (s.run now waiting).1.Synced admits :=
  ⟨h.synced, fun _ _ admitted => (h.run admitted).synced⟩

/-- Here the handler puts a text into the window. -/
theorem reachable_in_sync_press :
    let source := "window(id: \"main\")\ndef press()\n  \x7btarget_id: \"main\", " ++
      "action: \"appendChild\", value: \x7bkind: \"text\", id: \"label\"\x7d\x7d\nend"
    let text := "\x7b\"widget_id\": \"main\", \"handler_name\": \"press\"\x7d"
    let event : Event := ⟨"main", "press", []⟩
    let s := ((start 64 0).run 5 [.reload source, .dispatch event, .shutdown]).1
    Event.parse? text = some event ∧ s.live.WellFormed ∧ s.live.Mirrors s.forest ∧
      s.live.Holds s.forest ∧ s.live.reconcile s.forest = .ok [] := by
  intro source text event s
  have read : Event.parse? text = some event := by cbv
  have reached : (start 64 0).Reachable fun e => ∃ text, Event.parse? text = some e := .start _ _
  have synced : s.Synced fun e => ∃ text, Event.parse? text = some e := by
    refine (reachable_in_sync reached).2 5 _ fun e mem => ?_
    obtain rfl : e = event := by simpa using mem
    exact ⟨text, read⟩
  exact ⟨read, synced.wellFormed, synced.mirrors, synced.silent (synced.regular fun _ => .inr)⟩

/-- A window, and a handler that gives back what it gets. -/
def echoing : Session where
  handlers := [("press", ⟨"press", ["p"], [.expr (.ident "p" ⟨3, 1⟩)], [], ⟨2, 1⟩⟩)]
  forest := ⟨[⟨.window, "main", [], [], ⟨1, 1⟩⟩]⟩
  live := ⟨[("main", ⟨0, .window, "main", none, [], []⟩)], ["main"], 1⟩
  status := ((Status.start 0).begin 5).succeed 5
  maxCallDepth := 64

theorem echoing_reachable : echoing.Reachable admits := by
  let source := "window(id: \"main\")\ndef press(p)\np\nend"
  have parsed : Script.parse source = .ok ⟨[
    .expr (.call "window" [] [.mk "id" (.literal (.str "main") ⟨1, 12⟩) ⟨1, 8⟩] none ⟨1, 1⟩),
    .define "press" ["p"] [.expr (.ident "p" ⟨3, 1⟩)] ⟨2, 1⟩]⟩ := by cbv
  have reloaded : echoing = ((start 64 0).reload source 5).1 := by
    simp only [reload, load, parsed]
    rfl
  rw [reloaded]
  exact .reload _ _ (.start _ _)

/-- A text whose size is no number. No script can declare it. -/
def unsized : Widget := ⟨.text, "label", [("size", .number (0.0 / 0.0))], [], .none⟩

/-- What that session is after the text has come with an event. -/
def withNaN : Session :=
  { echoing with
    forest := ⟨[⟨.window, "main", [], [unsized], ⟨1, 1⟩⟩]⟩
    live := ⟨[("main", ⟨0, .window, "main", none, ["label"], []⟩),
      ("label", ⟨1, .text, "label", some "main", [], unsized.props⟩)], ["main"], 2⟩ }

theorem withNaN_reachable : withNaN.Reachable fun _ => True := by
  let event : Event :=
    ⟨"main", "press", [("action", .str "appendChild"), ("value", .node unsized)]⟩
  have dispatched : withNaN = (echoing.dispatch event).1 := rfl
  rw [dispatched]
  exact .dispatch trivial echoing_reachable

theorem reconcile_withNaN :
    withNaN.live.reconcile withNaN.forest = .ok [.update "label" unsized.props] := rfl

/-- The entity has the declared size, but no equal one. -/
theorem not_reachable_in_sync :
    withNaN.Reachable (fun _ => True) ∧ ¬ withNaN.live.Holds withNaN.forest ∧
      withNaN.live.reconcile withNaN.forest ≠ .ok [] := by
  have resent : withNaN.live.reconcile withNaN.forest ≠ .ok [] := by
    rw [reconcile_withNaN]
    exact nofun
  obtain ⟨wellFormed, mirrors, _⟩ := withNaN_reachable.linked
  refine ⟨withNaN_reachable, fun holds => ?_, resent⟩
  exact resent (LiveTree.InSync.reconcile_eq_nil ⟨wellFormed, mirrors, holds⟩)

end Session
end WidgetScript
