import WidgetScript.Proofs.Directive.Fits
import WidgetScript.Proofs.Directive.Payload
import WidgetScript.Proofs.Directive.Widget

/-! Well formed declarations, which are the ones that the live tree is made for. A script that
is evaluated gives one, and a directive makes another of it, whatever it asks for. -/
namespace WidgetScript

structure Widget.Proper (w : Widget) : Prop where
  named : w.id ≠ ""
  leaf : w.kind.isContainer = true ∨ w.children = []
  keys : "id" ∉ Fields.keys w.props

/-- What a widget has with all below it that widget calls made. It may have windows below it
and be of any depth. -/
def Widget.Built (w : Widget) : Prop := w.Each fun n => n.Proper ∧ n.props.Regular

structure Forest.WellFormed (f : Forest) : Prop where
  named : ∀ n ∈ f.preorder, n.id ≠ ""
  distinct : f.Distinct
  windows : ∀ r ∈ f.roots, r.kind = .window
  inner : ∀ r ∈ f.roots, ∀ n ∈ Widget.preorderAll r.children, n.kind ≠ .window
  leaves : ∀ n ∈ f.preorder, n.kind.isContainer = false → n.children = []
  room : ∀ r ∈ f.roots, r.depth ≤ Widget.maxDepth
  keys : ∀ n ∈ f.preorder, "id" ∉ Fields.keys n.props

def Directive.outcome (d : Directive) (forest : Forest) (live : LiveTree) : Forest :=
  match d.apply forest live with
  | .ok forest => forest
  | .error _ => forest

namespace Forest
variable {f : Forest}

theorem windows_iff :
    ((∀ r ∈ f.roots, r.kind = .window) ∧
      ∀ r ∈ f.roots, ∀ n ∈ Widget.preorderAll r.children, n.kind ≠ .window) ↔
    ∀ p n, (p, n) ∈ f.placed → (n.kind = .window ↔ p = none) := by
  constructor
  · rintro ⟨windows, inner⟩ p n hn
    rcases mem_placed_iff.1 hn with ⟨rfl, root⟩ | ⟨r, hr, below⟩
    · exact iff_of_true (windows n root) rfl
    · exact iff_of_false (inner r hr n (Widget.mem_preorder_of_placed below))
        (Widget.ne_none_of_placedAll below)
  · intro h
    refine ⟨fun r hr => (h none r (mem_roots_iff.1 hr)).2 rfl, fun r hr n hn window => ?_⟩
    obtain ⟨p, hp⟩ := Widget.placed_of_mem_preorder (some r.id) hn
    exact Widget.ne_none_of_placedAll hp
      ((h p n (mem_placed_iff.2 (.inr ⟨r, hr, hp⟩))).1 window)

theorem wellFormed_iff : f.WellFormed ↔ f.Distinct ∧
    (∀ p n, (p, n) ∈ f.placed → n.Proper ∧ (n.kind = .window ↔ p = none)) ∧
    ∀ r ∈ f.roots, r.depth ≤ Widget.maxDepth := by
  constructor
  · intro h
    refine ⟨h.distinct, fun p n hn => ?_, h.room⟩
    have mem : n ∈ f.preorder := Widget.mem_preorder_of_placed hn
    refine ⟨⟨h.named n mem, ?_, h.keys n mem⟩, windows_iff.1 ⟨h.windows, h.inner⟩ p n hn⟩
    cases container : n.kind.isContainer with
    | true => exact .inl rfl
    | false => exact .inr (h.leaves n mem container)
  · rintro ⟨distinct, all, room⟩
    have proper : ∀ n ∈ f.preorder, n.Proper := by
      intro n hn
      obtain ⟨p, hp⟩ := Widget.placed_of_mem_preorder none hn
      exact (all p n hp).1
    obtain ⟨windows, inner⟩ := windows_iff.2 fun p n hn => (all p n hn).2
    refine ⟨fun n hn => (proper n hn).named, distinct, windows, inner, ?_, room,
      fun n hn => (proper n hn).keys⟩
    intro n hn leaf
    rcases (proper n hn).leaf with container | none
    · exact absurd container (by simp [leaf])
    · exact none

end Forest

namespace Widget

theorem buildable_built : Buildable Built :=
  buildable_each fun _ _ _ _ _ named keys regular leaf => ⟨⟨named, leaf, keys⟩, regular⟩

theorem Built.regular {w : Widget} (h : w.Built) : ∀ field ∈ w.props, field.2.Regular :=
  (each_iff.1 h).1.2.2

end Widget

theorem Script.evaluate_wellFormed {script : Script} {depth : Nat} {ev : Evaluation}
    (h : (script.evaluate depth).1 = .ok ev) : ev.forest.WellFormed ∧
      ev.handlers.Sound Widget.Built := by
  obtain ⟨distinct, roots, handlers⟩ :=
    evaluate_sound Widget.buildable_built (fun _ => Widget.Built.regular) h
  have proper : ∀ n ∈ ev.forest.preorder, n.Proper := by
    intro n hn
    obtain ⟨r, hr, hn⟩ := Widget.mem_preorderAll.1 hn
    exact ((roots r hr).1.good n hn).1
  have places := Forest.windows_iff.1 ⟨fun r hr => (roots r hr).2,
    fun r hr => Widget.containsWindow_children_iff.1 (roots r hr).1.inner⟩
  refine ⟨Forest.wellFormed_iff.2 ⟨distinct, fun p n hn => ?_, fun r hr => ?_⟩, handlers⟩
  · exact ⟨proper n (Widget.mem_preorder_of_placed hn), places p n hn⟩
  · have room := (roots r hr).1.room
    omega

namespace Directive
variable {d : Directive} {forest forest' : Forest} {live : LiveTree} {m n : Widget}

theorem Renewed.proper (renewed : Renewed d m n) (proper : m.Proper) : n.Proper := by
  refine ⟨renewed.id ▸ proper.named, ?_, ?_⟩
  · rw [renewed.kind]
    rcases renewed.leaf with container | childless
    · exact .inl container
    · exact proper.leaf.imp_right childless
  · rcases renewed.props with same | ⟨_, _, _, _, coerced, assigned⟩
    · rw [same]
      exact proper.keys
    · rw [assigned]
      exact not_mem_keys_assign proper.keys fun field hf => (coerceAll_eq_ok coerced field hf).1

theorem Brought.window_iff {parent p : Option String} {w : Widget}
    (brought : Brought live d parent w) (hn : (p, n) ∈ w.placed parent) :
    n.kind = .window ↔ p = none := by
  rw [Widget.placed_eq, List.mem_cons] at hn
  rcases hn with hn | hn
  · cases hn
    exact brought.top
  · have inner := Widget.containsWindow_children_iff.1 brought.inner
    exact iff_of_false (inner n (Widget.mem_preorder_of_placed hn))
      (Widget.ne_none_of_placedAll hn)

theorem apply_wellFormed (h : d.apply forest live = .ok forest') (wf : forest.WellFormed)
    (all : d.value.All Widget.Built) : forest'.WellFormed := by
  obtain ⟨distinct, places, room⟩ := Forest.wellFormed_iff.1 wf
  refine Forest.wellFormed_iff.2 ⟨apply_distinct h distinct, ?_, apply_depth h room⟩
  refine apply_forall_placed h distinct places ?_ ?_
  · rintro p m n renewed ⟨proper, window⟩
    refine ⟨renewed.proper proper, ?_⟩
    rw [renewed.kind]
    exact window
  · intro p w brought q n hn
    refine ⟨?_, brought.window_iff hn⟩
    have built : w.Built := Widget.good_of_ofValue Widget.buildable_built _ _ all brought.value
    exact (built n (Widget.mem_preorder_of_mem_placed hn)).1

end Directive

namespace Forest

/-- Scripts give well formed declarations and directives keep them so, even if all that is
known of the widgets in them is that widget calls made these, as a handler's directives have. -/
theorem wellFormed_from_scripts_and_directives :
    (∀ script depth ev, (Script.evaluate script depth).1 = .ok ev →
      ev.forest.WellFormed ∧ ev.handlers.Sound Widget.Built) ∧
    (∀ handlers event depth entries, Handlers.Sound Widget.Built handlers →
      event.All Widget.Built → (Dispatch.entries handlers event depth).1 = .ok entries →
      ∀ entry ∈ entries, ∀ d, Directive.ofValue entry = .ok d → d.value.All Widget.Built) ∧
    ∀ forest live (d : Directive), forest.WellFormed → d.value.All Widget.Built →
      (d.outcome forest live).WellFormed := by
  refine ⟨fun script depth ev h => Script.evaluate_wellFormed h, ?_, ?_⟩
  · intro handlers event depth entries sound all given entry hentry d read
    refine Directive.all_value ?_ read
    exact Dispatch.all_entries Widget.buildable_built (fun _ => Widget.Built.regular) sound all
      given entry hentry
  · intro forest live d wf all
    unfold Directive.outcome
    split
    next forest' h => exact Directive.apply_wellFormed h wf all
    next => exact wf

/-- A window, and a text that a directive puts into it. -/
theorem wellFormed_from_scripts_and_directives_append :
    let script : Script := ⟨[.expr (.call "window" []
      [.mk "id" (.literal (.str "main") ⟨1, 12⟩) ⟨1, 8⟩] none ⟨1, 1⟩)]⟩
    let forest : Forest := ⟨[⟨.window, "main", [], [], ⟨1, 1⟩⟩]⟩
    let d : Directive := ⟨"main", .appendChild, .map [("kind", .str "text"), ("id", .str "label")]⟩
    (script.evaluate 64).1 = .ok ⟨forest, []⟩ ∧ forest.WellFormed ∧
      (d.outcome forest .empty).WellFormed ∧ (d.outcome forest .empty).ids = ["main", "label"] := by
  intro script forest d
  obtain ⟨evaluated, _, changed⟩ := wellFormed_from_scripts_and_directives
  have run : (script.evaluate 64).1 = .ok ⟨forest, []⟩ := rfl
  have built : d.value.All Widget.Built := Value.all_map.2 ⟨by decide, by simp⟩
  have wf : forest.WellFormed := (evaluated script 64 _ run).1
  exact ⟨run, wf, changed forest .empty d wf built, rfl⟩

end Forest
end WidgetScript
