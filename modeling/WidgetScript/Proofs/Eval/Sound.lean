import WidgetScript.Proofs.Eval.Discipline
import WidgetScript.Proofs.Eval.Operators
import WidgetScript.Proofs.Eval.Steady
import WidgetScript.Proofs.Eval.Run
import WidgetScript.Proofs.Property.Coerce

/-! The discipline of a property of widgets: all widgets that a run meets have it, wherever
they are kept. The widgets of a target also have no windows below them and room for the
levels that are open around them, which is what makes a whole declaration well formed. -/
namespace WidgetScript

variable {q : Widget → Prop} {levels : Nat}

structure Widget.Fitting (q : Widget → Prop) (levels : Nat) (w : Widget) : Prop where
  good : q w
  inner : ∀ c ∈ w.children, c.containsWindow = false
  room : levels + w.depth ≤ Widget.maxDepth

def Target.Holds (q : Widget → Prop) (levels : Nat) : Target → Prop
  | .roots ws => ∀ w ∈ ws, w.Fitting q levels ∧ w.kind = .window
  | .children ws => ∀ w ∈ ws, w.Fitting q levels ∧ w.kind ≠ .window

def Target.Held (q : Widget → Prop) : Nat → List Target → Prop
  | _, [] => True
  | levels, t :: ts => t.Holds q levels ∧ Held q (levels - 1) ts

def Closure.Captures (q : Widget → Prop) (c : Closure) : Prop :=
  ∀ field ∈ c.captured, field.2.All q

structure EvalState.Sound (q : Widget → Prop) (s : EvalState) : Prop where
  frames : ∀ frame ∈ s.frames, ∀ field ∈ frame, field.2.All q
  handlers : ∀ field ∈ s.handlers, field.2.Captures q
  held : Target.Held q s.widgetDepth s.targets

namespace Eval

def sound (q : Widget → Prop) : Discipline where
  inv := EvalState.Sound q
  rel := EvalState.Steady
  value := Value.All q
  props props := props.Regular ∧ "id" ∉ Fields.keys props
  closure := Closure.Captures q
  widget s w := w.Fitting q s.widgetDepth
  row s ws := ∀ w ∈ ws, w.Fitting q (s.widgetDepth + 1) ∧ w.kind ≠ .window

variable {s t : EvalState}

theorem all_of_lookup {name : String} {v : Value} (h : s.Sound q) (found : s.lookup name = some v) :
    v.All q := by
  unfold EvalState.lookup EvalState.frame at found
  cases frames : s.frames with
  | nil =>
    rw [frames] at found
    exact nomatch found
  | cons frame rest =>
    rw [frames] at found
    exact Value.all_get? (h.frames frame (frames ▸ List.mem_cons_self)) found

theorem sound_assign {name : String} {v : Value} (h : s.Sound q) (hv : v.All q) :
    (s.assign name v).Sound q := by
  unfold EvalState.assign
  split
  · exact h
  next frame frames hs =>
    refine ⟨fun f hf field hfield => ?_, h.handlers, h.held⟩
    rcases List.mem_cons.1 hf with rfl | hf
    · rcases Fields.mem_insert hfield with rfl | hfield
      · exact hv
      · exact h.frames frame (hs ▸ List.mem_cons_self) field hfield
    · exact h.frames f (hs ▸ List.mem_cons_of_mem _ hf) field hfield

theorem sound_define {c : Closure} (h : s.Sound q) (captures : c.Captures q) :
    (s.define c).Sound q := by
  refine ⟨h.frames, fun field hf => ?_, h.held⟩
  rcases Fields.mem_insert hf with rfl | hf
  · exact captures
  · exact h.handlers field hf

theorem captures_frame (h : s.Sound q) : ∀ field ∈ s.frame, field.2.All q := by
  unfold EvalState.frame
  cases frames : s.frames with
  | nil => simp
  | cons frame rest => exact h.frames frame (frames ▸ List.mem_cons_self)

theorem sound_enterCall {c : Closure} {args : List Value} (h : s.Sound q) (captures : c.Captures q)
    (good : ∀ v ∈ args, v.All q) :
    (s.enterCall (Fields.extend c.captured (c.params.zip args))).Sound q := by
  refine ⟨fun frame hf field hfield => ?_, h.handlers, h.held⟩
  rcases List.mem_cons.1 hf with rfl | hf
  · rcases Fields.mem_extend hfield with hfield | hfield
    · exact captures field hfield
    · exact good field.2 (List.of_mem_zip hfield).2
  · exact h.frames frame hf field hfield

theorem sound_leaveCall (h : t.Sound q) : t.leaveCall.Sound q :=
  ⟨fun frame hf => h.frames frame (List.mem_of_mem_tail hf), h.handlers, h.held⟩

theorem sound_enterWidget (h : s.Sound q) : s.enterWidget.Sound q := by
  refine ⟨h.frames, h.handlers, ?_, h.held⟩
  intro w hw
  exact nomatch hw

theorem sound_leaveWidget (steady : s.enterWidget.Steady t) (h : t.Sound q) :
    t.leaveWidget.Sound q ∧
      ∀ w ∈ t.attached, w.Fitting q (t.leaveWidget.widgetDepth + 1) ∧ w.kind ≠ .window := by
  have depth : t.widgetDepth = s.widgetDepth + 1 := steady.widgetDepth
  have left : t.leaveWidget.widgetDepth = s.widgetDepth := by
    change t.widgetDepth - 1 = s.widgetDepth
    rw [depth]
    rfl
  have held := h.held
  rw [steady.targets_enterWidget, depth] at held
  obtain ⟨row, rest⟩ := held
  refine ⟨⟨h.frames, h.handlers, ?_⟩, ?_⟩
  · rw [left]
    change Target.Held q s.widgetDepth t.targets.tail
    rw [steady.targets.tail_eq]
    exact rest
  · rw [left]
    exact row

theorem fitting_build (closed : Buildable q) {kind : Kind} {id : String} {props : Properties}
    {ws : List Widget} {pos : Position} (open_ : levels < Widget.maxDepth) (named : id ≠ "")
    (good : props.Regular ∧ "id" ∉ Fields.keys props) (leaf : kind.isContainer = true ∨ ws = [])
    (row : ∀ w ∈ ws, w.Fitting q (levels + 1) ∧ w.kind ≠ .window) :
    Widget.Fitting q levels ⟨kind, id, props, ws, pos⟩ := by
  refine ⟨closed.built _ _ _ _ _ named good.2 good.1 leaf fun c hc => (row c hc).1.good, ?_, ?_⟩
  · intro c hc
    obtain ⟨fits, other⟩ := row c hc
    rw [Widget.containsWindow_eq_false_iff, Widget.preorder_eq, List.forall_mem_cons]
    exact ⟨other, Widget.containsWindow_children_iff.1 fits.inner⟩
  · have below : Widget.depthAll ws ≤ Widget.maxDepth - (levels + 1) := by
      rw [Widget.depthAll_le_iff]
      intro c hc
      have := (row c hc).1.room
      omega
    rw [Widget.depth_eq]
    change levels + (1 + Widget.depthAll ws) ≤ Widget.maxDepth
    omega

theorem holds_add {target : Target} {w : Widget} (held : target.Holds q levels)
    (takes : target.Takes w) (fits : w.Fitting q levels) : (target.add [w]).Holds q levels := by
  cases target <;> exact List.forall_mem_append.2 ⟨held, List.forall_mem_singleton.2 ⟨fits, takes⟩⟩

theorem sound_attach {w : Widget} {u : Unit} (h : s.Sound q) (fits : w.Fitting q s.widgetDepth)
    (run : Yields (attach w) s u t) : t.Sound q ∧ s.Steady t := by
  refine ⟨?_, attach_steady run⟩
  rcases attach_added run with ⟨-, rfl⟩ | ⟨target, ts, here, takes, rfl⟩
  · exact h
  · obtain ⟨newest, older⟩ := here ▸ h.held
    exact ⟨h.frames, h.handlers, holds_add newest takes fits, older⟩

theorem all_literal (l : Literal) : (literal l).All q := by
  cases l <;> simp [literal]

theorem sound_lawful (closed : Buildable q)
    (readable : ∀ w, q w → ∀ field ∈ w.props, field.2.Regular) : (sound q).Lawful where
  refl := EvalState.Steady.refl
  trans := EvalState.Steady.trans
  level steady := steady.widgetDepth
  literal := all_literal
  str text := (Value.all_str : (Value.str text).All q)
  symbol name := (Value.all_symbol : (Value.symbol name).All q)
  list _ good := Value.all_list.2 good
  emptyMap := Value.all_map.2 ⟨List.nodup_nil, by simp⟩
  insert _ _ _ good hv := Value.all_map_insert good hv
  unary _ _ _ _ h := Value.all_unary h
  binary _ _ _ _ hl hr h := Value.all_binary hl hr h
  index _ _ _ hv h := Value.all_index closed readable hv h
  field _ _ _ hv h := Value.all_field closed readable hv h
  builtin _ _ _ _ h := Builtin.all_call h
  noProps := ⟨Properties.regular_nil, by simp⟩
  addProp props key v p good hv other coerced := by
    refine ⟨good.1.insert (Property.regular_of_coerce hv coerced), ?_⟩
    rw [Fields.mem_keys_insert, not_or]
    exact ⟨Ne.symm other, good.2⟩
  lookup _ _ _ h found := all_of_lookup h found
  function _ _ _ h found := h.handlers _ (Fields.mem_of_get? found)
  log s lines h := ⟨⟨h.frames, h.handlers, h.held⟩, s.steady_log lines⟩
  assign s name v h hv := ⟨sound_assign h hv, s.steady_assign name v⟩
  define s name params body pos h _ _ _ :=
    ⟨sound_define h (captures_frame h), s.steady_define _⟩
  enterBlock _ h := ⟨h.frames, h.handlers, h.held⟩
  leaveBlock _ _ _ steady h := ⟨⟨h.frames, h.handlers, h.held⟩, steady.leaveBlock⟩
  enterCall _ _ _ h captures good := sound_enterCall h captures good
  leaveCall _ _ _ _ steady h := ⟨sound_leaveCall h, steady.leaveCall⟩
  enterWidget _ h _ := sound_enterWidget h
  leaveWidget _ _ _ steady h := by
    obtain ⟨left, row⟩ := sound_leaveWidget steady h
    exact ⟨left, steady.leaveWidget, row⟩
  noRow _ := by
    intro w hw
    exact nomatch hw
  build s kind id props ws pos _ room named good leaf row := by
    have fits : Widget.Fitting q s.widgetDepth ⟨kind, id, props, ws, pos⟩ :=
      fitting_build closed room named good leaf row
    exact ⟨fits, Value.all_node.2 fits.good⟩
  attach _ _ _ _ h fits run := sound_attach h fits run

theorem sound_stmts (closed : Buildable q)
    (readable : ∀ w, q w → ∀ field ∈ w.props, field.2.Regular) {depth : Nat} {body : List Stmt}
    {v : Value} (h : s.Sound q) (run : Yields (stmts (invoke depth depth) .nil body) s v t) :
    t.Sound q ∧ s.Steady t ∧ v.All q :=
  Discipline.stmts_keeps (sound_lawful closed readable)
    (Discipline.invoke_keeps (sound_lawful closed readable) depth depth) body .nil
    (Value.all_nil : Value.nil.All q) s h v t run

end Eval

def Handlers.Sound (q : Widget → Prop) (handlers : Handlers) : Prop :=
  ∀ field ∈ handlers, field.2.Captures q

theorem EvalState.sound_start {handlers : Handlers} {targets : List Target}
    (h : handlers.Sound q) (held : Target.Held q 0 targets) : (start handlers targets).Sound q := by
  refine ⟨fun frame hf field hfield => ?_, h, held⟩
  rw [List.mem_singleton.1 hf] at hfield
  exact absurd hfield List.not_mem_nil

section
variable (closed : Buildable q) (readable : ∀ w, q w → ∀ field ∈ w.props, field.2.Regular)
include closed readable

theorem Script.evaluate_sound {script : Script} {depth : Nat} {ev : Evaluation}
    (h : (script.evaluate depth).1 = .ok ev) :
    ev.forest.Distinct ∧ (∀ r ∈ ev.forest.roots, r.Fitting q 0 ∧ r.kind = .window) ∧
      ev.handlers.Sound q := by
  obtain ⟨v, s, run, rfl, distinct⟩ := Script.evaluate_eq_ok h
  have start : (EvalState.start [] [.roots []]).Sound q :=
    EvalState.sound_start (fun _ hf => nomatch hf) ⟨(fun _ hw => nomatch hw), trivial⟩
  obtain ⟨sound, steady, _⟩ := Eval.sound_stmts closed readable start run
  refine ⟨distinct, ?_, sound.handlers⟩
  have grown : Target.Grown [.roots []] s.targets := steady.targets
  have held : Target.Held q s.widgetDepth s.targets := sound.held
  have depth : s.widgetDepth = 0 := steady.widgetDepth
  change ∀ r ∈ s.attached, r.Fitting q 0 ∧ r.kind = .window
  unfold EvalState.attached
  generalize s.targets = targets at grown held
  cases grown with
  | newest more =>
    rw [depth] at held
    exact held.1

theorem Handlers.call_sound {handlers : Handlers} {c : Closure} {args : List Value} {depth : Nat}
    {v : Value} (h : handlers.Sound q) (captures : c.Captures q) (good : ∀ a ∈ args, a.All q)
    (called : (handlers.call c args depth).1 = .ok v) : v.All q := by
  have start : (EvalState.start handlers []).Sound q := EvalState.sound_start h trivial
  unfold Handlers.call at called
  have lawful := Eval.sound_lawful closed readable
  refine (Eval.Discipline.invoke_keeps lawful depth depth _ c args c.pos captures good start v
    _ (Prod.ext called rfl)).2.2

end
end WidgetScript
