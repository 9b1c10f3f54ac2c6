import WidgetScript.Proofs.Eval.Run

/-! Whatever is opened during a run is closed again by its end: the frames and targets below
the newest are as they were, and the newest target has only grown. -/
namespace WidgetScript

def Target.add : Target → List Widget → Target
  | .roots ws, more => .roots (ws ++ more)
  | .children ws, more => .children (ws ++ more)

def Target.Takes (w : Widget) : Target → Prop
  | .roots _ => w.kind = .window
  | .children _ => w.kind ≠ .window

inductive Target.Grown : List Target → List Target → Prop where
  | outside : Grown [] []
  | newest {t : Target} {ts : List Target} (more : List Widget) : Grown (t :: ts) (t.add more :: ts)

theorem Target.add_nil (t : Target) : t.add [] = t := by
  cases t <;> simp [Target.add]

theorem Target.add_add (t : Target) (first second : List Widget) :
    (t.add first).add second = t.add (first ++ second) := by
  cases t <;> simp [Target.add]

theorem Target.widgets_add (t : Target) (more : List Widget) :
    (t.add more).widgets = t.widgets ++ more := by
  cases t <;> rfl

namespace Target.Grown
variable {ts us vs : List Target}

theorem refl (ts : List Target) : Grown ts ts := by
  cases ts with
  | nil => exact .outside
  | cons t ts =>
    have grown : Grown (t :: ts) (t.add [] :: ts) := newest []
    rwa [add_nil] at grown

theorem trans (first : Grown ts us) (second : Grown us vs) : Grown ts vs := by
  cases first with
  | outside => exact second
  | newest more =>
    cases second with
    | newest more' =>
      rw [add_add]
      exact newest _

theorem tail_eq (h : Grown ts us) : us.tail = ts.tail := by
  cases h <;> rfl

theorem length_eq (h : Grown ts us) : us.length = ts.length := by
  cases h <;> rfl

end Target.Grown

/-- From `s` to `t` everything but the newest frame and target has stayed or been restored. -/
structure EvalState.Steady (s t : EvalState) : Prop where
  frames : t.frames.tail = s.frames.tail
  height : t.frames.length = s.frames.length
  targets : Target.Grown s.targets t.targets
  blockDepth : t.blockDepth = s.blockDepth
  widgetDepth : t.widgetDepth = s.widgetDepth
  callDepth : t.callDepth = s.callDepth

namespace EvalState
variable {s t u : EvalState}

theorem Steady.refl (s : EvalState) : s.Steady s := ⟨rfl, rfl, .refl _, rfl, rfl, rfl⟩

theorem Steady.trans (first : s.Steady t) (second : t.Steady u) : s.Steady u :=
  ⟨second.frames.trans first.frames, second.height.trans first.height,
    first.targets.trans second.targets, second.blockDepth.trans first.blockDepth,
    second.widgetDepth.trans first.widgetDepth, second.callDepth.trans first.callDepth⟩

theorem steady_log (s : EvalState) (lines : List LogLine) :
    s.Steady { s with log := s.log ++ lines } :=
  ⟨rfl, rfl, .refl _, rfl, rfl, rfl⟩

theorem steady_assign (s : EvalState) (name : String) (v : Value) : s.Steady (s.assign name v) := by
  unfold assign
  split
  · exact .refl s
  next frame frames h =>
    refine ⟨?_, ?_, .refl _, rfl, rfl, rfl⟩
    · rw [h]
      rfl
    · rw [h]
      rfl

theorem attached_assign (s : EvalState) (name : String) (v : Value) :
    (s.assign name v).attached = s.attached := by
  unfold assign
  split <;> rfl

theorem steady_define (s : EvalState) (c : Closure) : s.Steady (s.define c) :=
  ⟨rfl, rfl, .refl _, rfl, rfl, rfl⟩

theorem Steady.leaveBlock (h : s.enterBlock.Steady t) : s.Steady t.leaveBlock := by
  refine ⟨h.frames, h.height, h.targets, ?_, h.widgetDepth, h.callDepth⟩
  change t.blockDepth - 1 = s.blockDepth
  rw [h.blockDepth]
  rfl

theorem Steady.leaveCall {frame : Fields Value} (h : (s.enterCall frame).Steady t) :
    s.Steady t.leaveCall := by
  have frames : t.frames.tail = s.frames := h.frames
  refine ⟨?_, ?_, h.targets, h.blockDepth, h.widgetDepth, ?_⟩
  · change t.frames.tail.tail = s.frames.tail
    rw [frames]
  · change t.frames.tail.length = s.frames.length
    rw [frames]
  · change t.callDepth - 1 = s.callDepth
    rw [h.callDepth]
    rfl

theorem Steady.leaveWidget (h : s.enterWidget.Steady t) : s.Steady t.leaveWidget := by
  refine ⟨h.frames, h.height, ?_, ?_, ?_, h.callDepth⟩
  · change Target.Grown s.targets t.targets.tail
    rw [h.targets.tail_eq]
    exact .refl _
  · change t.blockDepth - 1 = s.blockDepth
    rw [h.blockDepth]
    rfl
  · change t.widgetDepth - 1 = s.widgetDepth
    rw [h.widgetDepth]
    rfl

theorem Steady.targets_enterWidget (h : s.enterWidget.Steady t) :
    t.targets = .children t.attached :: s.targets := by
  have grown : Target.Grown (.children [] :: s.targets) t.targets := h.targets
  unfold attached
  generalize t.targets = ts at grown
  cases grown with
  | newest more => rfl

theorem Steady.attached_leaveWidget (h : s.enterWidget.Steady t) :
    t.leaveWidget.attached = s.attached := by
  have left : t.leaveWidget.targets = s.targets := congrArg List.tail h.targets_enterWidget
  rw [attached, left, attached]

end EvalState

namespace Eval
variable {s t : EvalState} {w : Widget} {u : Unit}

theorem attach_added (run : Yields (attach w) s u t) :
    s.targets = [] ∧ t = s ∨
      ∃ target ts, s.targets = target :: ts ∧ target.Takes w ∧
        t = { s with targets := target.add [w] :: ts } := by
  have run := yields_get_bind.1 run
  split at run
  next none => exact .inl ⟨none, (yields_pure.1 run).2⟩
  next here =>
    split at run
    next window => exact .inr ⟨_, _, here, window, yields_set.1 run⟩
    next => exact absurd run not_yields_fail
  next here =>
    split at run
    next => exact absurd run not_yields_fail
    next other => exact .inr ⟨_, _, here, other, yields_set.1 run⟩

theorem attach_attached (run : Yields (attach w) s u t) :
    s.targets = [] ∧ t = s ∨ t.attached = s.attached ++ [w] := by
  refine (attach_added run).imp_right ?_
  rintro ⟨target, ts, here, -, rfl⟩
  rw [EvalState.attached, EvalState.attached, here]
  exact target.widgets_add [w]

theorem attach_steady (run : Yields (attach w) s u t) : s.Steady t := by
  rcases attach_added run with ⟨-, rfl⟩ | ⟨target, ts, here, -, rfl⟩
  · exact .refl _
  · exact ⟨rfl, rfl, here ▸ .newest [w], rfl, rfl, rfl⟩

end Eval
end WidgetScript
