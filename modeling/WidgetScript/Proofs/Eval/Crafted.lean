import WidgetScript.Proofs.Eval.Restore
import WidgetScript.Proofs.Property.Canonical
import WidgetScript.Proofs.WellFormed

/-! What every widget call makes, in whatever state it is run. Nothing has to be known of the
variables and the widgets that there are, since no widget becomes a property and a block attaches
only what its own calls build. -/
namespace WidgetScript

structure Properties.Stored (props : Properties) : Prop where
  distinct : (Fields.keys props).Nodup
  canonical : ∀ field ∈ props, Property.Canonical field.1 field.2

theorem Properties.Stored.insert {props : Properties} {key : String} {v : Value} {p : Property}
    (h : props.Stored) (coerced : Property.coerce key v = .ok (some p)) :
    Properties.Stored (Fields.insert key p props) where
  distinct := Fields.nodup_insert h.distinct
  canonical field mem := by
    rcases Fields.mem_insert mem with rfl | old
    · exact Property.canonical_of_coerce coerced
    · exact h.canonical field old

namespace Widget

def Crafted (w : Widget) : Prop := w.Each fun n => n.Proper ∧ n.props.Stored

/-- Some run of a widget call builds it; as a statement and as an expression this is the same. -/
def MadeByCall (w : Widget) : Prop :=
  ∃ limit levels kind args kwargs blk pos s t,
    let call := Eval.invoke limit levels
    Eval.Yields (Eval.build kind args (Eval.widgetArgs call kind ⟨none, []⟩ kwargs)
      (Eval.children call kind blk) pos) s w t

end Widget

structure EvalState.Extended (s t : EvalState) : Prop where
  steady : s.Steady t
  attached : ∃ more, t.attached = s.attached ++ more ∧ ∀ w ∈ more, w.Crafted

namespace EvalState
variable {s t u : EvalState}

theorem Extended.of_eq (steady : s.Steady t) (same : t.attached = s.attached) : s.Extended t :=
  ⟨steady, [], by rw [same, List.append_nil], nofun⟩

theorem Extended.refl (s : EvalState) : s.Extended s := .of_eq (.refl s) rfl

theorem Extended.trans (first : s.Extended t) (second : t.Extended u) : s.Extended u := by
  obtain ⟨more, added, crafted⟩ := first.attached
  obtain ⟨more', added', crafted'⟩ := second.attached
  refine ⟨first.steady.trans second.steady, more ++ more', ?_,
    List.forall_mem_append.2 ⟨crafted, crafted'⟩⟩
  rw [added', added, List.append_assoc]

theorem Extended.crafted (h : s.enterWidget.Extended t) : ∀ w ∈ t.attached, w.Crafted := by
  obtain ⟨more, added, crafted⟩ := h.attached
  rw [added]
  exact crafted

theorem Extended.leaveWidget (h : s.enterWidget.Extended t) : s.Extended t.leaveWidget :=
  .of_eq h.steady.leaveWidget h.steady.attached_leaveWidget

end EvalState

namespace Eval

theorem attach_extended {w : Widget} {u : Unit} {s t : EvalState} (crafted : w.Crafted)
    (run : Yields (attach w) s u t) : s.Extended t := by
  refine ⟨attach_steady run, ?_⟩
  rcases attach_attached run with ⟨-, rfl⟩ | added
  · exact ⟨[], (List.append_nil _).symm, nofun⟩
  · exact ⟨[w], added, List.forall_mem_singleton.2 crafted⟩

def crafting : Discipline where
  inv _ := True
  rel := EvalState.Extended
  value _ := True
  props props := props.Stored ∧ "id" ∉ Fields.keys props
  closure _ := True
  widget _ w := w.Crafted
  row _ ws := ∀ w ∈ ws, w.Crafted

theorem crafting_lawful : crafting.Lawful where
  refl := .refl
  trans := .trans
  level h := h.steady.widgetDepth
  literal _ := trivial
  str _ := trivial
  symbol _ := trivial
  list _ _ := trivial
  emptyMap := trivial
  insert _ _ _ _ _ := trivial
  unary _ _ _ _ _ := trivial
  binary _ _ _ _ _ _ _ := trivial
  index _ _ _ _ _ := trivial
  field _ _ _ _ _ := trivial
  builtin _ _ _ _ _ := trivial
  noProps := ⟨⟨List.nodup_nil, nofun⟩, nofun⟩
  addProp _ _ _ _ good _ other coerced := by
    refine ⟨good.1.insert coerced, ?_⟩
    rw [Fields.mem_keys_insert, not_or]
    exact ⟨Ne.symm other, good.2⟩
  lookup _ _ _ _ _ := trivial
  function _ _ _ _ _ := trivial
  log s lines _ := ⟨trivial, .of_eq (s.steady_log lines) rfl⟩
  assign s name v _ _ := ⟨trivial, .of_eq (s.steady_assign name v) (s.attached_assign name v)⟩
  define s _ _ _ _ _ _ _ _ := ⟨trivial, .of_eq (s.steady_define _) rfl⟩
  enterBlock _ _ := trivial
  leaveBlock _ _ _ h _ := ⟨trivial, h.steady.leaveBlock, h.attached⟩
  enterCall _ _ _ _ _ _ := trivial
  leaveCall _ _ _ _ h _ := ⟨trivial, h.steady.leaveCall, h.attached⟩
  enterWidget _ _ _ := trivial
  leaveWidget _ _ _ h _ := ⟨trivial, h.leaveWidget, h.crafted⟩
  noRow _ := nofun
  build _ _ _ _ _ _ _ _ named props leaf row :=
    ⟨Widget.each_iff.2 ⟨⟨⟨named, leaf, props.2⟩, props.1⟩, row⟩, trivial⟩
  attach _ _ _ _ _ crafted run := ⟨trivial, attach_extended crafted run⟩

end Eval

theorem Widget.MadeByCall.crafted {w : Widget} (h : w.MadeByCall) : w.Crafted := by
  obtain ⟨limit, levels, kind, args, kwargs, blk, pos, s, t, run⟩ := h
  have lawful := Eval.crafting_lawful
  have calls := Eval.Discipline.invoke_keeps lawful limit levels
  have given := Eval.Discipline.widgetArgs_keeps lawful calls kind kwargs ⟨none, []⟩ lawful.noProps
    nofun
  have below := Eval.Discipline.children_keeps lawful calls kind blk
  exact (Eval.Discipline.keeps_build lawful given below trivial w t run).2.2.1

end WidgetScript
