import WidgetScript.Eval.Builtin
import WidgetScript.Eval.Operators
import WidgetScript.Proofs.Outcome
import WidgetScript.Proofs.Value

/-! No operator and no builtin function makes a widget, so what one gives has only widgets
that it was given, or children of these. -/
namespace WidgetScript

/-- A property of widgets that a widget has as soon as it is built properly of widgets that
have it, and that passes on to its children. -/
structure Buildable (q : Widget → Prop) : Prop where
  built : ∀ kind id (props : Properties) children pos, id ≠ "" → "id" ∉ Fields.keys props →
    props.Regular → (kind.isContainer = true ∨ children = []) → (∀ c ∈ children, q c) →
    q ⟨kind, id, props, children, pos⟩
  child : ∀ w, q w → ∀ c ∈ w.children, q c

namespace Value
variable {q : Widget → Prop} {l r v t k : Value}

theorem all_unary {op : UnaryOp} (h : unary op t = .ok v) : v.All q := by
  unfold unary at h
  split at h
  · cases h
    exact all_bool
  · cases h
    exact all_number
  · exact nomatch h

theorem all_order {op : BinaryOp} {fault : TypeFault}
    (h : (match l, r with
      | .number a, .number b => (.ok (.bool (compareNumbers op a b)) : Except TypeFault Value)
      | l, r =>
          match l.str?, r.str? with
          | some a, some b => .ok (.bool (compareTexts op a b))
          | _, _ => .error fault) = .ok v) : v.All q := by
  split at h
  · cases h
    exact all_bool
  · split at h
    · cases h
      exact all_bool
    · exact nomatch h

theorem all_binary {op : BinaryOp} (hl : l.All q) (hr : r.All q) (h : binary op l r = .ok v) :
    v.All q := by
  unfold binary at h
  dsimp only at h
  split at h
  next =>
    cases h
    exact all_bool
  next =>
    cases h
    exact all_bool
  next =>
    split at h
    · cases h
      exact all_number
    · cases h
      rw [all_list] at hl hr ⊢
      exact fun x hx => (List.mem_append.1 hx).elim (hl x) (hr x)
    · cases h
      exact all_str
    · exact nomatch h
  next =>
    split at h
    · cases h
      exact all_number
    · exact nomatch h
  next =>
    split at h
    · cases h
      exact all_number
    · exact nomatch h
  next =>
    split at h
    · split at h
      · exact nomatch h
      · cases h
        exact all_number
    · exact nomatch h
  next => exact all_order h
  next => exact all_order h
  next => exact all_order h
  next => exact all_order h
  next => exact nomatch h
  next => exact nomatch h

theorem all_item {items : List Value} {n : Float} (h : ∀ v ∈ items, v.All q) :
    (item items n).All q := by
  have at_index (i : Int) : (if 0 ≤ i then (items[i.toNat]?).getD .nil else .nil).All q := by
    split
    · exact all_getD fun v hv => h v (List.mem_of_getElem? hv)
    · exact all_nil
  unfold item
  split
  · exact at_index _
  · exact all_nil

section
variable (closed : Buildable q) (readable : ∀ w, q w → ∀ field ∈ w.props, field.2.Regular)
include closed readable

theorem all_ofWidgetField {w : Widget} {name : String} (h : q w) :
    (ofWidgetField w name).All q := by
  unfold ofWidgetField
  split
  · exact all_str
  · exact all_str
  · rw [all_list]
    intro v hv
    obtain ⟨c, hc, rfl⟩ := List.mem_map.1 hv
    exact all_node.2 (closed.child w h c hc)
  · refine all_getD fun v hv => ?_
    obtain ⟨p, hp, rfl⟩ := Option.map_eq_some_iff.1 hv
    exact all_ofProperty p (readable w h _ (Fields.mem_of_get? hp))

theorem all_index (ht : t.All q) (h : index t k = .ok v) : v.All q := by
  unfold index at h
  dsimp only at h
  split at h
  · cases h
    exact all_item (all_list.1 ht)
  · cases h
    refine all_item fun v hv => ?_
    obtain ⟨x, _, rfl⟩ := List.mem_map.1 hv
    simp [All, AllItems]
  · cases h
    refine all_item fun v hv => ?_
    obtain ⟨x, _, rfl⟩ := List.mem_map.1 hv
    exact all_str
  · split at h
    · cases h
      exact all_getD fun v hv => all_get? (all_map.1 ht).2 hv
    · exact nomatch h
  · split at h
    · cases h
      exact all_ofWidgetField closed readable (all_node.1 ht)
    · exact nomatch h
  · exact nomatch h

theorem all_field {name : String} (ht : t.All q) (h : field t name = .ok v) : v.All q := by
  unfold field at h
  dsimp only at h
  split at h
  · cases h
    exact all_getD fun v hv => all_get? (all_map.1 ht).2 hv
  · cases h
    exact all_ofWidgetField closed readable (all_node.1 ht)
  · split at h
    · cases h
      exact all_number
    · cases h
      exact all_number
    · cases h
      exact all_number
    · cases h
      exact all_number
    · exact nomatch h
  · exact nomatch h

end

end Value

theorem Builtin.all_call {q : Widget → Prop} {b : Builtin} {args : List Value} {v : Value}
    {lines : List LogLine} (h : b.call args = .ok (v, lines)) : v.All q := by
  have silent {r : Except SemanticFault Value} (inner : ∀ v, r = .ok v → v.All q)
      (h : (r.map fun v => (v, ([] : List LogLine))) = .ok (v, lines)) : v.All q := by
    obtain ⟨v', hv', h⟩ := map_eq_ok.1 h
    cases h
    exact inner v hv'
  have unary {b : Builtin} {f : Value → Except TypeFault Value}
      (inner : ∀ arg v, f arg = .ok v → v.All q) :
      ∀ v, unaryArg b args f = .ok v → v.All q := by
    intro v h
    unfold unaryArg at h
    split at h
    · exact inner _ v (mapError_eq_ok.1 h)
    · exact nomatch h
  have colors (b : Builtin) (n : Nat) : ∀ v, color b n args = .ok v → v.All q := by
    intro v h
    unfold color at h
    split at h
    · exact nomatch h
    · split at h
      · exact nomatch h
      · dsimp only at h
        split at h
        · cases h
          exact Value.all_color
        · exact nomatch h
  unfold call at h
  dsimp only at h
  split at h
  · exact silent (colors _ _) h
  · exact silent (colors _ _) h
  · refine silent (unary fun arg v h => ?_) h
    unfold ofHex at h
    split at h
    · split at h
      · cases h
        exact Value.all_color
      · exact nomatch h
    · exact nomatch h
  · refine silent (unary fun arg v h => ?_) h
    unfold ofPairs at h
    split at h
    · cases h
      exact Value.all_points
    · split at h
      · cases h
        exact Value.all_points
      · exact nomatch h
    · exact nomatch h
  · refine silent (unary fun arg v h => ?_) h
    cases h
    exact Value.all_str
  · refine silent (unary fun arg v h => ?_) h
    unfold count at h
    dsimp only at h
    have sized {n : Nat} (h : (.ok (.number n.toFloat) : Except TypeFault Value) = .ok v) :
        v.All q := by
      cases h
      exact Value.all_number
    split at h
    · exact sized h
    · exact sized h
    · exact sized h
    · exact sized h
    · exact sized h
    · exact sized h
    · exact nomatch h
  · cases h
    exact Value.all_nil
  · cases h
    exact Value.all_nil

end WidgetScript
