import WidgetScript.Proofs.Directive.Change
import WidgetScript.Proofs.Property.Canonical

/-! Setting a property to what it is read as. The value becomes the same property again, under
whatever key it is stored, so a directive that does so leaves the declaration as it is. -/
namespace WidgetScript

theorem Fields.insert_eq_self {α : Type} {fields : Fields α} {key : String} {value : α}
    (h : Fields.get? fields key = some value) : Fields.insert key value fields = fields := by
  induction fields with
  | nil => exact nomatch h
  | cons field rest ih =>
    obtain ⟨k, v⟩ := field
    rw [Fields.get?_cons] at h
    rw [Fields.insert]
    split at h
    next same =>
      cases h
      rw [if_pos same, same]
    next other => rw [if_neg other, ih h]

theorem Widget.Swap.eq_of_same {old : Widget} {place parent : Option String} {above : Nat}
    {ws ws' : List Widget} (h : Swap old old place parent above ws ws') : ws' = ws := by
  induction h with
  | here => rfl
  | @inside _ _ w _ _ _ ih =>
    cases w
    rw [ih]
  | beside _ ih => rw [ih]

theorem Forest.edit_self {f : Forest} {id : String} {old : Widget} (h : f.find? id = some old) :
    (f.edit id fun _ => old) = f := by
  obtain ⟨_, _, _, _, swap⟩ := Forest.swap_of_find? old h
  exact congrArg Forest.mk swap.eq_of_same

namespace Directive
open Property
variable {props : Properties} {given : List (String × Value)} {ps : List (String × Option Property)}

/-- The entry is of a property that has been stored under its key, and gives what it is read as. -/
def ReadBack (props : Properties) (entry : String × Value) : Prop :=
  ∃ v p, coerce entry.1 v = .ok (some p) ∧ Fields.get? props entry.1 = some p ∧
    entry.2 = Value.ofProperty p

theorem assign_read_back (h : ∀ entry ∈ given, entry.1 ≠ "id" ∧ ReadBack props entry) :
    ∃ ps, coerceAll given = .ok ps ∧ assign props ps = props := by
  induction given with
  | nil => exact ⟨[], rfl, rfl⟩
  | cons entry rest ih =>
    obtain ⟨key, _⟩ := entry
    rw [List.forall_mem_cons] at h
    obtain ⟨⟨other, v, p, stored, found, rfl⟩, later⟩ := h
    obtain ⟨ps, coerced, same⟩ := ih later
    have again : coerce key (Value.ofProperty p) = .ok (some p) :=
      coerce_ofProperty (canonical_of_coerce stored)
    refine ⟨(key, some p) :: ps, ?_, ?_⟩
    · rw [coerceAll, if_neg other, again, coerced]
      rfl
    · rw [assign, Fields.insert_eq_self found, same]

/-- What a stored property is read as becomes the same property under the same key. So a directive
that sets properties of its target to what they are read as changes nothing. -/
theorem read_back_changes_nothing :
    (∀ key v p, coerce key v = .ok (some p) →
      coerce key (Value.ofProperty p) = .ok (some p)) ∧
    ∀ (d : Directive) setter given forest live target, d.action = .set setter →
      forest.find? d.target = some target → assignments setter d.value = .ok given →
      (∀ entry ∈ given, entry.1 ≠ "id" ∧ ReadBack target.props entry) →
      d.apply forest live = .ok forest := by
  constructor
  · intro key v p stored
    exact coerce_ofProperty (canonical_of_coerce stored)
  · intro d setter given forest live target action found assigned readBack
    obtain ⟨ps, coerced, same⟩ := assign_read_back readBack
    have kept : { target with props := assign target.props ps } = target := by
      rw [same]
      cases target
      rfl
    have changed : d.change forest live target = .ok target := by
      simp only [change, action, assigned, bind_eq_ok, mapError_eq_ok]
      exact ⟨given, rfl, ps, coerced, congrArg Except.ok kept⟩
    rw [Directive.apply, found]
    exact bind_eq_ok.2 ⟨target, changed, congrArg Except.ok (Forest.edit_self found)⟩

/-- A map with a handler, a polyline, a list of a symbol and a text, and an entry that is nil. -/
theorem read_back_changes_nothing_style :
    let pair (x y : Float) : Value := .list [.number x, .number y]
    let v : Value := .map [("on_tap", .symbol "save"), ("path", .list [pair 0 1, pair 2 3]),
      ("tags", .list [.symbol "a", .str "b"]), ("gone", .nil)]
    let p : Property := .record [("on_tap", .handler "save"), ("path", .points [⟨0, 1⟩, ⟨2, 3⟩]),
      ("tags", .list [.str "a", .str "b"])]
    let forest : Forest := ⟨[⟨.window, "w", [("size", .number 1), ("data", p)], [], .none⟩]⟩
    let d : Directive := ⟨"w", .set .style, .map [("data", Value.ofProperty p)]⟩
    coerce "data" v = .ok (some p) ∧ coerce "data" (Value.ofProperty p) = .ok (some p) ∧
      d.apply forest .empty = .ok forest := by
  intro pair v p forest d
  have stored : coerce "data" v = .ok (some p) := by rfl
  refine ⟨stored, read_back_changes_nothing.1 _ _ _ stored, ?_⟩
  refine read_back_changes_nothing.2 d .style _ forest .empty _ rfl rfl rfl ?_
  rw [List.forall_mem_singleton]
  exact ⟨by decide, v, p, stored, rfl, rfl⟩

end Directive
end WidgetScript
