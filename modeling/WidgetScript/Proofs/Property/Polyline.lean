import WidgetScript.Eval.Builtin
import WidgetScript.Proofs.Property.Coerce

/-! The two ways to write a polyline: a list of pairs under the key `points`, and a call of the
builtin of that name. They come to the same for every list but the empty one, of which only the
builtin makes a polyline. -/
namespace WidgetScript

namespace Property
variable {items : List Value} {ps : List Point}

theorem coerce_points (finite : ∀ v ∈ items, allFinite v = true) :
    coerce "points" (.list items) = match pointsOf? items with
      | some ps => .ok (some (.points ps))
      | none => .error .expectedPairs := by
  simp only [coerce, coerceOr, allFinite, allFiniteItems_iff.2 finite]
  rfl

theorem coerce_points_points (finite : ∀ x ∈ ps, x.isFinite = true) :
    coerce "points" (.points ps) = .ok (some (.points ps)) := by
  simp only [coerce, coerceOr, allFinite, List.all_eq_true.2 finite]
  rfl

end Property

namespace Builtin
open Property
variable {items : List Value}

theorem call_points : call .points [.list items] = match items.mapM Value.point? with
    | some ps => .ok (.points ps, [])
    | none => .error (.type .expectsPairs) := by
  simp only [call, unaryArg, ofPairs]
  cases items.mapM Value.point? <;> rfl

/-- Under the key `points` a list of finite numbers is taken if it is not empty and the builtin
takes it. What the builtin makes of a list is kept, and a list that is not empty becomes the same. -/
theorem points_agree (finite : ∀ v ∈ items, allFinite v = true) :
    ((∃ q, coerce "points" (.list items) = .ok q) ↔
      items ≠ [] ∧ ∃ r, call .points [.list items] = .ok r) ∧
    ∀ v log, call .points [.list items] = .ok (v, log) → ∃ ps,
      coerce "points" v = .ok (some (.points ps)) ∧
        (items ≠ [] → coerce "points" (.list items) = .ok (some (.points ps))) := by
  rw [coerce_points finite, call_points]
  by_cases empty : items = []
  · subst empty
    have refused : ¬∃ q, (Except.error Misfit.expectedPairs : Except _ (Option Property)) = .ok q :=
      fun ⟨_, taken⟩ => nomatch taken
    refine ⟨iff_of_false refused fun h => h.1 rfl, fun v log called => ?_⟩
    cases called
    exact ⟨[], coerce_points_points (by simp), fun some => absurd rfl some⟩
  rw [pointsOf?, if_neg (by simpa using empty)]
  cases read : items.mapM Value.point? with
  | none =>
    refine ⟨iff_of_false ?_ ?_, nofun⟩
    · rintro ⟨_, taken⟩
      exact nomatch taken
    · rintro ⟨_, _, called⟩
      exact nomatch called
  | some ps =>
    refine ⟨iff_of_true ⟨_, rfl⟩ ⟨empty, _, rfl⟩, fun v log called => ?_⟩
    cases called
    exact ⟨ps, coerce_points_points (isFinite_of_mapM finite read), fun _ => rfl⟩

theorem points_agree_two :
    let pair (x y : Float) : Value := .list [.number x, .number y]
    let items := [pair 0 1.5, pair (-2) 3]
    let ps : List Point := [⟨0, 1.5⟩, ⟨-2, 3⟩]
    call .points [.list items] = .ok (.points ps, []) ∧
      coerce "points" (.points ps) = .ok (some (.points ps)) ∧
      coerce "points" (.list items) = .ok (some (.points ps)) := by
  intro pair items ps
  have finite : ∀ v ∈ items, allFinite v = true := by decide
  obtain ⟨-, same⟩ := points_agree finite
  obtain ⟨ps', kept, coerced⟩ := same (.points ps) [] rfl
  obtain rfl : ps = ps' := by
    cases kept
    rfl
  exact ⟨rfl, kept, coerced (List.cons_ne_nil _ _)⟩

/-- Of the empty list the builtin makes a polyline, and the key does not take it. -/
theorem not_points_agree : ¬∀ items : List Value, (∀ v ∈ items, allFinite v = true) →
    ((∃ r, call .points [.list items] = .ok r) ↔ ∃ q, coerce "points" (.list items) = .ok q) ∧
    ∀ v log, call .points [.list items] = .ok (v, log) →
      coerce "points" v = coerce "points" (.list items) := by
  intro agree
  have called : call .points [.list []] = .ok (.points [], []) := rfl
  have refused : coerce "points" (.list []) = .error .expectedPairs := rfl
  obtain ⟨q, taken⟩ := (agree [] (by simp)).1.1 ⟨_, called⟩
  rw [refused] at taken
  exact nomatch taken

end Builtin
end WidgetScript
