import WidgetScript.Directive.Apply
import WidgetScript.Proofs.Forest.Swap
import WidgetScript.Proofs.Outcome

/-! All that a directive can make of its target, with what its checks have made sure of. -/
namespace WidgetScript

namespace Widget
variable {id : String}

mutual

theorem find?_eq_none_iff : (w : Widget) → (find? id w = none ↔ id ∉ w.ids)
  | ⟨kind, name, props, children, pos⟩ => by
    rw [find?, ids_eq, List.mem_cons, not_or, ← findAmong?_eq_none_iff children]
    split
    next h => simp [h]
    next h => simp [Ne.symm h]

theorem findAmong?_eq_none_iff : (ws : List Widget) → (findAmong? id ws = none ↔ id ∉ idsAll ws)
  | [] => by simp [findAmong?]
  | w :: ws => by
    rw [findAmong?, idsAll_cons, List.mem_append, not_or, ← find?_eq_none_iff w,
      ← findAmong?_eq_none_iff ws]
    cases find? id w <;> simp

end

theorem takeSibling?_eq_some {ws rest : List Widget} {found : Widget}
    (h : takeSibling? id ws = some (found, rest)) :
    found.id = id ∧ ∃ before after, ws = before ++ found :: after ∧ rest = before ++ after := by
  induction ws generalizing rest with
  | nil => exact nomatch h
  | cons w ws ih =>
    rw [takeSibling?] at h
    split at h
    next same =>
      cases h
      exact ⟨same, [], ws, rfl, rfl⟩
    next =>
      obtain ⟨⟨found', rest'⟩, h', h⟩ := Option.map_eq_some_iff.1 h
      cases h
      obtain ⟨same, before, after, rfl, rfl⟩ := ih h'
      exact ⟨same, w :: before, after, rfl, rfl⟩

theorem takeSibling?_sublist {ws rest : List Widget} {found : Widget}
    (h : takeSibling? id ws = some (found, rest)) : rest.Sublist ws := by
  obtain ⟨_, before, after, rfl, rfl⟩ := takeSibling?_eq_some h
  exact (List.sublist_cons_self found after).append_left before

end Widget

theorem Forest.contains_iff {f : Forest} {id : String} : f.contains id = true ↔ id ∈ f.ids := by
  rw [Forest.contains, Option.isSome_iff_ne_none, Ne, Forest.find?,
    Widget.findAmong?_eq_none_iff, not_not]
  rfl

namespace Directive
variable {forest : Forest} {live : LiveTree} {d : Directive} {target w : Widget}
  {parent : Option String} {above : Nat} {replaced : List String} {action : Action}

theorem firstClash?_eq_none_iff {taken : String → Bool} {seen ids : List String} :
    firstClash? taken seen ids = none ↔
      ids.Nodup ∧ ∀ id ∈ ids, id ∉ seen ∧ taken id = false := by
  induction ids generalizing seen with
  | nil => simp [firstClash?]
  | cons id ids ih =>
    rw [firstClash?]
    split
    next clash =>
      simp only [reduceCtorEq, false_iff, not_and]
      intro _ fresh
      obtain ⟨new, free⟩ := fresh id List.mem_cons_self
      rw [free] at clash
      simp [new] at clash
    next clash =>
      rw [not_or, Bool.not_eq_true] at clash
      rw [ih, List.nodup_cons, List.forall_mem_cons]
      simp only [List.mem_cons, not_or]
      constructor
      · rintro ⟨distinct, fresh⟩
        exact ⟨⟨fun mem => (fresh id mem).1.1 rfl, distinct⟩, clash,
          fun c hc => ⟨(fresh c hc).1.2, (fresh c hc).2⟩⟩
      · rintro ⟨⟨absent, distinct⟩, _, fresh⟩
        exact ⟨distinct, fun c hc => ⟨⟨fun eq => absent (eq ▸ hc), (fresh c hc).1⟩, (fresh c hc).2⟩⟩

/-- What the checks make sure of before a widget comes into the forest, in the place of a
subtree with the ids `replaced` or of nothing. -/
structure Admitted (forest : Forest) (live : LiveTree) (replaced : List String)
    (parent : Option String) (above : Nat) (w : Widget) : Prop where
  once : w.ids.Nodup
  fresh : ∀ id ∈ w.ids, id ∈ forest.ids → id ∈ replaced
  kinds : ∀ p n e, (p, n) ∈ w.placed parent → live.get? n.id = some e → e.parent = p →
    e.kind = n.kind
  room : above + w.depth ≤ Widget.maxDepth

theorem checkIds_eq_ok (h : checkIds forest replaced action w = .ok ()) :
    w.ids.Nodup ∧ ∀ id ∈ w.ids, id ∈ forest.ids → id ∈ replaced := by
  unfold checkIds at h
  dsimp only at h
  split at h
  · exact nomatch h
  next none =>
    obtain ⟨once, fresh⟩ := firstClash?_eq_none_iff.1 none
    refine ⟨once, fun id hid mem => ?_⟩
    have free := (fresh id hid).2
    rw [Forest.contains_iff.2 mem, Bool.true_and, Bool.not_eq_false'] at free
    exact List.contains_iff_mem.1 free

theorem checkKinds_eq_ok (h : checkKinds live parent w = .ok ()) {p : Option String} {n : Widget}
    {e : Entity} (hn : (p, n) ∈ w.placed parent) (found : live.get? n.id = some e)
    (under : e.parent = p) : e.kind = n.kind := by
  unfold checkKinds at h
  dsimp only at h
  split at h
  · exact nomatch h
  next none =>
    by_contra other
    have clash := List.findSome?_eq_none_iff.1 none _ hn
    simp [found, under, other] at clash

theorem checkDepth_eq_ok (h : checkDepth above w = .ok ()) :
    above + w.depth ≤ Widget.maxDepth := by
  unfold checkDepth at h
  split at h
  · exact nomatch h
  next fits => exact Nat.le_of_not_lt fits

/-- All that a directive can make of its target. -/
inductive Changes (forest : Forest) (live : LiveTree) (d : Directive) (target : Widget) :
    Widget → Prop where
  | set {setter : Setter} {given : List (String × Value)} {ps : List (String × Option Property)} :
      d.action = .set setter → assignments setter d.value = .ok given →
      coerceAll given = .ok ps →
      Changes forest live d target { target with props := assign target.props ps }
  | append {child : Widget} :
      d.action = .appendChild → Widget.ofValue d.value = .ok child →
      target.kind.isContainer = true → child.containsWindow = false →
      Admitted forest live [] (some d.target) ((forest.level? d.target).getD 1) child →
      Changes forest live d target { target with children := target.children ++ [child] }
  | remove {id : String} {found : Widget} {rest : List Widget} :
      d.action = .removeChild → d.value.str? = some id →
      Widget.takeSibling? id target.children = some (found, rest) →
      Changes forest live d target { target with children := rest }
  | replace {w : Widget} :
      d.action = .replace → Widget.ofValue d.value = .ok w → w.id = d.target →
      (∀ c ∈ w.children, c.containsWindow = false) →
      (w.kind = .window ↔ forest.roots.any (·.id = d.target) = true) →
      Admitted forest live target.ids (forest.parent? d.target)
        ((forest.level? d.target).getD 1 - 1) w →
      Changes forest live d target w

theorem changes_of_change (h : d.change forest live target = .ok w) :
    Changes forest live d target w := by
  unfold change at h
  dsimp only at h
  cases action : d.action with
  | set setter =>
    simp only [action, bind_eq_ok, mapError_eq_ok, Except.ok.injEq] at h
    obtain ⟨given, assigned, ps, coerced, rfl⟩ := h
    exact .set action assigned coerced
  | appendChild =>
    simp only [action, bind_eq_ok, mapError_eq_ok] at h
    obtain ⟨child, value, h⟩ := h
    split at h
    · exact nomatch h
    next container =>
      split at h
      · exact nomatch h
      next noWindow =>
        simp only [bind_eq_ok, mapError_eq_ok, Except.ok.injEq] at h
        obtain ⟨⟨⟩, ids, ⟨⟩, kinds, ⟨⟩, depth, rfl⟩ := h
        obtain ⟨once, fresh⟩ := checkIds_eq_ok ids
        refine .append action value (by simpa using container) (by simpa using noWindow)
          ⟨once, fresh, ?_, checkDepth_eq_ok depth⟩
        intro p n e hn found under
        exact checkKinds_eq_ok kinds hn found under
  | removeChild =>
    simp only [action] at h
    split at h
    · exact nomatch h
    next id name =>
      split at h
      · exact nomatch h
      next found rest taken =>
        cases h
        exact .remove action name taken
  | replace =>
    simp only [action, bind_eq_ok, mapError_eq_ok] at h
    obtain ⟨w', value, h⟩ := h
    split at h
    · exact nomatch h
    next same =>
      split at h
      · exact nomatch h
      next placement =>
        simp only [bind_eq_ok, mapError_eq_ok, Except.ok.injEq] at h
        obtain ⟨⟨⟩, ids, ⟨⟩, kinds, ⟨⟩, depth, rfl⟩ := h
        obtain ⟨once, fresh⟩ := checkIds_eq_ok ids
        rw [Bool.not_eq_true, Bool.or_eq_false_iff, List.any_eq_false] at placement
        obtain ⟨below, top⟩ := placement
        refine .replace action value (not_not.1 same) ?_ ?_
          ⟨once, fresh, ?_, checkDepth_eq_ok depth⟩
        · intro c hc
          simpa using below c hc
        · rw [bne_eq_false_iff_eq] at top
          rw [← top, beq_iff_eq]
        · intro p n e hn found under
          exact checkKinds_eq_ok kinds hn found under

end Directive
end WidgetScript
