import WidgetScript.Proofs.Live.Tree

/-! What each command does to the entities, the roots and the next handle of a live tree.
A command is valid in a tree if it names what is there and creates what is not, and a run
of commands is one in which each is valid when its turn comes. -/
namespace WidgetScript

/-- A reorder has to list the children that there are, each once. -/
def Command.Valid (t : LiveTree) : Command → Prop
  | .create parent spec => (∃ siblings, t.children? parent = some siblings) ∧ t.get? spec.id = none
  | .update id _ => t.contains id = true
  | .reorder parent order =>
      ∃ siblings, t.children? parent = some siblings ∧ order.Perm siblings ∧ order.Nodup
  | .destroy id => t.contains id = true

namespace LiveTree

inductive Runs : LiveTree → List Command → LiveTree → Prop where
  | nil {t : LiveTree} : Runs t [] t
  | cons {t t' : LiveTree} {c : Command} {cs : List Command} :
      c.Valid t → Runs (t.apply c).1 cs t' → Runs t (c :: cs) t'

variable {t t' t'' : LiveTree} {parent : Option String} {id x : String} {e : Entity}
  {cs siblings : List String}

theorem Runs.append {as bs : List Command} (first : Runs t as t') (second : Runs t' bs t'') :
    Runs t (as ++ bs) t'' := by
  induction first with
  | nil => exact second
  | cons valid _ ih => exact .cons valid (ih second)

theorem Runs.single {c : Command} (valid : c.Valid t) (h : (t.apply c).1 = t') :
    Runs t [c] t' :=
  .cons valid (h ▸ .nil)

theorem Command.Valid.silent {c : Command} (valid : c.Valid t) : (t.apply c).2 = [] := by
  cases c with
  | create parent spec =>
    obtain ⟨⟨siblings, h⟩, _⟩ := valid
    simp [apply, create, h]
  | update id changed =>
    obtain ⟨e, h⟩ := contains_iff.1 valid
    simp [apply, update, h]
  | reorder parent order =>
    obtain ⟨siblings, h, _⟩ := valid
    simp [apply, reorder, h]
  | destroy id =>
    obtain ⟨e, h⟩ := contains_iff.1 valid
    simp [apply, destroy, h]

theorem Runs.applyAll_eq {cs : List Command} (h : Runs t cs t') : t.applyAll cs = (t', []) := by
  induction h with
  | nil => rfl
  | cons valid _ ih => simp [applyAll, ih, Command.Valid.silent valid]

@[simp] theorem get?_modify : (t.modify e).get? x = if e.id = x then some e else t.get? x := by
  simp [get?, modify]

@[simp] theorem modify_roots : (t.modify e).roots = t.roots := rfl

@[simp] theorem modify_nextHandle : (t.modify e).nextHandle = t.nextHandle := rfl

theorem Keyed.modify (h : t.Keyed) : (t.modify e).Keyed := by
  refine ⟨Fields.nodup_insert h.keys, fun x e' found => ?_⟩
  rw [get?_modify] at found
  split at found
  next hx =>
    cases found
    exact hx
  next => exact h.named x e' found

theorem get?_setChildren (h : t.Keyed) : (t.setChildren parent cs).get? x =
    if parent = some x then (t.get? x).map fun e => { e with children := cs } else t.get? x := by
  unfold setChildren
  cases parent with
  | none => rfl
  | some id =>
    dsimp only
    cases found : t.get? id with
    | none =>
      by_cases hx : id = x
      · subst hx
        simp [found]
      · simp [hx]
    | some e =>
      have named : e.id = id := h.named id e found
      by_cases hx : id = x
      · subst hx
        simp [found, named]
      · simp [named, hx]

@[simp] theorem setChildren_roots :
    (t.setChildren parent cs).roots = if parent = none then cs else t.roots := by
  unfold setChildren
  cases parent with
  | none => rfl
  | some id => cases h : t.get? id <;> simp [h]

@[simp] theorem setChildren_nextHandle : (t.setChildren parent cs).nextHandle = t.nextHandle := by
  unfold setChildren
  cases parent with
  | none => rfl
  | some id => cases h : t.get? id <;> simp [h]

theorem Keyed.setChildren (h : t.Keyed) : (t.setChildren parent cs).Keyed := by
  unfold LiveTree.setChildren
  cases parent with
  | none => exact ⟨h.keys, h.named⟩
  | some id =>
    dsimp only
    split
    · exact h.modify
    · exact h

theorem children?_eq_some_iff : t.children? (some id) = some cs ↔
    ∃ e, t.get? id = some e ∧ e.children = cs := by
  simp [children?]

theorem children?_setChildren (h : t.Keyed) (known : t.children? parent = some siblings) :
    (t.setChildren parent cs).children? parent = some cs := by
  cases parent with
  | none => simp [children?]
  | some id =>
    obtain ⟨e, found, _⟩ := children?_eq_some_iff.1 known
    simp [children?, get?_setChildren h, found]

theorem children?_congr (roots : t'.roots = t.roots)
    (get : ∀ id, parent = some id → t'.get? id = t.get? id) :
    t'.children? parent = t.children? parent := by
  cases parent with
  | none => simp [children?, roots]
  | some id => simp [children?, get id rfl]

section
variable {spec : Spec} {changed : Properties} {order : List String}

theorem get?_create (h : t.Keyed) (known : t.children? parent = some siblings) :
    (t.create parent spec).1.get? x =
      if spec.id = x then some ⟨t.nextHandle, spec.kind, spec.id, parent, [], spec.props⟩
      else if parent = some x then
        (t.get? x).map fun e => { e with children := siblings ++ [spec.id] }
      else t.get? x := by
  rw [← get?_setChildren h, create, known]
  simp [get?, modify]

theorem create_roots (known : t.children? parent = some siblings) :
    (t.create parent spec).1.roots =
      if parent = none then siblings ++ [spec.id] else t.roots := by
  simp [create, known]

theorem create_nextHandle (known : t.children? parent = some siblings) :
    (t.create parent spec).1.nextHandle = t.nextHandle + 1 := by
  simp [create, known]

theorem Keyed.create (h : t.Keyed) : (t.create parent spec).1.Keyed := by
  unfold LiveTree.create
  split
  · exact ⟨h.setChildren.modify.keys, h.setChildren.modify.named⟩
  · exact h

theorem get?_update (h : t.Keyed) (found : t.get? id = some e) :
    (t.update id changed).1.get? x =
      if id = x then some { e with props := Fields.extend e.props changed } else t.get? x := by
  have named : e.id = id := h.named id e found
  simp [update, found, named]

theorem update_roots : (t.update id changed).1.roots = t.roots := by
  unfold update
  split <;> rfl

theorem update_nextHandle : (t.update id changed).1.nextHandle = t.nextHandle := by
  unfold update
  split <;> rfl

theorem Keyed.update (h : t.Keyed) : (t.update id changed).1.Keyed := by
  unfold LiveTree.update
  split
  · exact h.modify
  · exact h

theorem reorder_eq (known : t.children? parent = some siblings) :
    (t.reorder parent order).1 = t.setChildren parent order := by
  simp [reorder, known]

end

end LiveTree
end WidgetScript
