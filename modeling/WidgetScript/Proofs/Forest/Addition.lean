import WidgetScript.Proofs.Directive.Change
import WidgetScript.Proofs.Directive.InPlace

/-! Edits that only add: a widget gets other properties, or children behind those it has. Two of
them commute wherever their widgets are, be it one below the other, unless one brings in the
widget that the other is for. -/
namespace WidgetScript
namespace Widget

/-- What an edit gives a widget: other properties, and children behind those it has. -/
structure Addition where
  props : Properties → Properties
  children : List Widget

def Addition.to (x : Addition) (w : Widget) : Widget :=
  { w with props := x.props w.props, children := w.children ++ x.children }

variable {id a b : String} {old : Widget} {f : Widget → Widget} {ws more : List Widget}
  {x y : Addition}

@[simp] theorem Addition.to_id (w : Widget) : (x.to w).id = w.id := rfl

@[simp] theorem Addition.to_children (w : Widget) :
    (x.to w).children = w.children ++ x.children := rfl

theorem Addition.ids_to (w : Widget) : (x.to w).ids = w.ids ++ idsAll x.children := by
  rw [ids_eq, ids_eq, Addition.to_id, Addition.to_children, idsAll_append, List.cons_append]

theorem find?_eq (w : Widget) :
    find? id w = if w.id = id then some w else findAmong? id w.children := by
  cases w
  rw [find?]

theorem level?_eq (w : Widget) :
    level? id w = if w.id = id then some 1 else (levelAmong? id w.children).map (· + 1) := by
  cases w
  rw [level?]

theorem edit?_eq_ite (w : Widget) : edit? id f w = if w.id = id then some (f w)
    else (editAmong? id f w.children).map fun children => { w with children } := by
  cases w
  rw [edit?]

mutual

theorem edit?_eq_none_iff : (w : Widget) → (edit? id f w = none ↔ id ∉ w.ids)
  | ⟨kind, name, props, children, pos⟩ => by
    rw [edit?, ids_eq, List.mem_cons, not_or, ← editAmong?_eq_none_iff children]
    split
    next h => simp [h]
    next h => simp [Ne.symm h]

theorem editAmong?_eq_none_iff : (ws : List Widget) →
    (editAmong? id f ws = none ↔ id ∉ idsAll ws)
  | [] => by simp [editAmong?]
  | w :: ws => by
    rw [editAmong?, idsAll_cons, List.mem_append, not_or, ← edit?_eq_none_iff w,
      ← editAmong?_eq_none_iff ws]
    cases edit? id f w <;> simp

end

theorem findAmong?_append (absent : id ∉ idsAll more) :
    findAmong? id (ws ++ more) = findAmong? id ws := by
  induction ws with
  | nil => exact (findAmong?_eq_none_iff more).2 absent
  | cons w ws ih => rw [List.cons_append, findAmong?, findAmong?, ih]

theorem levelAmong?_append (absent : id ∉ idsAll more) :
    levelAmong? id (ws ++ more) = levelAmong? id ws := by
  induction ws with
  | nil =>
    rw [List.nil_append]
    exact (not_found_among (f := fun w => w) more ((findAmong?_eq_none_iff more).2 absent)).2
  | cons w ws ih => rw [List.cons_append, levelAmong?, levelAmong?, ih]

theorem editAmong?_append (absent : id ∉ idsAll more) :
    editAmong? id f (ws ++ more) = (editAmong? id f ws).map (· ++ more) := by
  induction ws with
  | nil =>
    rw [List.nil_append, (editAmong?_eq_none_iff more).2 absent]
    rfl
  | cons w ws ih =>
    rw [List.cons_append, editAmong?, editAmong?, ih]
    cases edit? id f w with
    | some w' => rfl
    | none => cases editAmong? id f ws <;> rfl

namespace Swap
variable {place parent : Option String} {above : Nat} {ws' : List Widget}

theorem addition_keeps (h : Swap old (x.to old) place parent above ws ws') (other : old.id ≠ id)
    (absent : id ∉ idsAll x.children) : levelAmong? id ws' = levelAmong? id ws ∧
      (findAmong? id ws').map kind = (findAmong? id ws).map kind := by
  induction h with
  | here =>
    have level : level? id (x.to old) = level? id old := by
      rw [level?_eq, level?_eq, Addition.to_id, if_neg other, if_neg other, Addition.to_children,
        levelAmong?_append absent]
    have found : find? id (x.to old) = find? id old := by
      rw [find?_eq, find?_eq, Addition.to_id, if_neg other, if_neg other, Addition.to_children,
        findAmong?_append absent]
    rw [levelAmong?, levelAmong?, findAmong?, findAmong?, level, found]
    exact ⟨rfl, rfl⟩
  | @inside _ _ w cs ws _ ih =>
    have level : level? id { w with children := cs } = level? id w := by
      rw [level?_eq, level?_eq, ih.1]
    have found : (find? id { w with children := cs }).map kind = (find? id w).map kind := by
      rw [find?_eq, find?_eq]
      split
      · rfl
      · exact ih.2
    rw [levelAmong?, levelAmong?, findAmong?, findAmong?, level]
    refine ⟨rfl, ?_⟩
    cases hw : find? id w <;> rw [hw] at found
    · rw [Option.map_none, Option.map_eq_none_iff] at found
      rw [found]
    · obtain ⟨n, hn, kind⟩ := Option.map_eq_some_iff.1 found
      rw [hn]
      exact congrArg some kind
  | @beside _ _ w _ _ _ ih =>
    rw [levelAmong?, levelAmong?, findAmong?, findAmong?, ih.1]
    refine ⟨rfl, ?_⟩
    cases find? id w with
    | some _ => rfl
    | none => exact ih.2

end Swap

theorem mem_idsAll_addition {ws' : List Widget} (h : editAmong? a x.to ws = some ws') :
    id ∈ idsAll ws' ↔ id ∈ idsAll ws ∨ id ∈ idsAll x.children := by
  have present : findAmong? a ws ≠ none := by
    rw [Ne, findAmong?_eq_none_iff, ← editAmong?_eq_none_iff (f := x.to), h]
    exact Option.some_ne_none _
  obtain ⟨old, found⟩ := Option.ne_none_iff_exists'.1 present
  obtain ⟨_, path⟩ := swap_of_findAmong? (x.to old) ws found
  obtain ⟨_, _, _, edited, -, swap⟩ := path none
  rw [editAmong?_eq x.to ws found, edited] at h
  cases h
  obtain ⟨before, after, ids, ids'⟩ := swap.ids
  rw [ids, ids', Addition.ids_to]
  simp only [List.mem_append]
  tauto

theorem editAmong?_cons_of_some {w w' : Widget} (h : edit? id f w = some w') :
    editAmong? id f (w :: ws) = some (w' :: ws) := by
  rw [editAmong?, h]

theorem editAmong?_cons_of_none {w : Widget} (h : edit? id f w = none) :
    editAmong? id f (w :: ws) = (editAmong? id f ws).map (w :: ·) := by
  rw [editAmong?, h]

theorem isSome_edit?_addition {g : Widget → Widget} {w wa : Widget}
    (ha : edit? a x.to w = some wa) (hb : (edit? b g w).isSome = true) :
    (edit? b g wa).isSome = true := by
  rw [Option.isSome_iff_ne_none, Ne, edit?_eq_none_iff, not_not] at hb ⊢
  have ids : b ∈ idsAll [wa] ↔ b ∈ idsAll [w] ∨ b ∈ idsAll x.children :=
    mem_idsAll_addition (editAmong?_cons_of_some ha)
  simp only [idsAll_cons, idsAll_nil, List.append_nil] at ids
  exact ids.2 (.inl hb)

theorem edit?_comm_here {w : Widget} (same : w.id = a) (apart : a ≠ b)
    (hx : b ∉ idsAll x.children) : (edit? a x.to w).bind (edit? b y.to) =
      (edit? b y.to w).bind (edit? a x.to) := by
  have other : w.id ≠ b := same ▸ apart
  rw [edit?_eq_ite w, if_pos same, edit?_eq_ite w, if_neg other, Option.bind_some,
    edit?_eq_ite (x.to w), Addition.to_id, if_neg other, Addition.to_children,
    editAmong?_append hx]
  cases editAmong? b y.to w.children with
  | none => rfl
  | some children =>
    simp only [Option.map_some, Option.bind_some]
    rw [edit?_eq_ite, if_pos same]
    rfl

theorem editAmong?_comm_apart {g : Widget → Widget} {w wa : Widget} (ha : edit? a f w = some wa)
    (hb : edit? b g w = none) (hba : edit? b g wa = none) :
    (editAmong? a f (w :: ws)).bind (editAmong? b g) =
      (editAmong? b g (w :: ws)).bind (editAmong? a f) := by
  rw [editAmong?_cons_of_some ha, editAmong?_cons_of_none hb, Option.bind_some,
    editAmong?_cons_of_none hba]
  cases editAmong? b g ws with
  | none => rfl
  | some ws' => exact (editAmong?_cons_of_some ha).symm

mutual

theorem edit?_comm (apart : a ≠ b) (hx : b ∉ idsAll x.children) (hy : a ∉ idsAll y.children) :
    (w : Widget) → (edit? a x.to w).bind (edit? b y.to) = (edit? b y.to w).bind (edit? a x.to)
  | ⟨kind, name, props, children, pos⟩ => by
    by_cases ha : name = a
    · exact edit?_comm_here ha apart hx
    by_cases hb : name = b
    · exact (edit?_comm_here hb apart.symm hy).symm
    -- Both are below, and this widget only gets other children.
    have below {i j : String} (f g : Widget → Widget) (other : name ≠ j) :
        ((editAmong? i f children).map (⟨kind, name, props, ·, pos⟩)).bind (edit? j g) =
          ((editAmong? i f children).bind (editAmong? j g)).map (⟨kind, name, props, ·, pos⟩) := by
      cases editAmong? i f children with
      | none => rfl
      | some children' => rw [Option.map_some, Option.bind_some, edit?, if_neg other]; rfl
    rw [edit?, edit?, if_neg ha, if_neg hb, below _ _ hb, below _ _ ha,
      editAmong?_comm apart hx hy children]

theorem editAmong?_comm (apart : a ≠ b) (hx : b ∉ idsAll x.children)
    (hy : a ∉ idsAll y.children) : (ws : List Widget) →
      (editAmong? a x.to ws).bind (editAmong? b y.to) =
        (editAmong? b y.to ws).bind (editAmong? a x.to)
  | [] => rfl
  | w :: ws => by
    have first := edit?_comm apart hx hy w
    cases ha : edit? a x.to w with
    | some wa =>
      cases hb : edit? b y.to w with
      | some wb =>
        rw [ha, hb, Option.bind_some, Option.bind_some] at first
        have there := isSome_edit?_addition ha (Option.isSome_of_eq_some hb)
        obtain ⟨w', hba⟩ := Option.isSome_iff_exists.1 there
        rw [editAmong?_cons_of_some ha, editAmong?_cons_of_some hb, Option.bind_some,
          Option.bind_some, editAmong?_cons_of_some hba, editAmong?_cons_of_some (first ▸ hba)]
      | none =>
        rw [ha, hb] at first
        exact editAmong?_comm_apart ha hb first
    | none =>
      cases hb : edit? b y.to w with
      | some wb =>
        rw [ha, hb] at first
        exact (editAmong?_comm_apart hb ha first.symm).symm
      | none =>
        have behind {i j : String} (f g : Widget → Widget) (missed : edit? j g w = none) :
            ((editAmong? i f ws).map (w :: ·)).bind (editAmong? j g) =
              ((editAmong? i f ws).bind (editAmong? j g)).map (w :: ·) := by
          cases editAmong? i f ws with
          | none => rfl
          | some ws' => exact editAmong?_cons_of_none missed
        rw [editAmong?_cons_of_none ha, editAmong?_cons_of_none hb, behind _ _ hb,
          behind _ _ ha, editAmong?_comm apart hx hy ws]

end

end Widget

namespace Forest
open Widget
variable {f : Forest} {id a b : String} {x y : Addition}

theorem exists_edit_eq (g : Widget → Widget) (h : id ∈ f.ids) :
    ∃ roots, editAmong? id g f.roots = some roots ∧ f.edit id g = ⟨roots⟩ := by
  obtain ⟨roots, edited⟩ := Option.ne_none_iff_exists'.1
    (mt (editAmong?_eq_none_iff (f := g) f.roots).1 (not_not.2 h))
  exact ⟨roots, edited, by rw [Forest.edit, edited]⟩

theorem mem_ids_addition (ha : a ∈ f.ids) :
    id ∈ (f.edit a x.to).ids ↔ id ∈ f.ids ∨ id ∈ idsAll x.children := by
  obtain ⟨roots, edited, eq⟩ := exists_edit_eq x.to ha
  rw [eq]
  exact mem_idsAll_addition edited

theorem addition_keeps (ha : a ∈ f.ids) (apart : a ≠ id) (absent : id ∉ idsAll x.children) :
    (f.edit a x.to).level? id = f.level? id ∧
      ((f.edit a x.to).find? id).map kind = (f.find? id).map kind := by
  obtain ⟨old, found⟩ := Option.isSome_iff_exists.1 (Forest.contains_iff.2 ha)
  rw [Forest.edit_eq _ found]
  obtain ⟨rfl, _, _, _, swap⟩ := swap_of_find? (x.to old) found
  exact swap.addition_keeps apart absent

theorem addition_comm (apart : a ≠ b) (ha : a ∈ f.ids) (hb : b ∈ f.ids)
    (hx : b ∉ idsAll x.children) (hy : a ∉ idsAll y.children) :
    (f.edit a x.to).edit b y.to = (f.edit b y.to).edit a x.to := by
  obtain ⟨_, edited_a, eq_a⟩ := exists_edit_eq x.to ha
  obtain ⟨_, edited_b, eq_b⟩ := exists_edit_eq y.to hb
  obtain ⟨_, edited_ab, eq_ab⟩ := exists_edit_eq y.to ((mem_ids_addition (x := x) ha).2 (.inl hb))
  obtain ⟨_, edited_ba, eq_ba⟩ := exists_edit_eq x.to ((mem_ids_addition (x := y) hb).2 (.inl ha))
  have same := editAmong?_comm apart hx hy f.roots
  rw [eq_a] at edited_ab
  rw [eq_b] at edited_ba
  rw [edited_a, edited_b, Option.bind_some, Option.bind_some, edited_ab, edited_ba] at same
  rw [eq_ab, eq_ba, Option.some.inj same]

end Forest
end WidgetScript
