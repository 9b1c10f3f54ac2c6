import WidgetScript.Proofs.Directive.Change

/-! What directives keep of a declaration. A widget of the new declaration was there before, or
is one that was there with other properties or children, or is part of what the directive
brought in; a property of widgets and their parents that all three have is kept. -/
namespace WidgetScript

namespace Directive
variable {forest forest' : Forest} {live : LiveTree} {d : Directive} {target m n w : Widget}
  {place : Option String} {above : Nat}

theorem swap_of_apply (h : d.apply forest live = .ok forest') :
    ∃ target w place above, forest.find? d.target = some target ∧ target.id = d.target ∧
      forest.level? d.target = some (above + 1) ∧ Changes forest live d target w ∧
      Widget.Swap target w place none above forest.roots forest'.roots := by
  unfold Directive.apply at h
  split at h
  · exact nomatch h
  next target found =>
    obtain ⟨w, change, h⟩ := bind_eq_ok.1 h
    cases h
    obtain ⟨named, place, above, level, swap⟩ := Forest.swap_of_find? w found
    exact ⟨target, w, place, above, found, named, level, changes_of_change change, swap⟩

theorem Changes.ids (change : Changes forest live d target w) (once : target.ids.Nodup)
    (within : ∀ id ∈ target.ids, id ∈ forest.ids) :
    w.ids.Nodup ∧ ∀ id ∈ w.ids, id ∈ forest.ids → id ∈ target.ids := by
  cases change with
  | set _ _ _ =>
    simp only [Widget.ids_eq] at once ⊢
    exact ⟨once, fun id hid _ => hid⟩
  | @append child _ _ _ _ admitted =>
    have ids : ({ target with children := target.children ++ [child] } : Widget).ids =
        target.ids ++ child.ids := by
      simp [Widget.idsAll_append, Widget.idsAll_cons]
    rw [ids]
    constructor
    · refine List.nodup_append.2 ⟨once, admitted.once, ?_⟩
      rintro a ha b hb rfl
      exact nomatch admitted.fresh a hb (within a ha)
    · intro id hid mem
      rcases List.mem_append.1 hid with hid | hid
      · exact hid
      · exact nomatch admitted.fresh id hid mem
  | @remove _ _ rest _ _ taken =>
    have sub : ({ target with children := rest } : Widget).ids.Sublist target.ids := by
      rw [Widget.ids_eq, Widget.ids_eq]
      exact (Widget.idsAll_sublist (Widget.takeSibling?_sublist taken)).cons_cons _
    exact ⟨once.sublist sub, fun id hid _ => sub.subset hid⟩
  | replace _ _ _ _ _ admitted => exact ⟨admitted.once, admitted.fresh⟩

theorem apply_distinct (h : d.apply forest live = .ok forest') (distinct : forest.Distinct) :
    forest'.Distinct := by
  obtain ⟨target, w, place, above, _, _, _, change, swap⟩ := swap_of_apply h
  obtain ⟨before, after, old, new⟩ := swap.ids
  have all : forest.ids = before ++ (target.ids ++ after) := old
  have within : ∀ id ∈ target.ids, id ∈ forest.ids := by
    intro id hid
    rw [all]
    exact List.mem_append_right _ (List.mem_append_left _ hid)
  unfold Forest.Distinct at distinct ⊢
  rw [all, List.nodup_append, List.nodup_append] at distinct
  obtain ⟨first, ⟨once, last, apart⟩, outer⟩ := distinct
  obtain ⟨onceNew, fresh⟩ := change.ids once within
  change (Widget.idsAll forest'.roots).Nodup
  rw [new, List.nodup_append, List.nodup_append]
  refine ⟨first, ⟨onceNew, last, ?_⟩, ?_⟩
  · intro a ha b hb same
    refine apart a (fresh a ha ?_) b hb same
    rw [all, same]
    exact List.mem_append_right _ (List.mem_append_right _ hb)
  · intro a ha b hb same
    rcases List.mem_append.1 hb with hb | hb
    · refine outer a ha b (List.mem_append_left _ (fresh b hb ?_)) same
      rw [all, ← same]
      exact List.mem_append_left _ ha
    · exact outer a ha b (List.mem_append_right _ hb) same

/-- What may become of a widget that stays in its place: its properties are those that the
directive gives it or the old ones, and if it is no container it gets no first child. -/
structure Renewed (d : Directive) (m n : Widget) : Prop where
  kind : n.kind = m.kind
  id : n.id = m.id
  leaf : m.kind.isContainer = true ∨ (m.children = [] → n.children = [])
  props : n.props = m.props ∨ ∃ setter given ps, assignments setter d.value = .ok given ∧
    coerceAll given = .ok ps ∧ n.props = assign m.props ps

/-- What is known of a widget that the directive brings in below a parent, or as a root. -/
structure Brought (live : LiveTree) (d : Directive) (parent : Option String) (w : Widget) :
    Prop where
  value : Widget.ofValue d.value = .ok w
  inner : ∀ c ∈ w.children, c.containsWindow = false
  top : w.kind = .window ↔ parent = none
  kinds : ∀ p n e, (p, n) ∈ w.placed parent → live.get? n.id = some e → e.parent = p →
    e.kind = n.kind

theorem Renewed.of_sameHead (same : Widget.SameHead m n) : Renewed d m n :=
  ⟨same.kind.symm, same.id.symm, .inr same.childless.1, .inl same.props.symm⟩

theorem Changes.forall_placed {motive : Option String → Widget → Prop}
    (change : Changes forest live d target w) (named : target.id = d.target)
    (parent : forest.parent? d.target = place)
    (root : forest.roots.any (·.id = d.target) = true ↔ place = none)
    (renewed : ∀ p m n, Renewed d m n → motive p m → motive p n)
    (brought : ∀ p w, Brought live d p w → ∀ q n, (q, n) ∈ w.placed p → motive q n)
    (old : ∀ p n, (p, n) ∈ target.placed place → motive p n) :
    ∀ p n, (p, n) ∈ w.placed place → motive p n := by
  have self : motive place target := old _ _ (by simp)
  rw [Widget.placed_eq] at old
  intro p n hn
  cases change with
  | set _ assigned coerced =>
    rw [Widget.placed_eq, List.mem_cons] at hn
    rcases hn with hn | hn
    · cases hn
      exact renewed _ target _
        ⟨rfl, rfl, .inr fun none => none, .inr ⟨_, _, _, assigned, coerced, rfl⟩⟩ self
    · exact old p n (List.mem_cons_of_mem _ hn)
  | append _ value container noWindow admitted =>
    rw [Widget.placed_eq, List.mem_cons, Widget.placedAll_append, List.mem_append] at hn
    rcases hn with hn | hn | hn
    · cases hn
      exact renewed _ target _ ⟨rfl, rfl, .inl container, .inl rfl⟩ self
    · exact old p n (List.mem_cons_of_mem _ hn)
    · rw [Widget.placedAll_cons, Widget.placedAll_nil, List.append_nil, named] at hn
      rw [Widget.containsWindow_eq_false_iff, Widget.preorder_eq, List.forall_mem_cons] at noWindow
      refine brought _ _ ⟨value, ?_, ?_, admitted.kinds⟩ p n hn
      · exact Widget.containsWindow_children_iff.2 noWindow.2
      · exact iff_of_false noWindow.1 (Option.some_ne_none _)
  | @remove _ _ rest _ _ taken =>
    have sub := Widget.takeSibling?_sublist taken
    rw [Widget.placed_eq, List.mem_cons] at hn
    rcases hn with hn | hn
    · cases hn
      refine renewed _ target _ ⟨rfl, rfl, .inr fun none => ?_, .inl rfl⟩ self
      exact List.sublist_nil.1 (none ▸ sub)
    · exact old p n (List.mem_cons_of_mem _ (Widget.placedAll_subset sub hn))
  | replace _ value _ below top admitted =>
    rw [parent] at admitted
    exact brought _ _ ⟨value, below, top.trans root, admitted.kinds⟩ p n hn

theorem apply_forall_placed {motive : Option String → Widget → Prop}
    (h : d.apply forest live = .ok forest') (distinct : forest.Distinct)
    (all : ∀ p n, (p, n) ∈ forest.placed → motive p n)
    (renewed : ∀ p m n, Renewed d m n → motive p m → motive p n)
    (brought : ∀ p w, Brought live d p w → ∀ q n, (q, n) ∈ w.placed p → motive q n) :
    ∀ p n, (p, n) ∈ forest'.placed → motive p n := by
  obtain ⟨target, w, place, above, _, named, _, change, swap⟩ := swap_of_apply h
  have parent : forest.parent? d.target = place := named ▸ distinct.parent?_eq swap.placed_old
  have root : forest.roots.any (·.id = d.target) = true ↔ place = none :=
    named ▸ distinct.any_root_iff swap.placed_old
  refine swap.forall_placed (fun p m n same => renewed p m n (.of_sameHead same)) all ?_
  refine change.forall_placed named parent root renewed brought fun p n hn => ?_
  exact all p n (swap.placed_below hn)

theorem Changes.room (change : Changes forest live d target w)
    (level : forest.level? d.target = some (above + 1))
    (old : above + target.depth ≤ Widget.maxDepth) : above + w.depth ≤ Widget.maxDepth := by
  rw [Widget.depth_eq] at old
  have fits : Widget.depthAll target.children ≤ Widget.maxDepth - (above + 1) := by omega
  rw [Widget.depthAll_le_iff] at fits
  have enough {cs : List Widget}
      (h : ∀ c ∈ cs, c.depth ≤ Widget.maxDepth - (above + 1)) :
      above + (1 + Widget.depthAll cs) ≤ Widget.maxDepth := by
    have := Widget.depthAll_le_iff.2 h
    omega
  cases change with
  | set _ _ _ =>
    rw [Widget.depth_eq]
    exact old
  | append _ _ _ _ admitted =>
    have room := admitted.room
    rw [level, Option.getD_some] at room
    rw [Widget.depth_eq]
    refine enough fun c hc => ?_
    rcases List.mem_append.1 hc with hc | hc
    · exact fits c hc
    · rw [List.mem_singleton.1 hc]
      omega
  | remove _ _ taken =>
    rw [Widget.depth_eq]
    exact enough fun c hc => fits c ((Widget.takeSibling?_sublist taken).subset hc)
  | replace _ _ _ _ _ admitted =>
    have room := admitted.room
    rw [level, Option.getD_some, Nat.add_sub_cancel] at room
    exact room

theorem apply_depth (h : d.apply forest live = .ok forest')
    (fits : ∀ r ∈ forest.roots, r.depth ≤ Widget.maxDepth) :
    ∀ r ∈ forest'.roots, r.depth ≤ Widget.maxDepth := by
  obtain ⟨target, w, place, above, _, _, level, change, swap⟩ := swap_of_apply h
  rw [← Widget.depthAll_le_iff] at fits ⊢
  exact swap.depth_le fits (change.room level (Nat.le_trans swap.depth_old fits))

end Directive
end WidgetScript
