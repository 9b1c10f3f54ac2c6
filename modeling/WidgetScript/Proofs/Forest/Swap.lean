import WidgetScript.Proofs.Forest

/-! An edit puts one widget in the place of another. `Swap` is the path to that place, and
what an edit does to the ids, the parents and the depth of a forest is an induction on it. -/
namespace WidgetScript
namespace Widget

/-- Somewhere in a row or below it `new` takes the place of `old`, which has `place` for its
parent and so many levels of the row `above` it. -/
inductive Swap (old new : Widget) (place : Option String) :
    Option String → Nat → List Widget → List Widget → Prop where
  | here {ws : List Widget} : Swap old new place place 0 (old :: ws) (new :: ws)
  | inside {parent : Option String} {above : Nat} {w : Widget} {cs ws : List Widget} :
      Swap old new place (some w.id) above w.children cs →
      Swap old new place parent (above + 1) (w :: ws) ({ w with children := cs } :: ws)
  | beside {parent : Option String} {above : Nat} {w : Widget} {ws ws' : List Widget} :
      Swap old new place parent above ws ws' →
      Swap old new place parent above (w :: ws) (w :: ws')

variable {id : String} {old new : Widget} {f : Widget → Widget}

mutual

theorem not_found : (w : Widget) → find? id w = none → edit? id f w = none ∧ level? id w = none
  | ⟨kind, name, props, children, pos⟩, h => by
    rw [find?] at h
    rw [edit?, level?]
    split at h
    · exact nomatch h
    next other =>
      obtain ⟨edit, level⟩ := not_found_among children h
      rw [if_neg other, if_neg other, edit, level]
      exact ⟨rfl, rfl⟩

theorem not_found_among : (ws : List Widget) → findAmong? id ws = none →
    editAmong? id f ws = none ∧ levelAmong? id ws = none
  | [], _ => ⟨rfl, rfl⟩
  | w :: ws, h => by
    rw [findAmong?] at h
    rw [editAmong?, levelAmong?]
    split at h
    · exact nomatch h
    next here =>
      obtain ⟨edit, level⟩ := not_found w here
      obtain ⟨edits, levels⟩ := not_found_among ws h
      rw [edit, level, edits, levels]
      exact ⟨rfl, rfl⟩

end

mutual

theorem swap_of_find? (new : Widget) : (w : Widget) → find? id w = some old →
    old.id = id ∧ ∀ parent ws, ∃ place above w', edit? id (fun _ => new) w = some w' ∧
      level? id w = some (above + 1) ∧ Swap old new place parent above (w :: ws) (w' :: ws)
  | ⟨kind, name, props, children, pos⟩, h => by
    rw [find?] at h
    rw [edit?, level?]
    split at h
    next same =>
      cases h
      refine ⟨same, fun parent ws => ?_⟩
      rw [if_pos same, if_pos same]
      exact ⟨parent, 0, new, rfl, rfl, .here⟩
    next other =>
      obtain ⟨named, path⟩ := swap_of_findAmong? new children h
      refine ⟨named, fun parent ws => ?_⟩
      obtain ⟨place, above, cs, edit, level, swap⟩ := path (some name)
      rw [if_neg other, if_neg other, edit, level]
      exact ⟨place, above + 1, _, rfl, rfl, .inside swap⟩

theorem swap_of_findAmong? (new : Widget) : (ws : List Widget) → findAmong? id ws = some old →
    old.id = id ∧ ∀ parent, ∃ place above ws', editAmong? id (fun _ => new) ws = some ws' ∧
      levelAmong? id ws = some (above + 1) ∧ Swap old new place parent above ws ws'
  | [], h => by
    rw [findAmong?] at h
    exact nomatch h
  | w :: ws, h => by
    rw [findAmong?] at h
    rw [editAmong?, levelAmong?]
    split at h
    next found here =>
      cases h
      obtain ⟨named, path⟩ := swap_of_find? new w here
      refine ⟨named, fun parent => ?_⟩
      obtain ⟨place, above, w', edit, level, swap⟩ := path parent ws
      rw [edit, level]
      exact ⟨place, above, _, rfl, rfl, swap⟩
    next missed =>
      obtain ⟨edit, level⟩ := not_found (f := fun _ => new) w missed
      obtain ⟨named, path⟩ := swap_of_findAmong? new ws h
      refine ⟨named, fun parent => ?_⟩
      obtain ⟨place, above, ws', edits, levels, swap⟩ := path parent
      rw [edit, level, edits, levels]
      exact ⟨place, above, _, rfl, rfl, .beside swap⟩

end

structure SameHead (m n : Widget) : Prop where
  kind : m.kind = n.kind
  id : m.id = n.id
  props : m.props = n.props
  childless : m.children = [] ↔ n.children = []

structure Kept (m n : Widget) : Prop where
  kind : n.kind = m.kind
  id : n.id = m.id
  props : n.props = m.props
  row : n.children.map (·.id) = m.children.map (·.id)
  pos : n.pos = m.pos

theorem Kept.refl (w : Widget) : Kept w w := ⟨rfl, rfl, rfl, rfl, rfl⟩

theorem Kept.symm {m n : Widget} (h : Kept m n) : Kept n m :=
  ⟨h.kind.symm, h.id.symm, h.props.symm, h.row.symm, h.pos.symm⟩

namespace Swap
variable {place parent : Option String} {above : Nat} {ws ws' : List Widget}

theorem symm (h : Swap old new place parent above ws ws') :
    Swap new old place parent above ws' ws := by
  induction h with
  | here => exact .here
  | @inside _ _ w cs _ _ ih =>
    cases w
    exact .inside (w := ⟨_, _, _, cs, _⟩) ih
  | beside _ ih => exact .beside ih

theorem ne_nil (h : Swap old new place parent above ws ws') : ws ≠ [] ∧ ws' ≠ [] := by
  cases h <;> exact ⟨List.cons_ne_nil _ _, List.cons_ne_nil _ _⟩

theorem ids (h : Swap old new place parent above ws ws') :
    ∃ before after, idsAll ws = before ++ (old.ids ++ after) ∧
      idsAll ws' = before ++ (new.ids ++ after) := by
  induction h with
  | @here ws => exact ⟨[], idsAll ws, by simp [idsAll_cons], by simp [idsAll_cons]⟩
  | @inside _ _ w cs ws _ ih =>
    obtain ⟨before, after, h, h'⟩ := ih
    refine ⟨w.id :: before, after ++ idsAll ws, ?_, ?_⟩
    · rw [idsAll_cons, ids_eq w, h]
      simp only [List.cons_append, List.append_assoc]
    · rw [idsAll_cons, ids_eq { w with children := cs }, h']
      simp only [List.cons_append, List.append_assoc]
  | @beside _ _ w _ _ _ ih =>
    obtain ⟨before, after, h, h'⟩ := ih
    refine ⟨w.ids ++ before, after, ?_, ?_⟩
    · rw [idsAll_cons, h, List.append_assoc]
    · rw [idsAll_cons, h', List.append_assoc]

theorem placed_below (h : Swap old new place parent above ws ws') {p : Option String} {n : Widget}
    (hn : (p, n) ∈ old.placed place) : (p, n) ∈ placedAll parent ws := by
  induction h with
  | here =>
    rw [placedAll_cons]
    exact List.mem_append_left _ hn
  | inside _ ih =>
    rw [placedAll_cons, placed_eq]
    exact List.mem_append_left _ (List.mem_cons_of_mem _ ih)
  | beside _ ih =>
    rw [placedAll_cons]
    exact List.mem_append_right _ ih

theorem placed_old (h : Swap old new place parent above ws ws') :
    (place, old) ∈ placedAll parent ws :=
  h.placed_below (by simp)

theorem forall_placed {motive : Option String → Widget → Prop}
    (heads : ∀ p m n, SameHead m n → motive p m → motive p n)
    (h : Swap old new place parent above ws ws')
    (all : ∀ p n, (p, n) ∈ placedAll parent ws → motive p n)
    (inner : ∀ p n, (p, n) ∈ new.placed place → motive p n) :
    ∀ p n, (p, n) ∈ placedAll parent ws' → motive p n := by
  induction h with
  | here =>
    intro p n hn
    rw [placedAll_cons, List.mem_append] at hn
    rcases hn with hn | hn
    · exact inner p n hn
    · refine all p n ?_
      rw [placedAll_cons]
      exact List.mem_append_right _ hn
  | @inside parent _ w cs ws swap ih =>
    have whole : ∀ p n, (p, n) ∈ (parent, w) :: placedAll (some w.id) w.children → motive p n := by
      intro p n hn
      refine all p n ?_
      rw [placedAll_cons, placed_eq]
      exact List.mem_append_left _ hn
    intro p n hn
    rw [placedAll_cons, placed_eq, List.mem_append, List.mem_cons] at hn
    rcases hn with (hn | hn) | hn
    · cases hn
      refine heads _ w _ ⟨rfl, rfl, rfl, ?_⟩ (whole _ _ List.mem_cons_self)
      exact iff_of_false swap.ne_nil.1 swap.ne_nil.2
    · exact ih (fun p n hn => whole p n (List.mem_cons_of_mem _ hn)) p n hn
    · refine all p n ?_
      rw [placedAll_cons]
      exact List.mem_append_right _ hn
  | beside _ ih =>
    intro p n hn
    rw [placedAll_cons, List.mem_append] at hn
    rw [placedAll_cons] at all
    rcases hn with hn | hn
    · exact all p n (List.mem_append_left _ hn)
    · exact ih (fun p n hn => all p n (List.mem_append_right _ hn)) p n hn

theorem row (h : Swap old new place parent above ws ws') (same : new.id = old.id) :
    ws'.map (·.id) = ws.map (·.id) := by
  induction h with
  | here => rw [List.map_cons, List.map_cons, same]
  | inside => rfl
  | beside _ ih => rw [List.map_cons, List.map_cons, ih]

theorem kept (h : Swap old new place parent above ws ws') (same : new.id = old.id)
    {p : Option String} {m : Widget} (hm : (p, m) ∈ placedAll parent ws) :
    (p, m) ∈ old.placed place ∨ ∃ n, Kept m n ∧ (p, n) ∈ placedAll parent ws' := by
  induction h with
  | here =>
    rw [placedAll_cons, List.mem_append] at hm
    refine hm.imp_right fun hm => ⟨m, .refl m, ?_⟩
    rw [placedAll_cons]
    exact List.mem_append_right _ hm
  | @inside parent _ w cs ws swap ih =>
    rw [placedAll_cons, placed_eq _ w, List.mem_append, List.mem_cons] at hm
    simp only [placedAll_cons, placed_eq _ { w with children := cs }, List.mem_append,
      List.mem_cons]
    rcases hm with (hm | hm) | hm
    · cases hm
      exact .inr ⟨{ m with children := cs }, ⟨rfl, rfl, rfl, swap.row same, rfl⟩, .inl (.inl rfl)⟩
    · refine (ih hm).imp_right ?_
      rintro ⟨n, kept, hn⟩
      exact ⟨n, kept, .inl (.inr hn)⟩
    · exact .inr ⟨m, .refl m, .inr hm⟩
  | beside _ ih =>
    rw [placedAll_cons, List.mem_append] at hm
    simp only [placedAll_cons, List.mem_append]
    rcases hm with hm | hm
    · exact .inr ⟨m, .refl m, .inl hm⟩
    · refine (ih hm).imp_right ?_
      rintro ⟨n, kept, hn⟩
      exact ⟨n, kept, .inr hn⟩

theorem kept_but (h : Swap old new place parent above ws ws') (same : new.id = old.id)
    {gone : List String}
    (stay : ∀ p m, (p, m) ∈ placedAll (some old.id) old.children → m.id ∉ gone →
      (p, m) ∈ placedAll (some new.id) new.children)
    {p : Option String} {m : Widget} (hm : (p, m) ∈ placedAll parent ws) (other : m.id ≠ old.id)
    (stays : m.id ∉ gone) : ∃ n, Kept m n ∧ (p, n) ∈ placedAll parent ws' := by
  rcases h.kept same hm with hm | kept
  · rw [placed_eq, List.mem_cons] at hm
    rcases hm with hm | hm
    · cases hm
      exact absurd rfl other
    · refine ⟨m, .refl m, h.symm.placed_below ?_⟩
      rw [placed_eq]
      exact List.mem_cons_of_mem _ (stay p m hm stays)
  · exact kept

theorem depth_old (h : Swap old new place parent above ws ws') :
    above + old.depth ≤ depthAll ws := by
  induction h with
  | here => simp only [depthAll]; omega
  | @inside _ _ w _ _ _ ih =>
    simp only [depthAll, depth_eq w]
    omega
  | beside _ ih => simp only [depthAll]; omega

theorem depth_le {bound : Nat} (h : Swap old new place parent above ws ws')
    (fits : depthAll ws ≤ bound) (room : above + new.depth ≤ bound) : depthAll ws' ≤ bound := by
  induction h generalizing bound with
  | here =>
    simp only [depthAll] at fits ⊢
    omega
  | @inside _ _ w cs _ _ ih =>
    simp only [depthAll, depth_eq w] at fits
    have inner := @ih (bound - 1) (by omega) (by omega)
    simp only [depthAll, depth_eq { w with children := cs }]
    omega
  | beside _ ih =>
    simp only [depthAll] at fits ⊢
    have inner := ih (by omega) room
    omega

end Swap

end Widget

namespace Forest
open Widget
variable {f : Forest} {id : String} {old : Widget} {p : Option String} {n : Widget}

theorem swap_of_find? (new : Widget) (h : f.find? id = some old) :
    old.id = id ∧ ∃ place above, f.level? id = some (above + 1) ∧
      Swap old new place none above f.roots (f.edit id fun _ => new).roots := by
  obtain ⟨named, path⟩ := swap_of_findAmong? new f.roots h
  obtain ⟨place, above, roots, edit, level, swap⟩ := path none
  refine ⟨named, place, above, level, ?_⟩
  rw [Forest.edit, edit]
  exact swap

theorem Distinct.parent?_eq (distinct : f.Distinct) (h : (p, n) ∈ f.placed) :
    f.parent? n.id = p := by
  have only : ∀ m ∈ f.preorder, m.children.any (·.id = n.id) = true → p = some m.id := by
    intro m hm has
    obtain ⟨c, hc, same⟩ := List.any_eq_true.1 has
    obtain ⟨q, hq⟩ := placed_of_mem_preorder none hm
    exact (distinct.placed_unique h (child_placedAll hc f.roots hq) (of_decide_eq_true same).symm).1
  unfold parent?
  cases hlast : (f.preorder.filter fun w => w.children.any (·.id = n.id)).getLast? with
  | some m =>
    obtain ⟨hm, has⟩ := List.mem_filter.1 (List.mem_of_getLast? hlast)
    exact (only m hm has).symm
  | none =>
    rw [List.getLast?_eq_none_iff, List.filter_eq_nil_iff] at hlast
    rcases parent_of_placedAll f.roots h with ⟨rfl, _⟩ | ⟨q, m, hm, rfl, hc⟩
    · rfl
    · refine absurd ?_ (hlast m (mem_preorder_of_placed hm))
      exact List.any_eq_true.2 ⟨n, hc, by simp⟩

theorem Distinct.any_root_iff (distinct : f.Distinct) (h : (p, n) ∈ f.placed) :
    f.roots.any (·.id = n.id) = true ↔ p = none := by
  rw [List.any_eq_true]
  constructor
  · rintro ⟨r, hr, same⟩
    exact (distinct.placed_unique h (mem_roots_iff.1 hr) (of_decide_eq_true same).symm).1
  · rintro rfl
    exact ⟨n, mem_roots_iff.2 h, by simp⟩

end Forest
end WidgetScript
