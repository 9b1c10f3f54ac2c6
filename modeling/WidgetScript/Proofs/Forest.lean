import WidgetScript.Widget
import Mathlib.Data.List.Nodup

/-! A forest seen as the list of its widgets in pre-order, each with the id of its parent.
If no id occurs twice, an id determines the widget and its parent. -/
namespace WidgetScript
namespace Widget

@[simp] theorem preorder_eq (w : Widget) : w.preorder = w :: preorderAll w.children := by
  cases w
  rw [preorder]

@[simp] theorem preorderAll_nil : preorderAll [] = [] := by rw [preorderAll]

theorem preorderAll_cons (w : Widget) (ws : List Widget) :
    preorderAll (w :: ws) = w.preorder ++ preorderAll ws := by rw [preorderAll]

theorem mem_preorderAll {ws : List Widget} {n : Widget} :
    n ∈ preorderAll ws ↔ ∃ w ∈ ws, n ∈ w.preorder := by
  induction ws with
  | nil => simp
  | cons w ws ih => simp only [preorderAll_cons, List.mem_append, ih, List.mem_cons, exists_eq_or_imp]

theorem self_mem_preorder (w : Widget) : w ∈ w.preorder := by simp

theorem preorderAll_append (as bs : List Widget) :
    preorderAll (as ++ bs) = preorderAll as ++ preorderAll bs := by
  induction as with
  | nil => simp
  | cons a as ih => simp only [List.cons_append, preorderAll_cons, ih, List.append_assoc]

theorem depth_eq (w : Widget) : w.depth = 1 + depthAll w.children := by
  cases w
  rw [depth]

theorem depthAll_le_iff {ws : List Widget} {bound : Nat} :
    depthAll ws ≤ bound ↔ ∀ w ∈ ws, w.depth ≤ bound := by
  induction ws with
  | nil => simp [depthAll]
  | cons w ws ih => rw [depthAll, Nat.max_le, List.forall_mem_cons, ih]

theorem containsWindow_eq_false_iff {w : Widget} :
    w.containsWindow = false ↔ ∀ n ∈ w.preorder, n.kind ≠ .window := by
  rw [containsWindow, List.any_eq_false]
  simp only [decide_eq_true_eq, ne_eq]

theorem containsWindow_children_iff {w : Widget} :
    (∀ c ∈ w.children, c.containsWindow = false) ↔
      ∀ n ∈ preorderAll w.children, n.kind ≠ .window := by
  simp only [containsWindow_eq_false_iff, mem_preorderAll]
  constructor
  · rintro h n ⟨c, hc, hn⟩
    exact h c hc n hn
  · intro h c hc n hn
    exact h n ⟨c, hc, hn⟩

@[simp] theorem placed_eq (parent : Option String) (w : Widget) :
    w.placed parent = (parent, w) :: placedAll (some w.id) w.children := by
  cases w
  rw [placed]

@[simp] theorem placedAll_nil (parent : Option String) : placedAll parent [] = [] := by
  rw [placedAll]

theorem placedAll_cons (parent : Option String) (w : Widget) (ws : List Widget) :
    placedAll parent (w :: ws) = w.placed parent ++ placedAll parent ws := by rw [placedAll]

theorem placedAll_append (parent : Option String) (as bs : List Widget) :
    placedAll parent (as ++ bs) = placedAll parent as ++ placedAll parent bs := by
  induction as with
  | nil => simp
  | cons a as ih => simp only [List.cons_append, placedAll_cons, ih, List.append_assoc]

mutual

theorem map_snd_placed (parent : Option String) :
    (w : Widget) → (w.placed parent).map Prod.snd = w.preorder
  | ⟨kind, id, props, children, pos⟩ => by
    rw [placed, preorder, List.map_cons, map_snd_placedAll]

theorem map_snd_placedAll (parent : Option String) :
    (ws : List Widget) → (placedAll parent ws).map Prod.snd = preorderAll ws
  | [] => by simp
  | w :: ws => by
    rw [placedAll, preorderAll, List.map_append, map_snd_placed, map_snd_placedAll]

end

def ids (w : Widget) : List String := w.preorder.map (·.id)

def idsAll (ws : List Widget) : List String := (preorderAll ws).map (·.id)

@[simp] theorem ids_eq (w : Widget) : w.ids = w.id :: idsAll w.children := by simp [ids, idsAll]

@[simp] theorem idsAll_nil : idsAll [] = [] := by simp [idsAll]

theorem idsAll_cons (w : Widget) (ws : List Widget) : idsAll (w :: ws) = w.ids ++ idsAll ws := by
  simp only [idsAll, ids, preorderAll_cons, List.map_append]

theorem idsAll_append (as bs : List Widget) : idsAll (as ++ bs) = idsAll as ++ idsAll bs := by
  simp only [idsAll, preorderAll_append, List.map_append]

theorem id_mem_idsAll {ws : List Widget} {w : Widget} (h : w ∈ ws) : w.id ∈ idsAll ws :=
  List.mem_map.2 ⟨w, mem_preorderAll.2 ⟨w, h, self_mem_preorder w⟩, rfl⟩

theorem idsAll_sublist {as bs : List Widget} (h : as.Sublist bs) :
    (idsAll as).Sublist (idsAll bs) := by
  induction h with
  | slnil => exact List.Sublist.refl _
  | cons w _ ih =>
    rw [idsAll_cons]
    exact ih.trans (List.sublist_append_right _ _)
  | cons_cons w _ ih =>
    rw [idsAll_cons, idsAll_cons]
    exact ih.append_left _

theorem placedAll_subset {parent : Option String} {as bs : List Widget} (h : as.Sublist bs) :
    placedAll parent as ⊆ placedAll parent bs := by
  induction h with
  | slnil => exact List.Subset.refl _
  | cons w _ ih =>
    rw [placedAll_cons]
    exact List.subset_append_of_subset_right _ ih
  | cons_cons w _ ih =>
    rw [placedAll_cons, placedAll_cons]
    exact List.append_subset.2 ⟨List.subset_append_left _ _, List.subset_append_of_subset_right _ ih⟩

theorem map_id_sublist (ws : List Widget) : (ws.map (·.id)).Sublist (idsAll ws) := by
  induction ws with
  | nil => simp
  | cons w ws ih =>
    rw [idsAll_cons, ids_eq, List.map_cons, List.cons_append]
    exact (ih.trans (List.sublist_append_right _ _)).cons_cons w.id

theorem placed_ids (parent : Option String) (ws : List Widget) :
    (placedAll parent ws).map (·.2.id) = idsAll ws := by
  rw [idsAll, ← map_snd_placedAll parent, List.map_map]
  rfl

theorem mem_idsAll_iff {parent : Option String} {ws : List Widget} {id : String} :
    id ∈ idsAll ws ↔ ∃ p n, (p, n) ∈ placedAll parent ws ∧ n.id = id := by
  rw [← placed_ids parent]
  simp only [List.mem_map, Prod.exists]

theorem id_mem_of_placed {p parent : Option String} {n : Widget} {ws : List Widget}
    (h : (p, n) ∈ placedAll parent ws) : n.id ∈ idsAll ws :=
  mem_idsAll_iff.2 ⟨p, n, h, rfl⟩

theorem mem_preorder_of_placed {p parent : Option String} {n : Widget} {ws : List Widget}
    (h : (p, n) ∈ placedAll parent ws) : n ∈ preorderAll ws := by
  rw [← map_snd_placedAll parent]
  exact List.mem_map.2 ⟨_, h, rfl⟩

theorem mem_preorder_of_mem_placed {p parent : Option String} {w n : Widget}
    (h : (p, n) ∈ w.placed parent) : n ∈ w.preorder := by
  rw [← map_snd_placed parent]
  exact List.mem_map.2 ⟨_, h, rfl⟩

theorem placed_of_mem_preorder (parent : Option String) {n : Widget} {ws : List Widget}
    (h : n ∈ preorderAll ws) : ∃ p, (p, n) ∈ placedAll parent ws := by
  rw [← map_snd_placedAll parent] at h
  obtain ⟨⟨p, m⟩, hm, rfl⟩ := List.mem_map.1 h
  exact ⟨p, hm⟩

theorem placed_of_mem (parent : Option String) {w : Widget} {ws : List Widget} (h : w ∈ ws) :
    (parent, w) ∈ placedAll parent ws := by
  obtain ⟨as, bs, rfl⟩ := List.append_of_mem h
  simp [placedAll_append, placedAll_cons]

mutual

theorem child_placed {p parent : Option String} {n c : Widget} (hc : c ∈ n.children) :
    (w : Widget) → (p, n) ∈ w.placed parent → (some n.id, c) ∈ w.placed parent
  | ⟨kind, id, props, children, pos⟩, h => by
    rw [placed, List.mem_cons] at h ⊢
    refine .inr ?_
    rcases h with h | h
    · cases h
      exact placed_of_mem _ hc
    · exact child_placedAll hc children h

theorem child_placedAll {p parent : Option String} {n c : Widget} (hc : c ∈ n.children) :
    (ws : List Widget) → (p, n) ∈ placedAll parent ws → (some n.id, c) ∈ placedAll parent ws
  | [], h => by simp at h
  | w :: ws, h => by
    rw [placedAll, List.mem_append] at h ⊢
    exact h.imp (child_placed hc w) (child_placedAll hc ws)

end

mutual

theorem parent_of_placed {p parent : Option String} {n : Widget} :
    (w : Widget) → (p, n) ∈ w.placed parent →
      (p, n) = (parent, w) ∨ ∃ q m, (q, m) ∈ w.placed parent ∧ p = some m.id ∧ n ∈ m.children
  | ⟨kind, id, props, children, pos⟩, h => by
    rw [placed, List.mem_cons] at h
    rw [placed]
    refine h.imp_right fun h => ?_
    rcases parent_of_placedAll children h with ⟨rfl, hn⟩ | ⟨q, m, hm, hp, hn⟩
    · exact ⟨parent, _, List.mem_cons_self, rfl, hn⟩
    · exact ⟨q, m, List.mem_cons_of_mem _ hm, hp, hn⟩

theorem parent_of_placedAll {p parent : Option String} {n : Widget} :
    (ws : List Widget) → (p, n) ∈ placedAll parent ws →
      (p = parent ∧ n ∈ ws) ∨
        ∃ q m, (q, m) ∈ placedAll parent ws ∧ p = some m.id ∧ n ∈ m.children
  | [], h => by simp at h
  | w :: ws, h => by
    rw [placedAll, List.mem_append] at h
    rcases h with h | h
    · rcases parent_of_placed w h with h | ⟨q, m, hm, hp, hn⟩
      · cases h
        exact .inl ⟨rfl, List.mem_cons_self⟩
      · exact .inr ⟨q, m, by rw [placedAll]; exact List.mem_append_left _ hm, hp, hn⟩
    · rcases parent_of_placedAll ws h with ⟨hp, hn⟩ | ⟨q, m, hm, hp, hn⟩
      · exact .inl ⟨hp, List.mem_cons_of_mem _ hn⟩
      · exact .inr ⟨q, m, by rw [placedAll]; exact List.mem_append_right _ hm, hp, hn⟩

end

theorem ne_none_of_placedAll {p : Option String} {name : String} {n : Widget} {ws : List Widget}
    (h : (p, n) ∈ placedAll (some name) ws) : p ≠ none := by
  rcases parent_of_placedAll ws h with ⟨rfl, _⟩ | ⟨_, _, _, rfl, _⟩
  · exact Option.some_ne_none _
  · exact Option.some_ne_none _

theorem placed_unique {p q parent : Option String} {n m : Widget} {ws : List Widget}
    (distinct : (idsAll ws).Nodup) (hn : (p, n) ∈ placedAll parent ws)
    (hm : (q, m) ∈ placedAll parent ws) (h : n.id = m.id) : p = q ∧ n = m := by
  rw [← placed_ids parent] at distinct
  exact Prod.mk.inj (List.inj_on_of_nodup_map distinct hn hm h)

end Widget

namespace Forest

def ids (f : Forest) : List String := f.preorder.map (·.id)

def placed (f : Forest) : List (Option String × Widget) := Widget.placedAll none f.roots

def Distinct (f : Forest) : Prop := f.ids.Nodup

instance (f : Forest) : Decidable f.Distinct := inferInstanceAs (Decidable (List.Nodup _))

theorem Distinct.placed_unique {f : Forest} (distinct : f.Distinct) {p q : Option String}
    {n m : Widget} (hn : (p, n) ∈ f.placed) (hm : (q, m) ∈ f.placed) (h : n.id = m.id) :
    p = q ∧ n = m :=
  Widget.placed_unique distinct hn hm h

theorem mem_ids_iff {f : Forest} {id : String} :
    id ∈ f.ids ↔ ∃ p n, (p, n) ∈ f.placed ∧ n.id = id :=
  Widget.mem_idsAll_iff

theorem mem_roots_iff {f : Forest} {n : Widget} : n ∈ f.roots ↔ (none, n) ∈ f.placed := by
  constructor
  · exact Widget.placed_of_mem none
  · intro h
    rcases Widget.parent_of_placedAll f.roots h with ⟨_, hn⟩ | ⟨q, m, _, hp, _⟩
    · exact hn
    · exact nomatch hp

theorem mem_placed_iff {f : Forest} {p : Option String} {n : Widget} :
    (p, n) ∈ f.placed ↔ (p = none ∧ n ∈ f.roots) ∨
      ∃ r ∈ f.roots, (p, n) ∈ Widget.placedAll (some r.id) r.children := by
  obtain ⟨roots⟩ := f
  change (p, n) ∈ Widget.placedAll none roots ↔ _
  induction roots with
  | nil => simp
  | cons r rs ih =>
    rw [Widget.placedAll_cons, Widget.placed_eq, List.mem_append, List.mem_cons, ih]
    simp only [Prod.mk.injEq, List.mem_cons, exists_eq_or_imp]
    tauto

theorem Distinct.mem_children_iff {f : Forest} (distinct : f.Distinct) {p : Option String}
    {n c : Widget} (hn : (p, n) ∈ f.placed) : (some n.id, c) ∈ f.placed ↔ c ∈ n.children := by
  constructor
  · intro h
    rcases Widget.parent_of_placedAll f.roots h with ⟨hp, _⟩ | ⟨q, m, hm, hp, hc⟩
    · exact nomatch hp
    · obtain ⟨_, rfl⟩ := distinct.placed_unique hn hm (Option.some.inj hp)
      exact hc
  · intro hc
    exact Widget.child_placedAll hc f.roots hn

theorem repeated?_eq_none_iff {seen ws : List Widget} :
    repeated? seen ws = none ↔
      (ws.map (·.id)).Nodup ∧ ∀ w ∈ ws, ∀ earlier ∈ seen, earlier.id ≠ w.id := by
  induction ws generalizing seen with
  | nil => simp [repeated?]
  | cons w ws ih =>
    rw [repeated?]
    split
    next first found =>
      have h := List.find?_some found
      have mem := List.mem_of_find?_eq_some found
      simp only [reduceCtorEq, false_iff, not_and]
      intro _ fresh
      exact fresh w List.mem_cons_self first mem (by simpa using h)
    next found =>
      rw [List.find?_eq_none] at found
      simp only [ih, List.map_cons, List.nodup_cons, List.mem_append, List.mem_singleton,
        List.mem_map, not_exists, not_and, List.forall_mem_cons]
      constructor
      · rintro ⟨distinct, fresh⟩
        exact ⟨⟨fun n hn e => fresh n hn w (.inr rfl) e.symm, distinct⟩,
          fun e he => by simpa using found e he, fun n hn e he => fresh n hn e (.inl he)⟩
      · rintro ⟨⟨fresh, distinct⟩, _, seen⟩
        refine ⟨distinct, fun n hn e he => ?_⟩
        rcases he with he | rfl
        · exact seen n hn e he
        · exact fun eq => fresh n hn eq.symm

theorem firstDuplicate?_eq_none_iff {f : Forest} : f.firstDuplicate? = none ↔ f.Distinct := by
  rw [firstDuplicate?, repeated?_eq_none_iff]
  simp [Distinct, ids]

end Forest
end WidgetScript
