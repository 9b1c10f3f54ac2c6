import WidgetScript.Proofs.Directive.Change
import WidgetScript.Proofs.Forest.Swap

/-! Removal takes a widget out with all that is below it. `Cut` is the path to its place. The
search for that place goes row by row and not in pre-order, but if no id occurs twice there is
only one widget to find. -/
namespace WidgetScript
namespace Widget

/-- Somewhere in a row or below it `gone`, which has `place` for its parent, is taken out. -/
inductive Cut (gone : Widget) (place : Option String) :
    Option String → List Widget → List Widget → Prop where
  | here {ws : List Widget} : Cut gone place place (gone :: ws) ws
  | inside {parent : Option String} {w : Widget} {cs ws : List Widget} :
      Cut gone place (some w.id) w.children cs →
      Cut gone place parent (w :: ws) ({ w with children := cs } :: ws)
  | beside {parent : Option String} {w : Widget} {ws ws' : List Widget} :
      Cut gone place parent ws ws' → Cut gone place parent (w :: ws) (w :: ws')

def alone (w : Widget) : Widget := { w with children := [] }

def outline (parent : Option String) (w : Widget) : List (Option String × Widget) :=
  (w.placed parent).map fun (p, n) => (p, n.alone)

def outlineAll (parent : Option String) (ws : List Widget) : List (Option String × Widget) :=
  (placedAll parent ws).map fun (p, n) => (p, n.alone)

/-- The second widget is the first, and has its children in their order but for that named `id`. -/
structure Spared (id : String) (m n : Widget) : Prop where
  alone : n.alone = m.alone
  row : n.children.map (·.id) = (m.children.map (·.id)).filter (· ≠ id)

variable {id : String} {gone w w' : Widget} {place parent : Option String} {ws ws' : List Widget}

theorem outline_eq (parent : Option String) (w : Widget) :
    w.outline parent = (parent, w.alone) :: outlineAll (some w.id) w.children := by
  rw [outline, placed_eq]
  rfl

theorem outlineAll_cons (parent : Option String) (w : Widget) (ws : List Widget) :
    outlineAll parent (w :: ws) = w.outline parent ++ outlineAll parent ws := by
  rw [outlineAll, placedAll_cons, List.map_append]
  rfl

theorem filter_ne_row (absent : id ∉ idsAll ws) :
    (ws.map (·.id)).filter (· ≠ id) = ws.map (·.id) := by
  refine List.filter_eq_self.2 fun name mem => ?_
  rw [decide_eq_true_eq]
  rintro rfl
  exact absent ((map_id_sublist ws).subset mem)

theorem spared_self {p : Option String} {m : Widget} (hm : (p, m) ∈ placedAll parent ws)
    (absent : id ∉ idsAll ws) : Spared id m m := by
  refine ⟨rfl, (List.filter_eq_self.2 fun name mem => ?_).symm⟩
  obtain ⟨c, hc, rfl⟩ := List.mem_map.1 mem
  rw [decide_eq_true_eq]
  rintro rfl
  exact absent (id_mem_of_placed (child_placedAll hc ws hm))

namespace Cut

theorem row (before after : List Widget) :
    Cut gone parent parent (before ++ gone :: after) (before ++ after) := by
  induction before with
  | nil => exact .here
  | cons w before ih => exact .beside ih

theorem placed (h : Cut gone place parent ws ws') : (place, gone) ∈ placedAll parent ws := by
  induction h with
  | here => exact placed_of_mem _ List.mem_cons_self
  | inside _ ih =>
    rw [placedAll_cons, placed_eq]
    exact List.mem_append_left _ (List.mem_cons_of_mem _ ih)
  | beside _ ih =>
    rw [placedAll_cons]
    exact List.mem_append_right _ ih

theorem outline (h : Cut gone place parent ws ws') : ∃ before after,
    outlineAll parent ws = before ++ gone.outline place ++ after ∧
      outlineAll parent ws' = before ++ after := by
  induction h with
  | @here ws => exact ⟨[], outlineAll place ws, outlineAll_cons _ _ _, rfl⟩
  | @inside parent w cs ws _ ih =>
    obtain ⟨before, after, old, new⟩ := ih
    refine ⟨(parent, w.alone) :: before, after ++ outlineAll parent ws, ?_, ?_⟩
    · rw [outlineAll_cons, outline_eq, old]
      simp only [List.cons_append, List.append_assoc]
    · rw [outlineAll_cons, outline_eq, new]
      simp only [List.cons_append, List.append_assoc]
      rfl
  | @beside parent w _ _ _ ih =>
    obtain ⟨before, after, old, new⟩ := ih
    refine ⟨w.outline parent ++ before, after, ?_, ?_⟩
    · rw [outlineAll_cons, old, List.append_assoc, List.append_assoc, List.append_assoc]
    · rw [outlineAll_cons, new, List.append_assoc]

theorem id_mem (h : Cut gone place parent ws ws') : gone.id ∈ idsAll ws :=
  id_mem_of_placed h.placed

theorem row_ids (h : Cut gone place parent ws ws') (distinct : (idsAll ws).Nodup) :
    ws'.map (·.id) = (ws.map (·.id)).filter (· ≠ gone.id) := by
  induction h with
  | @here ws =>
    rw [idsAll_cons, List.nodup_append'] at distinct
    have absent := distinct.2.2 (by simp : gone.id ∈ gone.ids)
    rw [List.map_cons, List.filter_cons_of_neg (by simp), filter_ne_row absent]
  | @inside _ w _ ws cut _ =>
    rw [idsAll_cons, ids_eq, List.nodup_append', List.nodup_cons] at distinct
    have other : w.id ≠ gone.id := fun same => distinct.1.1 (same ▸ cut.id_mem)
    have absent := distinct.2.2 (List.mem_cons_of_mem _ cut.id_mem)
    rw [List.map_cons, List.map_cons, List.filter_cons_of_pos (by simpa using other),
      filter_ne_row absent]
  | @beside _ w _ _ cut ih =>
    rw [idsAll_cons, List.nodup_append'] at distinct
    have other : w.id ≠ gone.id := fun same => distinct.2.2 (same ▸ by simp) cut.id_mem
    rw [List.map_cons, List.map_cons, List.filter_cons_of_pos (by simpa using other),
      ih distinct.2.1]

theorem spared (h : Cut gone place parent ws ws') (distinct : (idsAll ws).Nodup)
    {p : Option String} {m : Widget} (hm : (p, m) ∈ placedAll parent ws) :
    (p, m) ∈ gone.placed place ∨ ∃ n, Spared gone.id m n ∧ (p, n) ∈ placedAll parent ws' := by
  induction h with
  | @here ws =>
    rw [idsAll_cons, List.nodup_append'] at distinct
    rw [placedAll_cons, List.mem_append] at hm
    refine hm.imp_right fun hm => ⟨m, spared_self hm ?_, hm⟩
    exact distinct.2.2 (by simp)
  | @inside parent w cs ws cut ih =>
    have row := cut.row_ids
    rw [idsAll_cons, ids_eq, List.nodup_append', List.nodup_cons] at distinct
    rw [placedAll_cons, placed_eq, List.mem_append, List.mem_cons] at hm
    simp only [placedAll_cons, placed_eq _ { w with children := cs }, List.mem_append,
      List.mem_cons]
    rcases hm with (hm | hm) | hm
    · cases hm
      exact .inr ⟨{ m with children := cs }, ⟨rfl, row distinct.1.2⟩, .inl (.inl rfl)⟩
    · refine (ih distinct.1.2 hm).imp_right ?_
      rintro ⟨n, spared, hn⟩
      exact ⟨n, spared, .inl (.inr hn)⟩
    · refine .inr ⟨m, spared_self hm ?_, .inr hm⟩
      exact distinct.2.2 (List.mem_cons_of_mem _ cut.id_mem)
  | @beside parent w _ _ cut ih =>
    rw [idsAll_cons, List.nodup_append'] at distinct
    rw [placedAll_cons, List.mem_append] at hm
    simp only [placedAll_cons, List.mem_append]
    rcases hm with hm | hm
    · have first : (p, m) ∈ placedAll parent [w] := by
        rwa [placedAll_cons, placedAll_nil, List.append_nil]
      refine .inr ⟨m, spared_self first ?_, .inl hm⟩
      rw [idsAll_cons, idsAll_nil, List.append_nil]
      exact fun mem => distinct.2.2 mem cut.id_mem
    · refine (ih distinct.2.1 hm).imp_right ?_
      rintro ⟨n, spared, hn⟩
      exact ⟨n, spared, .inr hn⟩

end Cut

theorem takeSibling?_eq_none_iff : takeSibling? id ws = none ↔ id ∉ ws.map (·.id) := by
  induction ws with
  | nil => simp [takeSibling?]
  | cons w ws ih =>
    rw [takeSibling?, List.map_cons, List.mem_cons, not_or, ← ih]
    split
    next same => simp [same]
    next other => simp [Ne.symm other]

theorem mem_idsAll_iff_row :
    id ∈ idsAll ws ↔ id ∈ ws.map (·.id) ∨ ∃ w ∈ ws, id ∈ idsAll w.children := by
  induction ws with
  | nil => simp
  | cons w ws ih =>
    rw [idsAll_cons, ids_eq, List.mem_append, List.mem_cons, ih, List.map_cons, List.mem_cons]
    simp only [List.mem_cons, exists_eq_or_imp]
    tauto

mutual

theorem takeBelow?_eq_none_iff : (w : Widget) → (takeBelow? id w = none ↔ id ∉ idsAll w.children)
  | ⟨kind, name, props, children, pos⟩ => by
    rw [takeBelow?, mem_idsAll_iff_row, not_or, ← takeSibling?_eq_none_iff]
    simp only [not_exists, not_and]
    rw [← takeBelowAny?_eq_none_iff children]
    cases takeSibling? id children <;> simp

theorem takeBelowAny?_eq_none_iff : (ws : List Widget) →
    (takeBelowAny? id ws = none ↔ ∀ w ∈ ws, id ∉ idsAll w.children)
  | [] => by simp [takeBelowAny?]
  | w :: ws => by
    rw [takeBelowAny?, List.forall_mem_cons, ← takeBelow?_eq_none_iff w,
      ← takeBelowAny?_eq_none_iff ws]
    cases takeBelow? id w <;> simp

end

mutual

theorem cut_of_takeBelow? : (w : Widget) → ∀ w', takeBelow? id w = some (gone, w') →
    gone.id = id ∧ ∃ place cs, w' = { w with children := cs } ∧
      Cut gone place (some w.id) w.children cs
  | ⟨kind, name, props, children, pos⟩, w', h => by
    rw [takeBelow?] at h
    split at h
    next found rest taken =>
      cases h
      obtain ⟨named, before, after, rfl, rfl⟩ := takeSibling?_eq_some taken
      exact ⟨named, _, _, rfl, .row before after⟩
    next =>
      obtain ⟨⟨found, cs⟩, taken, h⟩ := Option.map_eq_some_iff.1 h
      cases h
      obtain ⟨named, path⟩ := cut_of_takeBelowAny? children cs taken
      obtain ⟨place, cut⟩ := path (some name)
      exact ⟨named, place, cs, rfl, cut⟩

theorem cut_of_takeBelowAny? : (ws : List Widget) → ∀ ws', takeBelowAny? id ws = some (gone, ws') →
    gone.id = id ∧ ∀ parent, ∃ place, Cut gone place parent ws ws'
  | [], _, h => nomatch h
  | w :: ws, _, h => by
    rw [takeBelowAny?] at h
    split at h
    next found w' taken =>
      cases h
      obtain ⟨named, place, cs, rfl, cut⟩ := cut_of_takeBelow? w w' taken
      exact ⟨named, fun parent => ⟨place, .inside cut⟩⟩
    next =>
      obtain ⟨⟨found, rest⟩, taken, h⟩ := Option.map_eq_some_iff.1 h
      cases h
      obtain ⟨named, path⟩ := cut_of_takeBelowAny? ws rest taken
      refine ⟨named, fun parent => ?_⟩
      obtain ⟨place, cut⟩ := path parent
      exact ⟨place, .beside cut⟩

end

end Widget

namespace Forest
open Widget
variable {f g : Forest} {id : String} {w : Widget}

def outline (f : Forest) : List (Option String × Widget) := outlineAll none f.roots

def remove (f : Forest) (id : String) : Option Widget × Forest :=
  match f.remove? id with
  | some (w, g) => (some w, g)
  | none => (none, f)

structure Without (f : Forest) (w : Widget) (g : Forest) : Prop where
  outline : ∃ parent before after, (parent, w) ∈ f.placed ∧
    f.outline = before ++ w.outline parent ++ after ∧ g.outline = before ++ after
  spared : ∀ p n, (p, n) ∈ f.placed → n ∈ w.preorder ∨ ∃ m, Spared w.id n m ∧ (p, m) ∈ g.placed
  roots : g.roots.map (·.id) = (f.roots.map (·.id)).filter (· ≠ w.id)

theorem without_of_cut {place : Option String} (distinct : f.Distinct)
    (cut : Cut w place none f.roots g.roots) : f.Without w g where
  outline := by
    obtain ⟨before, after, old, new⟩ := cut.outline
    exact ⟨place, before, after, cut.placed, old, new⟩
  spared _ _ hn := (cut.spared distinct hn).imp_left mem_preorder_of_mem_placed
  roots := cut.row_ids distinct

theorem cut_of_remove? (h : f.remove? id = some (w, g)) :
    w.id = id ∧ ∃ place, Cut w place none f.roots g.roots := by
  unfold remove? at h
  split at h
  next found roots taken =>
    cases h
    obtain ⟨named, before, after, row, rest⟩ := takeSibling?_eq_some taken
    exact ⟨named, none, row ▸ rest ▸ .row before after⟩
  next =>
    obtain ⟨⟨found, roots⟩, taken, h⟩ := Option.map_eq_some_iff.1 h
    cases h
    obtain ⟨named, path⟩ := cut_of_takeBelowAny? f.roots roots taken
    exact ⟨named, path none⟩

theorem remove?_eq_none_iff : f.remove? id = none ↔ id ∉ f.ids := by
  change _ ↔ id ∉ idsAll f.roots
  rw [mem_idsAll_iff_row, not_or, ← takeSibling?_eq_none_iff]
  simp only [not_exists, not_and]
  rw [← takeBelowAny?_eq_none_iff, remove?]
  cases takeSibling? id f.roots <;> simp

theorem find?_eq_none_iff : f.find? id = none ↔ id ∉ f.ids :=
  findAmong?_eq_none_iff f.roots

theorem Distinct.find?_of_remove? (distinct : f.Distinct) (h : f.remove? id = some (w, g)) :
    f.find? id = some w := by
  obtain ⟨rfl, place, cut⟩ := cut_of_remove? h
  have present : f.find? w.id ≠ none := fun none => find?_eq_none_iff.1 none cut.id_mem
  obtain ⟨found, there⟩ := Option.ne_none_iff_exists'.1 present
  obtain ⟨named, place', _, -, swap⟩ := swap_of_find? found there
  rw [there, (distinct.placed_unique swap.placed_old cut.placed named).2]

/-- Removal gives the widget that a search finds, with its subtree, and leaves all else. -/
theorem remove_without (distinct : f.Distinct) (id : String) :
    (id ∈ f.ids → ∃ w, f.find? id = some w ∧ (f.remove id).1 = some w ∧
      f.Without w (f.remove id).2) ∧
    (id ∉ f.ids → f.find? id = none ∧ f.remove id = (none, f)) := by
  constructor
  · intro present
    obtain ⟨⟨w, g⟩, removed⟩ :=
      Option.ne_none_iff_exists'.1 (mt remove?_eq_none_iff.1 (not_not.2 present))
    obtain ⟨-, place, cut⟩ := cut_of_remove? removed
    refine ⟨w, distinct.find?_of_remove? removed, ?_⟩
    rw [remove, removed]
    exact ⟨rfl, without_of_cut distinct cut⟩
  · intro absent
    refine ⟨find?_eq_none_iff.2 absent, ?_⟩
    rw [remove, remove?_eq_none_iff.2 absent]

/-- A row with two buttons goes from between a window and the text behind it. -/
theorem remove_without_row :
    let row : Widget := ⟨.row, "r", [], [.leaf .button "a", .leaf .button "b"], .none⟩
    let f : Forest := ⟨[⟨.window, "v", [], [row, .leaf .text "t"], .none⟩, .leaf .window "w"]⟩
    let g : Forest := ⟨[⟨.window, "v", [], [.leaf .text "t"], .none⟩, .leaf .window "w"]⟩
    f.Distinct ∧ f.remove "r" = (some row, g) ∧ f.find? "r" = some row ∧ f.Without row g ∧
      f.remove "x" = (none, f) := by
  intro row f g
  have distinct : f.Distinct := by decide
  have removed : f.remove "r" = (some row, g) := rfl
  obtain ⟨w, found, same, without⟩ := (remove_without distinct "r").1 (by decide)
  rw [removed] at same without
  cases same
  exact ⟨distinct, removed, found, without, ((remove_without distinct "x").2 (by decide)).2⟩

end Forest
end WidgetScript
