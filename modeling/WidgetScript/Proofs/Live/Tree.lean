import WidgetScript.Proofs.Fields
import WidgetScript.Live.Tree

/-! A live tree is well formed if its links agree and its pre-order meets every entity of
the table once. The links make a tree that is spanned from the roots down; this spanning
tree, and not the bounded walk, is what proofs go by. -/
namespace WidgetScript.LiveTree

variable {t : LiveTree}

structure Keyed (t : LiveTree) : Prop where
  keys : (Fields.keys t.entities).Nodup
  named : ∀ id e, t.get? id = some e → e.id = id

/-- Parent and child links agree, and from the roots every entity is reached exactly once. -/
structure WellFormed (t : LiveTree) : Prop extends t.Keyed where
  roots : ∀ id ∈ t.roots, ∃ e, t.get? id = some e ∧ e.parent = none
  children : ∀ id e, t.get? id = some e → ∀ c ∈ e.children,
    ∃ child, t.get? c = some child ∧ child.parent = some id
  once : t.ids.Nodup
  reached : ∀ id, id ∈ t.ids ↔ t.contains id = true

theorem contains_iff {id : String} : t.contains id = true ↔ ∃ e, t.get? id = some e := by
  rw [contains, Option.isSome_iff_exists]

theorem mem_keys_iff {id : String} :
    id ∈ Fields.keys t.entities ↔ t.contains id = true :=
  Fields.contains_iff.symm

/-- The entities `ids` stand under `parent`, and `all` lists them and what is below them. -/
inductive Spans (look : String → Option Entity) :
    Option String → List String → List String → Prop where
  | nil {parent : Option String} : Spans look parent [] []
  | cons {parent : Option String} {id : String} {e : Entity} {ids below rest : List String} :
      look id = some e → e.parent = parent → Spans look (some id) e.children below →
      Spans look parent ids rest → Spans look parent (id :: ids) (id :: (below ++ rest))

namespace Spans
variable {look : String → Option Entity} {parent : Option String}
  {ids all : List String} {id c : String} {e : Entity}

theorem get? (h : Spans look parent ids all) (hid : id ∈ all) : ∃ e, look id = some e := by
  induction h with
  | nil => simp at hid
  | cons found _ _ _ below rest =>
    rcases List.mem_cons.1 hid with rfl | hid
    · exact ⟨_, found⟩
    · exact (List.mem_append.1 hid).elim below rest

theorem parent_eq (h : Spans look parent ids all) (hid : id ∈ ids) :
    id ∈ all ∧ ∃ e, look id = some e ∧ e.parent = parent := by
  induction h with
  | nil => simp at hid
  | cons found under _ _ _ rest =>
    rcases List.mem_cons.1 hid with rfl | hid
    · exact ⟨List.mem_cons_self, _, found, under⟩
    · obtain ⟨mem, e, he⟩ := rest hid
      exact ⟨List.mem_cons_of_mem _ (List.mem_append_right _ mem), e, he⟩

theorem child (h : Spans look parent ids all) (hid : id ∈ all) (found : look id = some e)
    (hc : c ∈ e.children) : c ∈ all ∧ ∃ child, look c = some child ∧ child.parent = some id := by
  induction h with
  | nil => simp at hid
  | cons here _ span _ below rest =>
    rcases List.mem_cons.1 hid with rfl | hid
    · cases here.symm.trans found
      obtain ⟨mem, child⟩ := span.parent_eq hc
      exact ⟨List.mem_cons_of_mem _ (List.mem_append_left _ mem), child⟩
    · rcases List.mem_append.1 hid with hid | hid
      · obtain ⟨mem, child⟩ := below hid
        exact ⟨List.mem_cons_of_mem _ (List.mem_append_left _ mem), child⟩
      · obtain ⟨mem, child⟩ := rest hid
        exact ⟨List.mem_cons_of_mem _ (List.mem_append_right _ mem), child⟩

theorem sublist (h : Spans look parent ids all) : ids.Sublist all := by
  induction h with
  | nil => exact List.Sublist.slnil
  | @cons parent id e ids below rest _ _ _ _ _ ihRest =>
    exact (ihRest.trans (List.sublist_append_right below rest)).cons_cons id

theorem children_sublist (h : Spans look parent ids all) (hid : id ∈ all)
    (found : look id = some e) : e.children.Sublist all := by
  induction h with
  | nil => simp at hid
  | @cons parent id' e' ids below rest here _ span _ ihBelow ihRest =>
    have first : below.Sublist (id' :: (below ++ rest)) :=
      (List.sublist_append_left below rest).cons id'
    have second : rest.Sublist (id' :: (below ++ rest)) :=
      (List.sublist_append_right below rest).cons id'
    rcases List.mem_cons.1 hid with rfl | hid
    · cases here.symm.trans found
      exact span.sublist.trans first
    · rcases List.mem_append.1 hid with hid | hid
      · exact (ihBelow hid).trans first
      · exact (ihRest hid).trans second

theorem listed (h : Spans look parent ids all) (hid : id ∈ all) (found : look id = some e) :
    (id ∈ ids ∧ e.parent = parent) ∨
      ∃ p pe, e.parent = some p ∧ p ∈ all ∧ look p = some pe ∧ id ∈ pe.children := by
  induction h with
  | nil => simp at hid
  | cons here under _ _ below rest =>
    rcases List.mem_cons.1 hid with rfl | hid
    · cases here.symm.trans found
      exact .inl ⟨List.mem_cons_self, under⟩
    · rcases List.mem_append.1 hid with hid | hid
      · rcases below hid with ⟨mem, hp⟩ | ⟨p, pe, hp, mem, hpe⟩
        · exact .inr ⟨_, _, hp, List.mem_cons_self, here, mem⟩
        · exact .inr ⟨p, pe, hp, List.mem_cons_of_mem _ (List.mem_append_left _ mem), hpe⟩
      · rcases rest hid with ⟨mem, hp⟩ | ⟨p, pe, hp, mem, hpe⟩
        · exact .inl ⟨List.mem_cons_of_mem _ mem, hp⟩
        · exact .inr ⟨p, pe, hp, List.mem_cons_of_mem _ (List.mem_append_right _ mem), hpe⟩

theorem length_le (h : Spans t.get? parent ids all) (once : all.Nodup) : all.length ≤ t.size := by
  have mem : all ⊆ Fields.keys t.entities := fun id hid =>
    mem_keys_iff.2 (contains_iff.2 (h.get? hid))
  have bound := once.length_le_of_subset mem
  rwa [Fields.keys, List.length_map] at bound

end Spans

theorem walk_cons {levels : Nat} {id : String} {ids : List String} {e : Entity}
    (found : t.get? id = some e) :
    t.walk (levels + 1) (id :: ids) = id :: (t.walk levels e.children ++ t.walk (levels + 1) ids) := by
  simp [walk, found]

theorem Spans.walk_eq {parent : Option String} {ids all : List String}
    (h : Spans t.get? parent ids all) {levels : Nat} (enough : all.length ≤ levels) :
    t.walk levels ids = all := by
  induction h generalizing levels with
  | nil => cases levels <;> simp [walk]
  | @cons parent id e ids below all found under _ _ ihBelow ihRest =>
    simp only [List.length_cons, List.length_append] at enough
    obtain ⟨n, rfl⟩ : ∃ n, levels = n + 1 := ⟨levels - 1, by omega⟩
    rw [walk_cons found, ihBelow (by omega), ihRest (by omega)]

/-- A branch of the walk never meets an entity again, so it is shorter than the table. -/
private theorem spans_walk
    (links : ∀ id e, t.get? id = some e → ∀ c ∈ e.children,
      ∃ child, t.get? c = some child ∧ child.parent = some id)
    (levels : Nat) (above : List String) (parent : Option String) (ids : List String)
    (count : above.length + levels = t.size + 1) (once : (above ++ t.walk levels ids).Nodup)
    (known : ∀ id ∈ above, t.contains id = true)
    (here : ∀ id ∈ ids, ∃ e, t.get? id = some e ∧ e.parent = parent) :
    Spans t.get? parent ids (t.walk levels ids) := by
  induction levels generalizing above parent ids with
  | zero =>
    have mem : above ⊆ Fields.keys t.entities := fun id hid => mem_keys_iff.2 (known id hid)
    have bound := (List.nodup_append.1 once).1.length_le_of_subset mem
    rw [Fields.keys, List.length_map] at bound
    exact absurd count (by rw [size]; omega)
  | succ levels ih =>
    induction ids with
    | nil => simpa [walk] using Spans.nil
    | cons id ids ihIds =>
      obtain ⟨e, found, under⟩ := here id List.mem_cons_self
      rw [walk_cons found] at once ⊢
      have onceBelow : ((above ++ [id]) ++ t.walk levels e.children).Nodup := by
        refine once.sublist ?_
        rw [List.append_assoc, List.singleton_append]
        exact (((List.sublist_append_left _ _).cons_cons id).append_left above)
      have onceRest : (above ++ t.walk (levels + 1) ids).Nodup := by
        refine once.sublist (List.Sublist.append_left ?_ above)
        exact (List.sublist_append_right _ _).cons id
      refine .cons found under (ih (above ++ [id]) (some id) e.children ?_ onceBelow ?_ ?_)
        (ihIds onceRest fun c hc => here c (List.mem_cons_of_mem _ hc))
      · rw [List.length_append, List.length_singleton]
        omega
      · intro c hc
        rcases List.mem_append.1 hc with hc | hc
        · exact known c hc
        · rw [List.mem_singleton.1 hc]
          exact contains_iff.2 ⟨e, found⟩
      · exact links id e found

theorem WellFormed.spans (h : t.WellFormed) : Spans t.get? none t.roots t.ids := by
  refine spans_walk h.children (t.size + 1) [] none t.roots ?_ ?_ ?_ h.roots
  · simp
  · exact h.once
  · simp

theorem Keyed.wellFormed {all : List String} (h : t.Keyed) (span : Spans t.get? none t.roots all)
    (once : all.Nodup) (whole : ∀ id, t.contains id = true → id ∈ all) :
    t.WellFormed ∧ t.ids = all := by
  have ids : t.ids = all := span.walk_eq (Nat.le_succ_of_le (span.length_le once))
  have reached (id : String) : id ∈ all ↔ t.contains id = true :=
    ⟨fun hid => contains_iff.2 (span.get? hid), whole id⟩
  refine ⟨⟨h, fun id hid => (span.parent_eq hid).2, ?_, ids ▸ once, ids ▸ reached⟩, ids⟩
  intro id e found c hc
  exact (span.child ((reached id).2 (contains_iff.2 ⟨e, found⟩)) found hc).2

theorem WellFormed.mem_ids (h : t.WellFormed) {id : String} {e : Entity}
    (found : t.get? id = some e) : id ∈ t.ids :=
  (h.reached id).2 (contains_iff.2 ⟨e, found⟩)

theorem WellFormed.listed (h : t.WellFormed) {id : String} {e : Entity}
    (found : t.get? id = some e) :
    (id ∈ t.roots ∧ e.parent = none) ∨
      ∃ p pe, e.parent = some p ∧ t.get? p = some pe ∧ id ∈ pe.children := by
  rcases h.spans.listed (h.mem_ids found) found with h | ⟨p, pe, hp, _, hpe⟩
  · exact .inl h
  · exact .inr ⟨p, pe, hp, hpe⟩

theorem WellFormed.mem_roots_iff (h : t.WellFormed) {c : String} {ce : Entity}
    (found : t.get? c = some ce) : c ∈ t.roots ↔ ce.parent = none := by
  constructor
  · intro hc
    obtain ⟨e, found', hp⟩ := h.roots c hc
    cases found.symm.trans found'
    exact hp
  · intro hp
    rcases h.listed found with ⟨hc, _⟩ | ⟨p, pe, hp', _⟩
    · exact hc
    · exact nomatch hp.symm.trans hp'

theorem WellFormed.mem_children_iff (h : t.WellFormed) {id c : String} {e ce : Entity}
    (here : t.get? id = some e) (found : t.get? c = some ce) :
    c ∈ e.children ↔ ce.parent = some id := by
  constructor
  · intro hc
    obtain ⟨ce', found', hp⟩ := h.children id e here c hc
    cases found.symm.trans found'
    exact hp
  · intro hp
    rcases h.listed found with ⟨_, hp'⟩ | ⟨p, pe, hp', hpe, hc⟩
    · exact nomatch hp'.symm.trans hp
    · cases hp'.symm.trans hp
      cases hpe.symm.trans here
      exact hc

theorem WellFormed.roots_nodup (h : t.WellFormed) : t.roots.Nodup :=
  h.once.sublist h.spans.sublist

theorem WellFormed.children_nodup (h : t.WellFormed) {id : String} {e : Entity}
    (found : t.get? id = some e) : e.children.Nodup :=
  h.once.sublist (h.spans.children_sublist (h.mem_ids found) found)

theorem wellFormed_empty : empty.WellFormed := by
  have keyed : empty.Keyed := ⟨List.nodup_nil, fun id e h => nomatch h⟩
  exact (keyed.wellFormed .nil List.nodup_nil fun id h => nomatch h).1

end WidgetScript.LiveTree
