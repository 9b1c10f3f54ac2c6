import WidgetScript.Proofs.Live.Reconcile

/-! A tree in sync with a declaration needs no commands. A tree that has only its links in
common with one, and no entity of another kind at the place of a widget, can at least be
reconciled with it. -/
namespace WidgetScript
open LiveTree Reconcile

structure LiveTree.InSync (t : LiveTree) (decl : Forest) : Prop where
  wellFormed : t.WellFormed
  mirrors : t.Mirrors decl
  holds : t.Holds decl

/-- No widget is declared at the place of an entity of another kind. -/
def LiveTree.Fits (t : LiveTree) (decl : Forest) : Prop :=
  ∀ parent n e, (parent, n) ∈ decl.placed → t.get? n.id = some e → e.parent = parent →
    e.kind = n.kind

namespace LiveTree
variable {t : LiveTree} {decl : Forest} {id : String} {e : Entity} {s : Survey}

theorem Mirrors.distinct (mirrors : t.Mirrors decl) (wf : t.WellFormed) : decl.Distinct := by
  unfold Forest.Distinct
  rw [← mirrors.ids]
  exact wf.once

theorem Mirrors.get?_indexOf (mirrors : t.Mirrors decl) (wf : t.WellFormed)
    (found : t.get? id = some e) :
    Fields.get? (indexOf decl) id = some ⟨e.parent, e.kind⟩ := by
  have mem : id ∈ decl.ids := mirrors.ids ▸ wf.mem_ids found
  obtain ⟨p, n, hn, rfl⟩ := Forest.mem_ids_iff.1 mem
  obtain ⟨e', found', kind, under, _⟩ := mirrors.nodes p n hn
  cases found.symm.trans found'
  rw [Reconcile.get?_indexOf (mirrors.distinct wf) hn, kind, under]

theorem Fits.reconcile_isOk (fits : t.Fits decl) (wf : t.WellFormed) (distinct : decl.Distinct) :
    ∃ cmds, t.reconcile decl = .ok cmds := by
  have allowed : ∀ id e d, t.get? id = some e → Fields.get? (indexOf decl) id = some d →
      d.parent = e.parent → d.kind = e.kind := by
    intro id e d found declared under
    obtain ⟨n, hn, rfl, kind⟩ := placed_of_get?_indexOf distinct declared
    rw [← kind, fits d.parent n e hn found under.symm]
  obtain ⟨s, hs⟩ := survey_ok wf.spans allowed
  unfold reconcile
  exact ⟨_, bind_eq_ok.2 ⟨s, hs, rfl⟩⟩

theorem Mirrors.fits (mirrors : t.Mirrors decl) : t.Fits decl := by
  intro p n e hn found _
  obtain ⟨e', found', kind, _⟩ := mirrors.nodes p n hn
  cases found.symm.trans found'
  exact kind

end LiveTree

namespace Reconcile
variable {live : LiveTree} {survivors : List String} {parent : Option String}

theorem Surveyed.eq_of_declared {look : String → Option Entity} {index : Index}
    {ids all : List String} {s : Survey} (h : Surveyed look index parent ids s all)
    (declared : ∀ id e, look id = some e → Fields.get? index id = some ⟨e.parent, e.kind⟩) :
    s = ⟨[], all⟩ := by
  induction h with
  | nil => rfl
  | kept _ _ _ _ _ ihInner ihOuter =>
    rw [ihInner, ihOuter]
    rfl
  | gone found under other _ _ _ => exact absurd under (other _ (declared _ _ found))

theorem created_eq_nil {ws : List Widget}
    (stay : ∀ n ∈ ws, (survivor? live survivors n.id).isSome = true) :
    created live survivors ws = [] := by
  rw [created, List.filter_eq_nil_iff]
  simp only [List.mem_map]
  rintro _ ⟨n, hn, rfl⟩
  obtain ⟨e, he⟩ := Option.isSome_iff_exists.1 (stay n hn)
  simp [he]

theorem closing_eq_nil {ws : List Widget}
    (stay : ∀ n ∈ ws, (survivor? live survivors n.id).isSome = true) :
    closing live survivors parent (ws.map (·.id)) ws = [] := by
  rw [closing, created_eq_nil stay, List.append_nil, if_pos rfl]

structure Unchanged (live : LiveTree) (survivors : List String) (n : Widget) : Prop where
  standing : standing live survivors n.id = n.children.map (·.id)
  holds : ∃ e, survivor? live survivors n.id = some e ∧ Properties.diff e.props n.props = []

mutual

theorem emit_eq_nil : (w : Widget) → (∀ n ∈ w.preorder, Unchanged live survivors n) →
    ∀ parent, emit live survivors parent w = []
  | ⟨kind, id, props, children, pos⟩, same, parent => by
    rw [Widget.preorder] at same
    obtain ⟨standing, e, survives, equal⟩ := same _ List.mem_cons_self
    have below : ∀ n ∈ Widget.preorderAll children, Unchanged live survivors n :=
      fun n hn => same n (List.mem_cons_of_mem _ hn)
    have stay : ∀ n ∈ children, (survivor? live survivors n.id).isSome = true := by
      intro n hn
      obtain ⟨_, e, he, _⟩ :=
        below n (Widget.mem_preorderAll.2 ⟨n, hn, Widget.self_mem_preorder n⟩)
      rw [he, Option.isSome_some]
    rw [emit_eq, emitAll_eq_nil children below, standing, closing_eq_nil stay, opening, survives]
    simp [update, equal]

theorem emitAll_eq_nil : (ws : List Widget) →
    (∀ n ∈ Widget.preorderAll ws, Unchanged live survivors n) →
    ∀ parent, emitAll live survivors parent ws = []
  | [], _, parent => by rw [emitAll]
  | w :: ws, same, parent => by
    rw [Widget.preorderAll] at same
    rw [emitAll, emit_eq_nil w fun n hn => same n (List.mem_append_left _ hn),
      emitAll_eq_nil ws fun n hn => same n (List.mem_append_right _ hn), List.append_nil]

end

end Reconcile

namespace LiveTree
variable {t : LiveTree} {decl : Forest}

theorem WellFormed.applyAll_mirrors {cmds : List Command} (wf : t.WellFormed)
    (distinct : decl.Distinct) (h : t.reconcile decl = .ok cmds) :
    (t.applyAll cmds).1.WellFormed ∧ (t.applyAll cmds).1.Mirrors decl ∧
      (t.applyAll cmds).1.Carries decl := by
  obtain ⟨s, t', _, run, result⟩ := reconcile_runs wf distinct h
  rw [run.applyAll_eq]
  exact ⟨result.wellFormed, result.mirrors, result.carries⟩

theorem InSync.reconcile_eq_nil (sync : t.InSync decl) : t.reconcile decl = .ok [] := by
  obtain ⟨wf, mirrors, holds⟩ := sync
  have distinct := mirrors.distinct wf
  obtain ⟨cmds, h⟩ := mirrors.fits.reconcile_isOk wf distinct
  obtain ⟨s, surveyed, eq⟩ := reconcile_eq_ok wf h
  have all : s = ⟨[], t.ids⟩ :=
    Surveyed.eq_of_declared surveyed fun id e => mirrors.get?_indexOf wf
  have stays (id : String) (e : Entity) (found : t.get? id = some e) :
      survivor? t s.survivors id = some e := by
    rw [survivor?, all, if_pos (wf.mem_ids found), found]
  have unchanged : ∀ n ∈ decl.preorder, Unchanged t s.survivors n := by
    intro n hn
    obtain ⟨p, hp⟩ := Widget.placed_of_mem_preorder none hn
    obtain ⟨e, found, _, _, children⟩ := mirrors.nodes p n hp
    obtain ⟨e', found', values⟩ := holds n hn
    cases found.symm.trans found'
    refine ⟨?_, e, stays n.id e found, Properties.diff_eq_nil_iff.2 values⟩
    have kept : e.children.filter (· ∈ s.survivors) = e.children := by
      rw [List.filter_eq_self]
      intro c hc
      obtain ⟨ce, hce, _⟩ := wf.children n.id e found c hc
      simpa [all] using wf.mem_ids hce
    rw [standing, stays n.id e found, ← children, ← kept]
  have roots : t.roots.filter (· ∈ s.survivors) = decl.roots.map (·.id) := by
    rw [← mirrors.roots, List.filter_eq_self]
    intro c hc
    obtain ⟨ce, hce, _⟩ := wf.roots c hc
    simpa [all] using wf.mem_ids hce
  have stay : ∀ n ∈ decl.roots, (survivor? t s.survivors n.id).isSome = true := by
    intro n hn
    obtain ⟨e, found, _⟩ := mirrors.nodes none n (Forest.mem_roots_iff.1 hn)
    rw [stays n.id e found, Option.isSome_some]
  rw [h, eq, roots, closing_eq_nil stay, emitAll_eq_nil decl.roots unchanged, all]
  rfl

end LiveTree
end WidgetScript
