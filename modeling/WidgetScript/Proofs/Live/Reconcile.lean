import WidgetScript.Proofs.Live.Emit

/-! Reconciling is right: the commands that it finds are all valid when their turn comes, and
the tree that they lead to is well formed and the image of the declaration. Whoever has the
same chain of ids above it in both keeps its handle, and what was not asked to change. -/
namespace WidgetScript
open LiveTree Reconcile

/-- The tree has the roots of the forest, its ids in their order, and each widget where it
is declared. -/
structure LiveTree.Mirrors (t : LiveTree) (decl : Forest) : Prop where
  roots : t.roots = decl.roots.map (·.id)
  ids : t.ids = decl.ids
  nodes : ∀ parent n, (parent, n) ∈ decl.placed → ∃ e, t.get? n.id = some e ∧
    e.kind = n.kind ∧ e.parent = parent ∧ e.children = n.children.map (·.id)

/-- Each declared property has an equal value on its entity. -/
def LiveTree.Holds (t : LiveTree) (decl : Forest) : Prop :=
  ∀ n ∈ decl.preorder, ∃ e, t.get? n.id = some e ∧
    ∀ field ∈ n.props, ∃ value, Fields.get? e.props field.1 = some value ∧
      value.same field.2 = true

def LiveTree.Carries (t : LiveTree) (decl : Forest) : Prop :=
  ∀ n ∈ decl.preorder, ∃ e, t.get? n.id = some e ∧ ((Fields.keys n.props).Nodup →
    ∀ field ∈ n.props, ∃ value, Fields.get? e.props field.1 = some value ∧ value.Agrees field.2)

/-- The chain of ids from the root down to `id` is the same in the tree and in the forest. -/
inductive LiveTree.Survives (live : LiveTree) (decl : Forest) : String → Prop where
  | root {n : Widget} {e : Entity} :
      live.get? n.id = some e → e.parent = none → (none, n) ∈ decl.placed →
      Survives live decl n.id
  | child {parent : String} {n : Widget} {e : Entity} :
      Survives live decl parent →
      live.get? n.id = some e → e.parent = some parent → (some parent, n) ∈ decl.placed →
      Survives live decl n.id

/-- No property of the forest holds NaN, and no table of properties a key twice. -/
def Forest.Regular (decl : Forest) : Prop := ∀ n ∈ decl.preorder, n.props.Regular

theorem LiveTree.Carries.holds {t : LiveTree} {decl : Forest} (carries : t.Carries decl)
    (regular : decl.Regular) : t.Holds decl := by
  intro n hn
  obtain ⟨e, found, values⟩ := carries n hn
  refine ⟨e, found, fun field hf => ?_⟩
  obtain ⟨value, here, agrees⟩ := values (regular n hn).1 field hf
  exact ⟨value, here, agrees.same ((regular n hn).2 field hf)⟩

structure LiveTree.Follows (live : LiveTree) (decl : Forest) (t : LiveTree) : Prop where
  wellFormed : t.WellFormed
  mirrors : t.Mirrors decl
  holds : t.Holds decl
  kept : ∀ n old, live.Survives decl n.id → n ∈ decl.preorder → live.get? n.id = some old →
    ∃ e, t.get? n.id = some e ∧ e.handle = old.handle ∧
      ∀ key, Fields.get? n.props key = none → Fields.get? e.props key = Fields.get? old.props key
  made : ∀ n ∈ decl.preorder, ¬ live.Survives decl n.id →
    ∃ e, t.get? n.id = some e ∧ e.props = n.props ∧ live.nextHandle ≤ e.handle

namespace Reconcile
variable {live t t' : LiveTree} {decl : Forest} {s : Survey} {id : String} {e : Entity}
  {cmds : List Command}

def Surveys (live : LiveTree) (decl : Forest) (s : Survey) : Prop :=
  Surveyed live.get? (indexOf decl) none live.roots s live.ids

theorem reconcile_eq_ok (wf : live.WellFormed) (h : live.reconcile decl = .ok cmds) :
    ∃ s, Surveys live decl s ∧ cmds = s.destroyed.map .destroy
      ++ emitAll live s.survivors none decl.roots
      ++ closing live s.survivors none (live.roots.filter (· ∈ s.survivors)) decl.roots := by
  unfold LiveTree.reconcile at h
  obtain ⟨s, hs, h⟩ := bind_eq_ok.1 h
  cases h
  have enough : live.ids.length ≤ live.size + 1 :=
    Nat.le_succ_of_le (wf.spans.length_le wf.once)
  exact ⟨s, .of_survey wf.spans enough hs, rfl⟩

theorem survives_of_declared (distinct : decl.Distinct) (found : live.get? id = some e)
    {d : Declared} (declared : Fields.get? (indexOf decl) id = some d) (under : d.parent = e.parent)
    (above : ∀ p, e.parent = some p → live.Survives decl p) : live.Survives decl id := by
  obtain ⟨n, hn, rfl, _⟩ := placed_of_get?_indexOf distinct declared
  rw [under] at hn
  cases hp : e.parent with
  | none =>
    rw [hp] at hn
    exact .root found hp hn
  | some p =>
    rw [hp] at hn
    exact .child (above p hp) found hp hn

theorem Surveyed.chain {parent : Option String} {ids all : List String}
    (h : Surveyed live.get? (indexOf decl) parent ids s all) (distinct : decl.Distinct)
    (above : ∀ p, parent = some p → live.Survives decl p) (hid : id ∈ s.survivors) :
    live.Survives decl id := by
  induction h with
  | nil => simp at hid
  | @kept parent id' e ids below rest inner outer found under declared _ _ ihInner ihOuter =>
    have here : live.Survives decl id' :=
      survives_of_declared distinct found declared under.symm fun p hp => above p (under ▸ hp)
    simp only [Survey.append, List.mem_append, List.mem_singleton] at hid
    rcases hid with (rfl | hid) | hid
    · exact here
    · refine ihInner (fun p hp => ?_) hid
      cases hp
      exact here
    · exact ihOuter above hid
  | gone _ _ _ _ _ ihOuter => exact ihOuter above hid

section
variable (wf : live.WellFormed) (distinct : decl.Distinct) (surveyed : Surveys live decl s)
include wf distinct surveyed

theorem mem_survivors_of_survives (h : live.Survives decl id) : id ∈ s.survivors := by
  induction h with
  | @root n e found under hn =>
    exact surveyed.survives (.inl ⟨(wf.mem_roots_iff found).2 under, under⟩)
      ⟨_, get?_indexOf distinct hn, under.symm⟩
  | @child parent n e _ found under hn ih =>
    obtain ⟨pe, hpe, _⟩ := surveyed.survivor ih
    exact surveyed.survives (.inr ⟨_, pe, ih, hpe, (wf.mem_children_iff hpe found).2 under, under⟩)
      ⟨_, get?_indexOf distinct hn, under.symm⟩

/-- Survivors are those whose chain of ids is the same in the tree and in the forest. -/
theorem mem_survivors_iff : id ∈ s.survivors ↔ live.Survives decl id :=
  ⟨surveyed.chain distinct (fun _ hp => nomatch hp),
    mem_survivors_of_survives wf distinct surveyed⟩

end

theorem survivor?_eq_some_iff {survivors : List String} :
    survivor? live survivors id = some e ↔ id ∈ survivors ∧ live.get? id = some e := by
  unfold survivor?
  split <;> simp [*]

section
variable (surveyed : Surveys live decl s)
include surveyed

theorem survivor?_isSome_iff :
    (survivor? live s.survivors id).isSome = true ↔ id ∈ s.survivors := by
  rw [Option.isSome_iff_exists]
  constructor
  · rintro ⟨e, he⟩
    exact (survivor?_eq_some_iff.1 he).1
  · intro hid
    obtain ⟨e, found, _⟩ := surveyed.survivor hid
    exact ⟨e, survivor?_eq_some_iff.2 ⟨hid, found⟩⟩

theorem survivor_declared (distinct : decl.Distinct) {parent : Option String} {n : Widget}
    (hn : (parent, n) ∈ decl.placed) (hid : n.id ∈ s.survivors) :
    ∃ e, live.get? n.id = some e ∧ e.kind = n.kind ∧ e.parent = parent ∧
      ∀ p, parent = some p → p ∈ s.survivors := by
  obtain ⟨e, found, declared, above⟩ := surveyed.survivor hid
  have same := declared.symm.trans (get?_indexOf distinct hn)
  simp only [Option.some.injEq, Declared.mk.injEq] at same
  obtain ⟨under, kind⟩ := same
  refine ⟨e, found, kind, under, fun p hp => ?_⟩
  rcases above with h | ⟨q, hq, h⟩
  · exact nomatch (h.symm.trans under).trans hp
  · cases (h.symm.trans under).trans hp
    exact hq

theorem row_of_surveyed (distinct : decl.Distinct)
    {parent : Option String} {ids : List String} {ws : List Widget}
    (inTree : ∀ c e, live.get? c = some e → (c ∈ ids ↔ e.parent = parent))
    (once : ids.Nodup)
    (inForest : ∀ n, (parent, n) ∈ decl.placed ↔ n ∈ ws) :
    Row live s.survivors (ids.filter (· ∈ s.survivors)) ws := by
  refine ⟨once.filter _, fun c => ?_⟩
  rw [List.mem_filter, decide_eq_true_eq, survivor?_isSome_iff surveyed]
  refine and_congr_left fun hc => ?_
  obtain ⟨e, found, declared, _⟩ := surveyed.survivor hc
  rw [inTree c e found, List.mem_map]
  constructor
  · rintro rfl
    obtain ⟨n, hn, hid, _⟩ := placed_of_get?_indexOf distinct declared
    exact ⟨n, (inForest n).1 hn, hid⟩
  · rintro ⟨n, hn, rfl⟩
    have same := declared.symm.trans (get?_indexOf distinct ((inForest n).2 hn))
    simp only [Option.some.injEq, Declared.mk.injEq] at same
    exact same.1

theorem row_of_roots (wf : live.WellFormed) (distinct : decl.Distinct) :
    Row live s.survivors (live.roots.filter (· ∈ s.survivors)) decl.roots :=
  row_of_surveyed surveyed distinct (fun _ _ => wf.mem_roots_iff) wf.roots_nodup
    fun _ => Forest.mem_roots_iff.symm

theorem matched_of_placed (wf : live.WellFormed) (distinct : decl.Distinct)
    {parent : Option String} {n : Widget} (hn : (parent, n) ∈ decl.placed) :
    Matched live s.survivors parent n := by
  refine ⟨fun e he => ?_, ?_⟩
  · obtain ⟨hid, found⟩ := survivor?_eq_some_iff.1 he
    obtain ⟨e', found', kind, under, _⟩ := survivor_declared surveyed distinct hn hid
    cases found.symm.trans found'
    exact ⟨kind, under⟩
  · unfold standing
    split
    next e he =>
      obtain ⟨_, found⟩ := survivor?_eq_some_iff.1 he
      exact row_of_surveyed surveyed distinct (fun _ _ => wf.mem_children_iff found)
        (wf.children_nodup found) fun _ => distinct.mem_children_iff hn
    next he =>
      refine ⟨List.nodup_nil, fun c => ?_⟩
      rw [survivor?_isSome_iff surveyed, List.mem_map]
      simp only [List.not_mem_nil, false_iff, not_and]
      rintro ⟨m, hm, rfl⟩ hc
      obtain ⟨_, _, _, _, above⟩ :=
        survivor_declared surveyed distinct ((distinct.mem_children_iff hn).2 hm) hc
      have := (survivor?_isSome_iff surveyed).2 (above n.id rfl)
      simp [he] at this

theorem pending_of_survived (wf : live.WellFormed) (distinct : decl.Distinct)
    (survived : Survived live s.survivors t) :
    Pending live s.survivors none decl.roots (live.roots.filter (· ∈ s.survivors)) t := by
  refine ⟨survived.keyed, Nat.le_of_eq survived.handle.symm, ?_, distinct, ?_, ?_, ?_⟩
  · rw [LiveTree.children?, survived.roots]
  · intro id h
    exact absurd h.symm (Option.some_ne_none _)
  · intro parent n hn
    exact matched_of_placed surveyed wf distinct hn
  · intro id _
    rw [survived.get, before, survivor?]
    split <;> rfl

end

mutual

theorem spans_of_placed {look : String → Option Entity} {parent : Option String} : (w : Widget) →
    (∀ p n, (p, n) ∈ w.placed parent → ∃ e, look n.id = some e ∧ e.parent = p ∧
      e.children = n.children.map (·.id)) →
    ∃ e, look w.id = some e ∧ e.parent = parent ∧
      Spans look (some w.id) e.children (Widget.idsAll w.children)
  | ⟨kind, id, props, children, pos⟩, nodes => by
    rw [Widget.placed] at nodes
    obtain ⟨e, found, under, hc⟩ := nodes _ _ List.mem_cons_self
    refine ⟨e, found, under, ?_⟩
    rw [hc]
    exact spans_of_placedAll children fun p n hn => nodes p n (List.mem_cons_of_mem _ hn)

theorem spans_of_placedAll {look : String → Option Entity} {parent : Option String} :
    (ws : List Widget) →
    (∀ p n, (p, n) ∈ Widget.placedAll parent ws → ∃ e, look n.id = some e ∧ e.parent = p ∧
      e.children = n.children.map (·.id)) →
    Spans look parent (ws.map (·.id)) (Widget.idsAll ws)
  | [], _ => by
    rw [Widget.idsAll_nil]
    exact .nil
  | w :: ws, nodes => by
    rw [Widget.placedAll] at nodes
    obtain ⟨e, found, under, below⟩ :=
      spans_of_placed w fun p n hn => nodes p n (List.mem_append_left _ hn)
    have rest := spans_of_placedAll ws fun p n hn => nodes p n (List.mem_append_right _ hn)
    rw [Widget.idsAll_cons, Widget.ids_eq]
    exact .cons found under below rest

end

/-- All commands are valid in their order, and each widget of the forest is settled. -/
structure Reconciled (live : LiveTree) (decl : Forest) (survivors : List String)
    (t : LiveTree) : Prop where
  wellFormed : t.WellFormed
  mirrors : t.Mirrors decl
  settled : ∀ parent n, (parent, n) ∈ decl.placed →
    ∃ e, t.get? n.id = some e ∧ Settled live survivors parent n e

theorem reconcile_runs (wf : live.WellFormed) (distinct : decl.Distinct)
    (h : live.reconcile decl = .ok cmds) :
    ∃ s t, Surveys live decl s ∧ Runs live cmds t ∧ Reconciled live decl s.survivors t := by
  obtain ⟨s, surveyed, rfl⟩ := reconcile_eq_ok wf h
  obtain ⟨t₁, run₁, survived⟩ := Surveyed.survived wf surveyed
  have pending := pending_of_survived surveyed wf distinct survived
  obtain ⟨t₂, run₂, emitted⟩ := emitAll_runs decl.roots pending
  have row := emitted.children? pending.keyed pending.row pending.outside
  obtain ⟨t₃, run₃, closed⟩ := closing_runs emitted.keyed (row_of_roots surveyed wf distinct) row
    (pending.once.sublist (Widget.map_id_sublist _))
  have get (id : String) : t₃.get? id = t₂.get? id := by
    rw [closed.get, get?_setChildren emitted.keyed, if_neg (by simp)]
  have settled : ∀ p n, (p, n) ∈ decl.placed →
      ∃ e, t₃.get? n.id = some e ∧ Settled live s.survivors p n e := by
    intro p n hn
    rw [get]
    exact emitted.settled p n hn
  have roots : t₃.roots = decl.roots.map (·.id) := by rw [closed.roots, setChildren_roots, if_pos rfl]
  have span : Spans t₃.get? none t₃.roots decl.ids := by
    rw [roots]
    refine spans_of_placedAll decl.roots fun p n hn => ?_
    obtain ⟨e, found, h⟩ := settled p n hn
    exact ⟨e, found, h.parent, h.children⟩
  have whole : ∀ id, t₃.contains id = true → id ∈ decl.ids := by
    intro id hid
    by_contra absent
    obtain ⟨e, found⟩ := contains_iff.1 hid
    rw [get, emitted.get?_eq pending.keyed (by simp) absent, survived.get] at found
    split at found
    next survives =>
      obtain ⟨_, _, declared, _⟩ := surveyed.survivor survives
      obtain ⟨n, hn, hid, _⟩ := placed_of_get?_indexOf distinct declared
      exact absent (Forest.mem_ids_iff.2 ⟨_, n, hn, hid⟩)
    next => exact nomatch found
  obtain ⟨wellFormed, ids⟩ := closed.keyed.wellFormed span distinct whole
  refine ⟨s, t₃, surveyed, (run₁.append run₂).append run₃, wellFormed, ⟨roots, ids, ?_⟩, settled⟩
  intro p n hn
  obtain ⟨e, found, h⟩ := settled p n hn
  exact ⟨e, found, h.kind, h.parent, h.children⟩

theorem Reconciled.carries (reconciled : Reconciled live decl s.survivors t) : t.Carries decl := by
  intro n hn
  obtain ⟨p, hp⟩ := Widget.placed_of_mem_preorder none hn
  obtain ⟨e, found, settled⟩ := reconciled.settled p n hp
  refine ⟨e, found, fun distinct field hf => ?_⟩
  have declared : Fields.get? n.props field.1 = some field.2 := Fields.get?_of_mem distinct hf
  cases survives : survivor? live s.survivors n.id with
  | some old =>
    rw [(settled.kept old survives).2]
    exact Properties.agrees_extend_diff distinct declared
  | none =>
    rw [(settled.made survives).2]
    exact ⟨field.2, declared, .inl rfl⟩

end Reconcile

namespace LiveTree
variable {live : LiveTree} {decl : Forest} {cmds : List Command}

/-- Reconciling leads to what was declared. -/
theorem reconcile_follows (wf : live.WellFormed) (distinct : decl.Distinct)
    (regular : decl.Regular) (h : live.reconcile decl = .ok cmds) :
    live.Follows decl (live.applyAll cmds).1 := by
  obtain ⟨s, t, surveyed, run, reconciled⟩ := reconcile_runs wf distinct h
  rw [run.applyAll_eq]
  refine ⟨reconciled.wellFormed, reconciled.mirrors, reconciled.carries.holds regular, ?_, ?_⟩
  · intro n old survives hn found
    obtain ⟨p, hp⟩ := Widget.placed_of_mem_preorder none hn
    obtain ⟨e, here, settled⟩ := reconciled.settled p n hp
    have hid := mem_survivors_of_survives wf distinct surveyed survives
    obtain ⟨handle, props⟩ := settled.kept old (survivor?_eq_some_iff.2 ⟨hid, found⟩)
    refine ⟨e, here, handle, fun key absent => ?_⟩
    rw [props]
    exact Properties.get?_extend_diff_of_none (regular n hn).1 absent
  · intro n hn new
    obtain ⟨p, hp⟩ := Widget.placed_of_mem_preorder none hn
    obtain ⟨e, here, settled⟩ := reconciled.settled p n hp
    have gone : survivor? live s.survivors n.id = none := by
      rw [survivor?, if_neg fun hid => new ((mem_survivors_iff wf distinct surveyed).1 hid)]
    obtain ⟨handle, props⟩ := settled.made gone
    exact ⟨e, here, props, handle⟩

/-- A text moves from the window into its row, and a button takes its place. -/
theorem reconcile_follows_move :
    let old : Forest := ⟨[⟨.window, "main", [], [.leaf .text "a", .leaf .row "b"], .none⟩]⟩
    let new : Forest := ⟨[⟨.window, "main", [],
      [.leaf .button "c", ⟨.row, "b", [], [.leaf .text "a"], .none⟩], .none⟩]⟩
    let build : List Command := [.create none ⟨.window, "main", []⟩,
      .create (some "main") ⟨.text, "a", []⟩, .create (some "main") ⟨.row, "b", []⟩]
    let change : List Command := [.destroy "a", .create (some "main") ⟨.button, "c", []⟩,
      .create (some "b") ⟨.text, "a", []⟩, .reorder (some "main") ["c", "b"]]
    let live := (empty.applyAll build).1
    empty.reconcile old = .ok build ∧ live.WellFormed ∧ live.reconcile new = .ok change ∧
      live.Follows new (live.applyAll change).1 := by
  intro old new build change live
  have bare (f : Forest) (h : ∀ n ∈ f.preorder, n.props = []) : f.Regular :=
    fun n hn => h n hn ▸ Properties.regular_nil
  have opening : empty.reconcile old = .ok build := rfl
  have run : live.reconcile new = .ok change := rfl
  have first : empty.Follows old live :=
    reconcile_follows wellFormed_empty (by decide) (bare old (by decide)) opening
  exact ⟨opening, first.wellFormed, run,
    reconcile_follows first.wellFormed (by decide) (bare new (by decide)) run⟩

end LiveTree
end WidgetScript
