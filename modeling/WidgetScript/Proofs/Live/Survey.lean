import WidgetScript.Live.Reconcile
import WidgetScript.Proofs.Forest
import WidgetScript.Proofs.Live.Destroy
import WidgetScript.Proofs.Outcome

/-! A survey sorts the entities of a live tree by a declaration: whoever is declared where
it stands survives, all others are destroyed with what is below them. `Surveyed` says this
by rules along the spanning tree, so that nothing else has to look at levels. -/
namespace WidgetScript
open LiveTree

namespace Reconcile

mutual

theorem get?_indexWidget_of_not_mem {id : String} (parent : Option String) :
    (w : Widget) → (index : Index) → id ∉ w.ids →
      Fields.get? (indexWidget parent w index) id = Fields.get? index id
  | ⟨kind, name, props, children, pos⟩, index, h => by
    rw [Widget.ids_eq, List.mem_cons, not_or] at h
    rw [indexWidget, get?_indexAll_of_not_mem _ children _ h.2, Fields.get?_insert,
      if_neg (Ne.symm h.1)]

theorem get?_indexAll_of_not_mem {id : String} (parent : Option String) :
    (ws : List Widget) → (index : Index) → id ∉ Widget.idsAll ws →
      Fields.get? (indexAll parent ws index) id = Fields.get? index id
  | [], index, _ => by rw [indexAll]
  | w :: ws, index, h => by
    rw [Widget.idsAll_cons, List.mem_append, not_or] at h
    rw [indexAll, get?_indexAll_of_not_mem parent ws _ h.2,
      get?_indexWidget_of_not_mem parent w _ h.1]

end

mutual

theorem get?_indexWidget {p parent : Option String} {n : Widget} :
    (w : Widget) → (index : Index) → w.ids.Nodup → (p, n) ∈ w.placed parent →
      Fields.get? (indexWidget parent w index) n.id = some ⟨p, n.kind⟩
  | ⟨kind, name, props, children, pos⟩, index, distinct, h => by
    rw [Widget.ids_eq, List.nodup_cons] at distinct
    rw [Widget.placed, List.mem_cons] at h
    rw [indexWidget]
    rcases h with h | h
    · cases h
      rw [get?_indexAll_of_not_mem _ children _ distinct.1, Fields.get?_insert, if_pos rfl]
    · exact get?_indexAll children _ distinct.2 h

theorem get?_indexAll {p parent : Option String} {n : Widget} :
    (ws : List Widget) → (index : Index) → (Widget.idsAll ws).Nodup →
      (p, n) ∈ Widget.placedAll parent ws →
      Fields.get? (indexAll parent ws index) n.id = some ⟨p, n.kind⟩
  | [], _, _, h => by simp at h
  | w :: ws, index, distinct, h => by
    rw [Widget.idsAll_cons, List.nodup_append] at distinct
    obtain ⟨first, rest, apart⟩ := distinct
    rw [Widget.placedAll_cons, List.mem_append] at h
    rw [indexAll]
    rcases h with h | h
    · have mem : n.id ∈ w.ids := by
        rw [Widget.ids, ← Widget.map_snd_placed parent, List.map_map]
        exact List.mem_map.2 ⟨_, h, rfl⟩
      have : n.id ∉ Widget.idsAll ws := fun hn => apart _ mem _ hn rfl
      rw [get?_indexAll_of_not_mem parent ws _ this]
      exact get?_indexWidget w index first h
    · exact get?_indexAll ws _ rest h

end

def indexOf (decl : Forest) : Index := indexAll none decl.roots []

theorem get?_indexOf {decl : Forest} (distinct : decl.Distinct) {p : Option String} {n : Widget}
    (h : (p, n) ∈ decl.placed) : Fields.get? (indexOf decl) n.id = some ⟨p, n.kind⟩ :=
  get?_indexAll decl.roots [] distinct h

theorem placed_of_get?_indexOf {decl : Forest} (distinct : decl.Distinct) {id : String}
    {d : Declared} (h : Fields.get? (indexOf decl) id = some d) :
    ∃ n, (d.parent, n) ∈ decl.placed ∧ n.id = id ∧ n.kind = d.kind := by
  have mem : id ∈ decl.ids := by
    by_contra absent
    rw [indexOf, get?_indexAll_of_not_mem none decl.roots [] absent] at h
    exact nomatch h
  obtain ⟨p, n, hn, rfl⟩ := Forest.mem_ids_iff.1 mem
  cases (get?_indexOf distinct hn).symm.trans h
  exact ⟨n, hn, rfl, rfl⟩

/-- The outcome of a survey: of the row `ids` under `parent` and all below it, which are
listed last. -/
inductive Surveyed (look : String → Option Entity) (index : Index) :
    Option String → List String → Survey → List String → Prop where
  | nil {parent : Option String} : Surveyed look index parent [] ⟨[], []⟩ []
  | kept {parent : Option String} {id : String} {e : Entity} {ids below rest : List String}
      {inner outer : Survey} :
      look id = some e → e.parent = parent → Fields.get? index id = some ⟨parent, e.kind⟩ →
      Surveyed look index (some id) e.children inner below →
      Surveyed look index parent ids outer rest →
      Surveyed look index parent (id :: ids)
        ((Survey.append ⟨[], [id]⟩ inner).append outer) (id :: (below ++ rest))
  | gone {parent : Option String} {id : String} {e : Entity} {ids below rest : List String}
      {outer : Survey} :
      look id = some e → e.parent = parent →
      (∀ d, Fields.get? index id = some d → d.parent ≠ parent) →
      Spans look (some id) e.children below →
      Surveyed look index parent ids outer rest →
      Surveyed look index parent (id :: ids) (Survey.append ⟨[id], []⟩ outer)
        (id :: (below ++ rest))

section
variable {live : LiveTree} {index : Index} {levels : Nat} {parent : Option String}
  {id : String} {ids all : List String} {e : Entity} {s : Survey}

def surveyOne (live : LiveTree) (index : Index) (levels : Nat) (parent : Option String)
    (id : String) (e : Entity) : Except ReconcileError Survey :=
  match Fields.get? index id with
  | some d =>
      if d.parent = parent then
        if d.kind = e.kind then do
          let below ← survey live index levels (some id) e.children
          .ok (Survey.append ⟨[], [id]⟩ below)
        else .error (.kindMismatch id e.kind d.kind)
      else .ok ⟨[id], []⟩
  | none => .ok ⟨[id], []⟩

theorem survey_cons (found : live.get? id = some e) :
    survey live index (levels + 1) parent (id :: ids) = (do
      let first ← surveyOne live index levels parent id e
      let rest ← survey live index (levels + 1) parent ids
      .ok (first.append rest)) := by
  rw [survey, surveyEach, found]
  rfl

theorem Surveyed.of_survey (span : Spans live.get? parent ids all)
    (enough : all.length ≤ levels) (h : survey live index levels parent ids = .ok s) :
    Surveyed live.get? index parent ids s all := by
  induction span generalizing levels s with
  | nil =>
    cases levels <;> cases h <;> exact .nil
  | @cons parent id e ids below rest found under span _ ihBelow ihRest =>
    simp only [List.length_cons, List.length_append] at enough
    obtain ⟨n, rfl⟩ : ∃ n, levels = n + 1 := ⟨levels - 1, by omega⟩
    rw [survey_cons found, bind_eq_ok] at h
    obtain ⟨first, hfirst, h⟩ := h
    obtain ⟨outer, houter, h⟩ := bind_eq_ok.1 h
    cases h
    have outer := ihRest (by omega) houter
    unfold surveyOne at hfirst
    split at hfirst
    next d hd =>
      split at hfirst
      next hparent =>
        split at hfirst
        next hkind =>
          obtain ⟨inner, hinner, h⟩ := bind_eq_ok.1 hfirst
          cases h
          have declared : Fields.get? index id = some ⟨parent, e.kind⟩ := by
            rw [hd, ← hparent, ← hkind]
          exact .kept found under declared (ihBelow (by omega) hinner) outer
        next => exact nomatch hfirst
      next hparent =>
        cases hfirst
        refine .gone found under (fun d' hd' => ?_) span outer
        cases hd.symm.trans hd'
        exact hparent
    next hd =>
      cases hfirst
      exact .gone found under (fun d' hd' => nomatch hd.symm.trans hd') span outer

theorem survey_ok (span : Spans live.get? parent ids all)
    (fits : ∀ id e d, live.get? id = some e → Fields.get? index id = some d →
      d.parent = e.parent → d.kind = e.kind) :
    ∃ s, survey live index levels parent ids = .ok s := by
  induction span generalizing levels with
  | nil => cases levels <;> exact ⟨_, rfl⟩
  | @cons parent id e ids below rest found under _ _ ihBelow ihRest =>
    cases levels with
    | zero => exact ⟨_, rfl⟩
    | succ n =>
      obtain ⟨outer, houter⟩ := @ihRest (n + 1)
      obtain ⟨inner, hinner⟩ := @ihBelow n
      have first : ∃ s, surveyOne live index n parent id e = .ok s := by
        unfold surveyOne
        split
        next d hd =>
          split
          next hparent =>
            rw [if_pos (fits id e d found hd (hparent.trans under.symm)), hinner]
            exact ⟨_, rfl⟩
          next => exact ⟨_, rfl⟩
        next => exact ⟨_, rfl⟩
      obtain ⟨s, hs⟩ := first
      rw [survey_cons found, hs, houter]
      exact ⟨_, rfl⟩

end

namespace Surveyed
variable {look : String → Option Entity} {index : Index} {parent : Option String}
  {id : String} {ids all : List String} {e : Entity} {s : Survey}

theorem survivors_subset (h : Surveyed look index parent ids s all) (hid : id ∈ s.survivors) :
    id ∈ all := by
  induction h with
  | nil => simp at hid
  | kept _ _ _ _ _ ihInner ihOuter =>
    simp only [Survey.append, List.mem_append, List.mem_singleton] at hid
    rcases hid with (rfl | hid) | hid
    · exact List.mem_cons_self
    · exact List.mem_cons_of_mem _ (List.mem_append_left _ (ihInner hid))
    · exact List.mem_cons_of_mem _ (List.mem_append_right _ (ihOuter hid))
  | gone _ _ _ _ _ ihOuter =>
    simp only [Survey.append, List.nil_append] at hid
    exact List.mem_cons_of_mem _ (List.mem_append_right _ (ihOuter hid))

theorem survivor (h : Surveyed look index parent ids s all) (hid : id ∈ s.survivors) :
    ∃ e, look id = some e ∧ Fields.get? index id = some ⟨e.parent, e.kind⟩ ∧
      (e.parent = parent ∨ ∃ p ∈ s.survivors, e.parent = some p) := by
  induction h with
  | nil => simp at hid
  | @kept parent id' e ids below rest inner outer found under declared _ _ ihInner ihOuter =>
    simp only [Survey.append, List.mem_append, List.mem_singleton] at hid ⊢
    rcases hid with (rfl | hid) | hid
    · exact ⟨e, found, by rw [declared, under], .inl under⟩
    · obtain ⟨e', found', declared', hp⟩ := ihInner hid
      refine ⟨e', found', declared', .inr ?_⟩
      rcases hp with hp | ⟨p, hp, hp'⟩
      · exact ⟨id', .inl (.inl rfl), hp⟩
      · exact ⟨p, .inl (.inr hp), hp'⟩
    · obtain ⟨e', found', declared', hp⟩ := ihOuter hid
      refine ⟨e', found', declared', hp.imp_right ?_⟩
      rintro ⟨p, hp, hp'⟩
      exact ⟨p, .inr hp, hp'⟩
  | gone _ _ _ _ _ ihOuter => exact ihOuter hid

theorem survives (h : Surveyed look index parent ids s all)
    (hid : (id ∈ ids ∧ e.parent = parent) ∨
      ∃ p pe, p ∈ s.survivors ∧ look p = some pe ∧ id ∈ pe.children ∧ e.parent = some p)
    (declared : ∃ d, Fields.get? index id = some d ∧ d.parent = e.parent) :
    id ∈ s.survivors := by
  induction h with
  | nil => simp at hid
  | @kept parent id' e' ids below rest inner outer found' under _ _ _ ihInner ihOuter =>
    simp only [Survey.append, List.mem_append, List.mem_cons, List.not_mem_nil, or_false] at hid ⊢
    rcases hid with ⟨rfl | hid, hp⟩ | ⟨p, pe, (rfl | hp) | hp, hpe, hc, hep⟩
    · exact .inl (.inl rfl)
    · exact .inr (ihOuter (.inl ⟨hid, hp⟩))
    · cases found'.symm.trans hpe
      exact .inl (.inr (ihInner (.inl ⟨hc, hep⟩)))
    · exact .inl (.inr (ihInner (.inr ⟨p, pe, hp, hpe, hc, hep⟩)))
    · exact .inr (ihOuter (.inr ⟨p, pe, hp, hpe, hc, hep⟩))
  | gone _ _ other _ _ ihOuter =>
    simp only [Survey.append, List.nil_append, List.mem_cons] at hid ⊢
    rcases hid with ⟨rfl | hid, hp⟩ | below
    · obtain ⟨d, hd, hparent⟩ := declared
      exact absurd (hparent.trans hp) (other d hd)
    · exact ihOuter (.inl ⟨hid, hp⟩)
    · exact ihOuter (.inr below)

end Surveyed

structure Survived (t : LiveTree) (survivors : List String) (t' : LiveTree) : Prop where
  keyed : t'.Keyed
  get : ∀ x, t'.get? x = if x ∈ survivors then
    (t.get? x).map fun e => { e with children := e.children.filter (· ∈ survivors) } else none
  roots : t'.roots = t.roots.filter (· ∈ survivors)
  handle : t'.nextHandle = t.nextHandle

variable {t t' : LiveTree} {index : Index} {parent : Option String}
  {ids all gone : List String} {s : Survey}

theorem Surveyed.runs (wf : t.WellFormed) (h : Surveyed t.get? index parent ids s all)
    (once : all.Nodup) (left : t.Without gone t') (stays : ∀ c ∈ all, c ∉ gone)
    (apart : ∀ p, parent = some p → p ∉ gone ∧ p ∉ all) :
    ∃ t'', Runs t' (s.destroyed.map .destroy) t'' ∧
      t.Without (gone ++ all.filter (· ∉ s.survivors)) t'' := by
  induction h generalizing t' gone with
  | nil => exact ⟨t', .nil, by simpa using left⟩
  | @kept parent id e ids below rest inner outer found under _ hInner hOuter ihInner ihOuter =>
    rw [List.nodup_cons, List.mem_append, not_or, List.nodup_append] at once
    obtain ⟨⟨idBelow, idRest⟩, onceBelow, onceRest, disjoint⟩ := once
    have idStays : id ∉ gone := stays id List.mem_cons_self
    obtain ⟨t₁, run₁, left₁⟩ := ihInner onceBelow left
      (fun c hc => stays c (List.mem_cons_of_mem _ (List.mem_append_left _ hc)))
      (fun p hp => by cases hp; exact ⟨idStays, idBelow⟩)
    obtain ⟨t₂, run₂, left₂⟩ := ihOuter onceRest left₁ (fun c hc => by
        have := stays c (List.mem_cons_of_mem _ (List.mem_append_right _ hc))
        have : c ∉ below := fun hb => disjoint c hb c hc rfl
        simp [*])
      (fun p hp => by
        obtain ⟨hg, ha⟩ := apart p hp
        simp only [List.mem_cons, List.mem_append, not_or] at ha
        simp [hg, ha])
    refine ⟨t₂, ?_, left₂.congr fun x => ?_⟩
    · simp only [Survey.append, List.nil_append, List.map_append]
      exact run₁.append run₂
    · have inner_mem (hx : x ∈ inner.survivors) : x ∈ below := hInner.survivors_subset hx
      have outer_mem (hx : x ∈ outer.survivors) : x ∈ rest := hOuter.survivors_subset hx
      have apart' (hb : x ∈ below) (hr : x ∈ rest) : False := disjoint x hb x hr rfl
      simp only [Survey.append, List.mem_append, List.mem_filter, List.mem_cons,
        List.not_mem_nil, or_false, decide_eq_true_eq]
      grind
  | @gone parent id e ids below rest outer found under _ span hOuter ihOuter =>
    have whole := once
    rw [List.nodup_cons, List.mem_append, not_or, List.nodup_append] at once
    obtain ⟨⟨idBelow, idRest⟩, onceBelow, onceRest, disjoint⟩ := once
    have staysBelow (c : String) (hc : c ∈ id :: below) : c ∉ gone := by
      refine stays c ?_
      rcases List.mem_cons.1 hc with rfl | hc
      · exact List.mem_cons_self
      · exact List.mem_cons_of_mem _ (List.mem_append_left _ hc)
    have left₁ := left.destroy wf found span (List.nodup_cons.2 ⟨idBelow, onceBelow⟩) staysBelow
      (fun p hp => by
        obtain ⟨hg, ha⟩ := apart p (under.symm.trans hp)
        simp only [List.mem_cons, List.mem_append, not_or] at ha ⊢
        exact ⟨hg, ha.1, ha.2.1⟩)
    obtain ⟨t₂, run₂, left₂⟩ := ihOuter onceRest left₁ (fun c hc => by
        have := stays c (List.mem_cons_of_mem _ (List.mem_append_right _ hc))
        have : c ∉ below := fun hb => disjoint c hb c hc rfl
        have : c ≠ id := fun eq => idRest (eq ▸ hc)
        simp [*])
      (fun p hp => by
        obtain ⟨hg, ha⟩ := apart p hp
        simp only [List.mem_cons, List.mem_append, not_or] at ha
        simp [hg, ha])
    have there : t'.contains id = true := by
      have sub : Spans t.get? e.parent [id] (id :: (below ++ [])) := .cons found rfl span .nil
      rw [List.append_nil] at sub
      exact contains_iff.2 ⟨e, (left.intact sub staysBelow List.mem_cons_self).trans found⟩
    refine ⟨t₂, .cons there run₂, left₂.congr fun x => ?_⟩
    have outer_mem (hx : x ∈ outer.survivors) : x ∈ rest := hOuter.survivors_subset hx
    have apart' (hb : x ∈ below) (hr : x ∈ rest) : False := disjoint x hb x hr rfl
    simp only [Survey.append, List.mem_append, List.mem_filter, List.mem_cons,
      List.nil_append, decide_eq_true_eq]
    grind

theorem Surveyed.survived (wf : t.WellFormed)
    (h : Surveyed t.get? index none t.roots s t.ids) :
    ∃ t', Runs t (s.destroyed.map .destroy) t' ∧ Survived t s.survivors t' := by
  obtain ⟨t', run, left⟩ := h.runs wf wf.once wf.toKeyed.without_nil (by simp) (by simp)
  have kept (x : String) (hx : x ∈ t.ids) :
      x ∉ [] ++ t.ids.filter (· ∉ s.survivors) ↔ x ∈ s.survivors := by simp [hx]
  have lists (cs : List String) (hcs : ∀ c ∈ cs, c ∈ t.ids) :
      cs.filter (· ∉ [] ++ t.ids.filter (· ∉ s.survivors)) = cs.filter (· ∈ s.survivors) :=
    List.filter_congr fun c hc => decide_eq_decide.2 (kept c (hcs c hc))
  refine ⟨t', run, left.keyed, fun x => ?_, ?_, left.handle⟩
  · rw [left.get]
    cases found : t.get? x with
    | none => simp
    | some e =>
      have children := lists e.children fun c hc => by
        obtain ⟨ce, hce, _⟩ := wf.children x e found c hc
        exact wf.mem_ids hce
      have := kept x (wf.mem_ids found)
      simp only [Option.map_some, children]
      by_cases hx : x ∈ s.survivors
      · rw [if_neg (this.2 hx), if_pos hx]
      · rw [if_pos (by_contra fun absent => hx (this.1 absent)), if_neg hx]
  · rw [left.roots]
    refine lists t.roots fun c hc => ?_
    obtain ⟨ce, hce, _⟩ := wf.roots c hc
    exact wf.mem_ids hce

end Reconcile
end WidgetScript
