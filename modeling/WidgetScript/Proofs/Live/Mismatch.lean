import WidgetScript.Proofs.Live.InSync

/-! Why reconciling fails. An entity keeps its place if the chain of ids above it is the same in
the live tree and in the declaration, and whoever keeps its place has to keep its kind too. The
first in pre-order that does not is the one that is blamed, and there is no other failure. -/
namespace WidgetScript
open LiveTree Reconcile

namespace LiveTree

/-- The chain of ids from the root down to `id` is the same in the tree and in the forest, but
what it leads to is of the kind `was` in the one and of another kind `is` in the other. -/
structure Mismatch (live : LiveTree) (decl : Forest) (id : String) (was is : Kind) : Prop where
  survives : live.Survives decl id
  found : ∃ e, live.get? id = some e ∧ e.kind = was
  declared : ∃ n ∈ decl.preorder, n.id = id ∧ n.kind = is
  ne : is ≠ was

def Agrees (live : LiveTree) (decl : Forest) (ids : List String) : Prop :=
  ∀ id ∈ ids, ∀ was is, ¬ live.Mismatch decl id was is

/-- The error names the first of the ids that has a mismatch. -/
def Blames (live : LiveTree) (decl : Forest) (ids : List String) : ReconcileError → Prop
  | .kindMismatch id was is => live.Mismatch decl id was is ∧
      ∃ before after, ids = before ++ id :: after ∧ live.Agrees decl before

def Judges {α : Type} (live : LiveTree) (decl : Forest) (ids : List String) :
    Except ReconcileError α → Prop
  | .ok _ => live.Agrees decl ids
  | .error err => live.Blames decl ids err

variable {live : LiveTree} {decl : Forest} {id : String} {e : Entity} {parent : Option String}
  {xs ys ids all : List String}

theorem Agrees.append (first : live.Agrees decl xs) (second : live.Agrees decl ys) :
    live.Agrees decl (xs ++ ys) := by
  intro id hid
  rcases List.mem_append.1 hid with hid | hid
  · exact first id hid
  · exact second id hid

theorem Blames.append_right {err : ReconcileError} (h : live.Blames decl xs err) :
    live.Blames decl (xs ++ ys) err := by
  obtain ⟨id, was, is⟩ := err
  obtain ⟨mismatch, before, after, rfl, agrees⟩ := h
  exact ⟨mismatch, before, after ++ ys, by simp, agrees⟩

theorem Blames.append_left {err : ReconcileError} (first : live.Agrees decl xs)
    (h : live.Blames decl ys err) : live.Blames decl (xs ++ ys) err := by
  obtain ⟨id, was, is⟩ := err
  obtain ⟨mismatch, before, after, rfl, agrees⟩ := h
  exact ⟨mismatch, xs ++ before, after, by simp, first.append agrees⟩

theorem Blames.not_agrees {err : ReconcileError} (h : live.Blames decl xs err) :
    ¬ live.Agrees decl xs := by
  obtain ⟨id, was, is⟩ := err
  obtain ⟨mismatch, before, after, rfl, -⟩ := h
  exact fun agrees => agrees id (by simp) was is mismatch

theorem Judges.bind {α β γ : Type} {r : Except ReconcileError α} {r' : Except ReconcileError β}
    (f : α → β → γ) (first : Judges live decl xs r) (second : Judges live decl ys r') :
    Judges live decl (xs ++ ys) (do
      let a ← r
      let b ← r'
      .ok (f a b)) := by
  cases r with
  | error err => exact Blames.append_right first
  | ok a =>
    cases r' with
    | error err => exact Blames.append_left first second
    | ok b => exact Agrees.append first second

theorem Survives.declared (h : live.Survives decl id) (found : live.get? id = some e) :
    ∃ n, (e.parent, n) ∈ decl.placed ∧ n.id = id ∧
      ∀ p, e.parent = some p → live.Survives decl p := by
  cases h with
  | @root n e' found' under hn =>
    cases found'.symm.trans found
    exact ⟨n, under ▸ hn, rfl, fun p hp => nomatch hp.symm.trans under⟩
  | @child q n e' above found' under hn =>
    cases found'.symm.trans found
    refine ⟨n, under ▸ hn, rfl, fun p hp => ?_⟩
    cases hp.symm.trans under
    exact above

theorem Spans.not_survives (span : Spans live.get? parent ids all)
    (dies : ∃ p, parent = some p ∧ ¬ live.Survives decl p) :
    ∀ c ∈ all, ¬ live.Survives decl c := by
  induction span with
  | nil => simp
  | @cons parent id e ids below rest found under _ _ ihBelow ihRest =>
    have here : ¬ live.Survives decl id := by
      intro survives
      obtain ⟨p, rfl, gone⟩ := dies
      obtain ⟨_, _, _, above⟩ := survives.declared found
      exact gone (above p under)
    intro c hc
    rcases List.mem_cons.1 hc with rfl | hc
    · exact here
    · rcases List.mem_append.1 hc with hc | hc
      · exact ihBelow ⟨id, rfl, here⟩ c hc
      · exact ihRest dies c hc

theorem Mismatch.get?_indexOf {was is : Kind} (h : live.Mismatch decl id was is)
    (distinct : decl.Distinct) (found : live.get? id = some e) :
    e.kind = was ∧ Fields.get? (indexOf decl) id = some ⟨e.parent, is⟩ := by
  obtain ⟨survives, ⟨e', found', rfl⟩, ⟨m, hm, same, rfl⟩, -⟩ := h
  cases found'.symm.trans found
  obtain ⟨n, hn, rfl, -⟩ := survives.declared found
  obtain ⟨q, hq⟩ := Widget.placed_of_mem_preorder none hm
  obtain ⟨rfl, rfl⟩ := distinct.placed_unique hn hq same.symm
  exact ⟨rfl, Reconcile.get?_indexOf distinct hn⟩

theorem Blames.unique {err err' : ReconcileError} (distinct : decl.Distinct)
    (h : live.Blames decl xs err) (h' : live.Blames decl xs err') : err = err' := by
  obtain ⟨id, was, is⟩ := err
  obtain ⟨id', was', is'⟩ := err'
  obtain ⟨mismatch, before, after, rfl, agrees⟩ := h
  obtain ⟨mismatch', before', after', eq, agrees'⟩ := h'
  have same : id = id' := by
    rcases List.append_eq_append_iff.1 eq with ⟨between, rfl, rest⟩ | ⟨between, rfl, rest⟩
    · cases between with
      | nil => exact List.head_eq_of_cons_eq rest
      | cons c between =>
        cases List.head_eq_of_cons_eq rest
        exact absurd mismatch (agrees' id (by simp) was is)
    · cases between with
      | nil => exact (List.head_eq_of_cons_eq rest).symm
      | cons c between =>
        cases List.head_eq_of_cons_eq rest
        exact absurd mismatch' (agrees id' (by simp) was' is')
  subst same
  obtain ⟨e, found, -⟩ := mismatch.found
  obtain ⟨rfl, declared⟩ := mismatch.get?_indexOf distinct found
  obtain ⟨rfl, declared'⟩ := mismatch'.get?_indexOf distinct found
  cases declared.symm.trans declared'
  rfl

end LiveTree

namespace Reconcile
variable {live : LiveTree} {decl : Forest} {id : String} {e : Entity} {parent : Option String}
  {ids below all : List String} {levels : Nat}

theorem judges_surveyOne (distinct : decl.Distinct) (found : live.get? id = some e)
    (under : e.parent = parent) (above : ∀ p, parent = some p → live.Survives decl p)
    (span : Spans live.get? (some id) e.children below)
    (inner : live.Survives decl id →
      Judges live decl below (survey live (indexOf decl) levels (some id) e.children)) :
    Judges live decl (id :: below) (surveyOne live (indexOf decl) levels parent id e) := by
  have gone (elsewhere : ∀ d, Fields.get? (indexOf decl) id = some d → d.parent ≠ parent) :
      live.Agrees decl (id :: below) := by
    have dies : ¬ live.Survives decl id := by
      intro survives
      obtain ⟨n, hn, rfl, -⟩ := survives.declared found
      exact elsewhere _ (get?_indexOf distinct hn) under
    intro c hc was is mismatch
    rcases List.mem_cons.1 hc with rfl | hc
    · exact dies mismatch.survives
    · exact span.not_survives ⟨id, rfl, dies⟩ c hc mismatch.survives
  unfold surveyOne
  split
  next d hd =>
    split
    next here =>
      have survives : live.Survives decl id :=
        survives_of_declared distinct found hd (here.trans under.symm) (under ▸ above)
      split
      next same =>
        have alone : live.Agrees decl [id] := by
          intro c hc was is mismatch
          cases List.mem_singleton.1 hc
          obtain ⟨rfl, declared⟩ := mismatch.get?_indexOf distinct found
          cases hd.symm.trans declared
          exact mismatch.ne same
        exact Judges.bind (fun (_ : Unit) below => Survey.append ⟨[], [id]⟩ below)
          (r := .ok ()) alone (inner survives)
      next other =>
        obtain ⟨n, hn, rfl, kind⟩ := placed_of_get?_indexOf distinct hd
        have declared := Widget.mem_preorder_of_placed hn
        exact ⟨⟨survives, ⟨e, found, rfl⟩, ⟨n, declared, rfl, kind⟩, other⟩, [], below, rfl, nofun⟩
    next elsewhere =>
      refine gone fun d' hd' => ?_
      cases hd.symm.trans hd'
      exact elsewhere
  next absent => exact gone fun d hd => nomatch absent.symm.trans hd

theorem judges_survey (distinct : decl.Distinct) (span : Spans live.get? parent ids all)
    (enough : all.length ≤ levels) (above : ∀ p, parent = some p → live.Survives decl p) :
    Judges live decl all (survey live (indexOf decl) levels parent ids) := by
  induction span generalizing levels with
  | nil => cases levels <;> exact fun c hc => nomatch hc
  | @cons parent id e ids below rest found under span _ ihBelow ihRest =>
    simp only [List.length_cons, List.length_append] at enough
    obtain ⟨n, rfl⟩ : ∃ n, levels = n + 1 := ⟨levels - 1, by omega⟩
    have first : Judges live decl (id :: below) (surveyOne live (indexOf decl) n parent id e) := by
      refine judges_surveyOne distinct found under above span fun survives => ?_
      refine ihBelow (by omega) fun p hp => ?_
      cases hp
      exact survives
    rw [survey_cons found, ← List.cons_append]
    exact first.bind _ (ihRest (by omega) above)

end Reconcile

namespace LiveTree
variable {live : LiveTree} {decl : Forest}

theorem judges_reconcile (wf : live.WellFormed) (distinct : decl.Distinct) :
    Judges live decl live.ids (live.reconcile decl) := by
  have enough : live.ids.length ≤ live.size + 1 :=
    Nat.le_succ_of_le (wf.spans.length_le wf.once)
  have judged := judges_survey distinct wf.spans enough nofun
  change Judges live decl live.ids
    (survey live (indexOf decl) (live.size + 1) none live.roots >>= _)
  cases outcome : survey live (indexOf decl) (live.size + 1) none live.roots with
  | ok s =>
    rw [outcome] at judged
    exact judged
  | error err =>
    rw [outcome] at judged
    exact judged

/-- Reconciling fails exactly if some entity has kept its place and not its kind, and then it
names the first in pre-order, with the kind that it has and the one that is declared. -/
theorem reconcile_error_iff (wf : live.WellFormed) (distinct : decl.Distinct) :
    ((∃ err, live.reconcile decl = .error err) ↔ ∃ id was is, live.Mismatch decl id was is) ∧
      ∀ err, live.reconcile decl = .error err ↔ live.Blames decl live.ids err := by
  have judged := judges_reconcile wf distinct
  cases outcome : live.reconcile decl with
  | ok cmds =>
    rw [outcome] at judged
    have agrees : live.Agrees decl live.ids := judged
    refine ⟨⟨fun ⟨_, h⟩ => (nomatch h), fun ⟨id, was, is, mismatch⟩ => ?_⟩, fun err => ?_⟩
    · obtain ⟨e, found, -⟩ := mismatch.found
      exact absurd mismatch (agrees id (wf.mem_ids found) was is)
    · exact ⟨nofun, fun blames => absurd agrees blames.not_agrees⟩
  | error err =>
    rw [outcome] at judged
    have blames : live.Blames decl live.ids err := judged
    refine ⟨⟨fun _ => ?_, fun _ => ⟨err, rfl⟩⟩, fun err' => ⟨?_, fun h => ?_⟩⟩
    · obtain ⟨id, was, is⟩ := err
      exact ⟨id, was, is, blames.1⟩
    · rintro ⟨⟩
      exact blames
    · rw [blames.unique distinct h]

/-- The button `m` changes its kind with its place, which is no mismatch, and of the two texts
that keep their places the first is blamed. -/
theorem reconcile_error_iff_texts :
    let old : Forest := ⟨[⟨.window, "main", [], [⟨.row, "a", [], [.leaf .button "m"], .none⟩,
      ⟨.column, "b", [], [.leaf .text "x"], .none⟩, .leaf .text "y"], .none⟩]⟩
    let new : Forest := ⟨[⟨.window, "main", [], [.leaf .button "y", .leaf .row "a",
      ⟨.column, "b", [], [.leaf .text "m", .leaf .input "x"], .none⟩], .none⟩]⟩
    let build : List Command := [.create none ⟨.window, "main", []⟩,
      .create (some "main") ⟨.row, "a", []⟩, .create (some "a") ⟨.button, "m", []⟩,
      .create (some "main") ⟨.column, "b", []⟩, .create (some "b") ⟨.text, "x", []⟩,
      .create (some "main") ⟨.text, "y", []⟩]
    let live := (empty.applyAll build).1
    empty.reconcile old = .ok build ∧ live.WellFormed ∧ new.Distinct ∧
      live.reconcile new = .error (.kindMismatch "x" .text .input) ∧
      live.Blames new ["main", "a", "m", "b", "x", "y"] (.kindMismatch "x" .text .input) := by
  intro old new build live
  have opening : empty.reconcile old = .ok build := rfl
  have wf : live.WellFormed := (wellFormed_empty.applyAll_mirrors (by decide) opening).1
  have distinct : new.Distinct := by decide
  have run : live.reconcile new = .error (.kindMismatch "x" .text .input) := rfl
  exact ⟨opening, wf, distinct, run, ((reconcile_error_iff wf distinct).2 _).1 run⟩

end LiveTree
end WidgetScript
