import WidgetScript.Dispatch
import WidgetScript.Proofs.Forest.Addition
import WidgetScript.Proofs.WellFormed

/-! Directives that add, by setting properties or by appending a child, commute if they have
different targets and bring in no widgets of the same id. What the checks of one look at, the other
does not change. -/
namespace WidgetScript

/-- Whether an action leaves all widgets in the forest. -/
def Action.isAddition : Action → Bool
  | .set _ | .appendChild => true
  | .removeChild | .replace => false

namespace Directive
open Widget
variable {f g : Forest} {live : LiveTree} {d : Directive} {target : Widget} {setter : Setter}
  {r : Except DispatchError Addition}

def setting (d : Directive) (setter : Setter) : Except DispatchError Addition := do
  let given ← (assignments setter d.value).mapError (.badValue d.target d.action)
  let ps ← (coerceAll given).mapError (.badValue d.target d.action)
  .ok ⟨fun props => assign props ps, []⟩

def appending (f : Forest) (live : LiveTree) (d : Directive) (kind : Kind) :
    Except DispatchError Addition := do
  let child ← (Widget.ofValue d.value).mapError (.badValue d.target d.action)
  if !kind.isContainer then .error (.badValue d.target d.action .noChildrenAllowed)
  else if child.containsWindow then .error (.badValue d.target d.action .windowPlacement)
  else
    checkIds f [] d.action child
    (checkKinds live (some d.target) child).mapError (.badValue d.target d.action)
    (checkDepth ((f.level? d.target).getD 1) child).mapError (.badValue d.target d.action)
    .ok ⟨fun props => props, [child]⟩

theorem change_set (action : d.action = .set setter) :
    d.change f live target = (d.setting setter).map fun x => x.to target := by
  unfold change setting
  simp only [action, map_bind, ok_map, Addition.to, List.append_nil]

theorem change_append (action : d.action = .appendChild) :
    d.change f live target = (appending f live d target.kind).map fun x => x.to target := by
  unfold change appending
  simp only [action, map_bind]
  refine bind_congr fun child => ?_
  split
  · rfl
  · split
    · rfl
    · simp only [map_bind, ok_map, Addition.to]

theorem apply_addition (found : f.find? d.target = some target)
    (h : d.change f live target = r.map fun x => x.to target) :
    d.apply f live = r.map fun x => f.edit d.target x.to := by
  rw [Directive.apply, found]
  dsimp only
  rw [h]
  cases r with
  | error e => rfl
  | ok x => exact congrArg Except.ok (Forest.edit_eq x.to found).symm

def Brings (d : Directive) (id : String) : Prop :=
  d.action = .appendChild ∧ ∃ child, Widget.ofValue d.value = .ok child ∧ id ∈ child.ids

/-- Forests in which the checks of a directive find the same. -/
structure Alike (d : Directive) (f g : Forest) : Prop where
  kind : (g.find? d.target).map kind = (f.find? d.target).map kind
  level : g.level? d.target = f.level? d.target
  taken : ∀ id, d.Brings id → g.contains id = f.contains id

theorem Alike.refl : Alike d f f := ⟨rfl, rfl, fun _ _ => rfl⟩

theorem firstClash?_congr {taken taken' : String → Bool} {seen ids : List String}
    (same : ∀ id ∈ ids, taken' id = taken id) :
    firstClash? taken' seen ids = firstClash? taken seen ids := by
  induction ids generalizing seen with
  | nil => rfl
  | cons id ids ih =>
    rw [List.forall_mem_cons] at same
    rw [firstClash?, firstClash?, same.1, ih same.2]

theorem Alike.appending {kind : Kind} (alike : Alike d f g) (action : d.action = .appendChild) :
    appending g live d kind = Directive.appending f live d kind := by
  unfold Directive.appending
  refine bind_congr_ok fun child value => ?_
  have ids : checkIds g [] d.action child = checkIds f [] d.action child := by
    unfold checkIds
    dsimp only
    rw [firstClash?_congr]
    intro id mem
    rw [alike.taken id ⟨action, child, mapError_eq_ok.1 value, mem⟩]
  rw [alike.level, ids]

/-- What a directive that takes nothing away adds, in a forest and in those that are alike for
its checks. -/
theorem exists_addition (live : LiveTree) (adds : d.action.isAddition = true)
    (present : d.target ∈ f.ids) : ∃ r : Except DispatchError Addition,
      (∀ g, Alike d f g → d.apply g live = r.map fun x => g.edit d.target x.to) ∧
      ∀ x, r = .ok x → ∀ id ∈ idsAll x.children, d.Brings id ∧ id ∉ f.ids := by
  obtain ⟨target, found⟩ := Option.isSome_iff_exists.1 (Forest.contains_iff.2 present)
  cases action : d.action with
  | set setter =>
    refine ⟨d.setting setter, fun g alike => ?_, fun x h => ?_⟩
    · obtain ⟨t, found', -⟩ := Option.map_eq_some_iff.1 (alike.kind.trans (congrArg _ found))
      exact apply_addition found' (change_set action)
    · simp only [setting, bind_eq_ok] at h
      obtain ⟨_, _, _, _, h⟩ := h
      cases h
      simp
  | appendChild =>
    -- The target may have changed in the other forest, but not its kind, which is all that counts.
    refine ⟨appending f live d target.kind, fun g alike => ?_, fun x h => ?_⟩
    · obtain ⟨t, found', kind⟩ := Option.map_eq_some_iff.1 (alike.kind.trans (congrArg _ found))
      refine apply_addition found' ?_
      rw [change_append action, alike.appending action, kind]
    · simp only [appending, bind_eq_ok, mapError_eq_ok] at h
      obtain ⟨child, value, h⟩ := h
      split at h
      · exact nomatch h
      split at h
      · exact nomatch h
      obtain ⟨_, ids, h⟩ := bind_eq_ok.1 h
      obtain ⟨_, _, h⟩ := bind_eq_ok.1 h
      obtain ⟨_, _, h⟩ := bind_eq_ok.1 h
      cases h
      rw [idsAll_cons, idsAll_nil, List.append_nil]
      intro id mem
      exact ⟨⟨action, child, value, mem⟩, fun old => nomatch (checkIds_eq_ok ids).2 id mem old⟩
  | removeChild =>
    rw [action] at adds
    exact nomatch adds
  | replace =>
    rw [action] at adds
    exact nomatch adds

def failure (d : Directive) (f : Forest) (live : LiveTree) : Option DispatchError :=
  match d.apply f live with
  | .ok _ => none
  | .error e => some e

theorem outcome_of_ok (h : d.apply f live = .ok g) : d.outcome f live = g := by
  rw [outcome, h]

theorem outcome_of_error {e : DispatchError} (h : d.apply f live = .error e) :
    d.outcome f live = f := by
  rw [outcome, h]

theorem failure_of_ok (h : d.apply f live = .ok g) : d.failure f live = none := by
  rw [failure, h]

theorem failure_of_error {e : DispatchError} (h : d.apply f live = .error e) :
    d.failure f live = some e := by
  rw [failure, h]

theorem alike_outcome {a b : Directive} (adds : a.action.isAddition = true)
    (apart : a.target ≠ b.target) (ha : a.target ∈ f.ids) (hb : b.target ∈ f.ids)
    (disjoint : ∀ id, ¬(a.Brings id ∧ b.Brings id)) : Alike b f (a.outcome f live) := by
  obtain ⟨r, applied, brought⟩ := exists_addition live adds ha
  cases r with
  | error e =>
    rw [outcome_of_error (applied f .refl)]
    exact .refl
  | ok x =>
    rw [outcome_of_ok (applied f .refl)]
    have absent : b.target ∉ idsAll x.children := fun mem => (brought x rfl _ mem).2 hb
    obtain ⟨level, kind⟩ := Forest.addition_keeps ha apart absent
    refine ⟨kind, level, fun id brings => ?_⟩
    -- An id is taken that was not if the first directive brought it in.
    rw [Bool.eq_iff_iff, Forest.contains_iff, Forest.contains_iff, Forest.mem_ids_addition ha]
    refine or_iff_left fun mem => ?_
    exact disjoint id ⟨(brought x rfl id mem).1, brings⟩

theorem outcome_comm {a b : Directive} (adds_a : a.action.isAddition = true)
    (adds_b : b.action.isAddition = true) (apart : a.target ≠ b.target) (ha : a.target ∈ f.ids)
    (hb : b.target ∈ f.ids) (disjoint : ∀ id, ¬(a.Brings id ∧ b.Brings id)) :
    a.failure (b.outcome f live) live = a.failure f live ∧
      b.failure (a.outcome f live) live = b.failure f live ∧
      b.outcome (a.outcome f live) live = a.outcome (b.outcome f live) live := by
  have alike_b : Alike b f (a.outcome f live) := alike_outcome adds_a apart ha hb disjoint
  have alike_a : Alike a f (b.outcome f live) :=
    alike_outcome adds_b apart.symm hb ha fun id both => disjoint id both.symm
  -- What each adds is fixed before either is applied, and the same before and after the other.
  obtain ⟨ra, applied_a, brought_a⟩ := exists_addition live adds_a ha
  obtain ⟨rb, applied_b, brought_b⟩ := exists_addition live adds_b hb
  have a_first := applied_a f .refl
  have b_first := applied_b f .refl
  have a_second := applied_a _ alike_a
  have b_second := applied_b _ alike_b
  cases ra with
  | error e =>
    rw [failure_of_error a_second, failure_of_error a_first, outcome_of_error a_second,
      outcome_of_error a_first]
    exact ⟨rfl, rfl, rfl⟩
  | ok x =>
    cases rb with
    | error e =>
      rw [failure_of_error b_second, failure_of_error b_first, outcome_of_error b_second,
        outcome_of_error b_first]
      exact ⟨rfl, rfl, rfl⟩
    | ok y =>
      rw [failure_of_ok a_second, failure_of_ok a_first, failure_of_ok b_second,
        failure_of_ok b_first, outcome_of_ok a_second, outcome_of_ok b_second,
        outcome_of_ok a_first, outcome_of_ok b_first]
      refine ⟨rfl, rfl, Forest.addition_comm apart ha hb ?_ ?_⟩
      · exact fun mem => (brought_a x rfl _ mem).2 hb
      · exact fun mem => (brought_b y rfl _ mem).2 ha

end Directive

namespace Dispatch
variable {live : LiveTree} {f : Forest} {entry entry' : Value} {rest rest' : List Value}
  {handlers handlers' : Handlers} {event event' : Event} {depth depth' : Nat}
  {log log' : List LogLine}

theorem applyEntries_cons {d : Directive} (read : Directive.ofValue entry = .ok d) :
    applyEntries live f (entry :: rest) =
      ((applyEntries live (d.outcome f live) rest).1,
        (d.failure f live).toList ++ (applyEntries live (d.outcome f live) rest).2) := by
  have applied : applyEntry live f entry = d.apply f live := applyEntry_of_read read
  cases h : d.apply f live with
  | ok g =>
    rw [applyEntries_of_ok _ (applied.trans h), Directive.outcome_of_ok h,
      Directive.failure_of_ok h]
    rfl
  | error e =>
    rw [applyEntries_of_error _ (applied.trans h), Directive.outcome_of_error h,
      Directive.failure_of_error h]
    rfl

theorem dispatch_congr (given : entries handlers event depth = (.ok (entry :: rest), log))
    (given' : entries handlers' event' depth' = (.ok (entry' :: rest'), log'))
    (edited : (applyEntries live f (entry' :: rest')).1 =
      (applyEntries live f (entry :: rest)).1)
    (errors : (applyEntries live f (entry' :: rest')).2.Perm
      (applyEntries live f (entry :: rest)).2) :
    let d := event.dispatch handlers f live depth
    let d' := event'.dispatch handlers' f live depth'
    d'.forest = d.forest ∧ d'.commands = d.commands ∧ d'.errors.Perm d.errors := by
  unfold Event.dispatch
  rw [given, given']
  dsimp only
  rw [edited]
  cases live.reconcile (applyEntries live f (entry :: rest)).1 with
  | ok commands => exact ⟨rfl, rfl, errors⟩
  | error e => exact ⟨rfl, rfl, errors.append_right _⟩

end Dispatch

namespace Directive
open Dispatch
variable {forest : Forest} {live : LiveTree} {a b : Directive}

/-- Two directives that add, with different targets in the forest and no new id in common, come
to the same in either order: each has its effect or fails with the same error, and the forest is
the same. So it is for the commands of an event whose handler gives them in either order. -/
theorem additions_commute (apart : a.target ≠ b.target) (ha : a.target ∈ forest.ids)
    (hb : b.target ∈ forest.ids) (adds_a : a.action.isAddition = true)
    (adds_b : b.action.isAddition = true) (disjoint : ∀ id, ¬(a.Brings id ∧ b.Brings id)) :
    a.failure (b.outcome forest live) live = a.failure forest live ∧
    b.failure (a.outcome forest live) live = b.failure forest live ∧
    b.outcome (a.outcome forest live) live = a.outcome (b.outcome forest live) live ∧
    ∀ entryA entryB rest handlers handlers' (event event' : Event) depth depth' log log',
      Directive.ofValue entryA = .ok a → Directive.ofValue entryB = .ok b →
      entries handlers event depth = (.ok (entryA :: entryB :: rest), log) →
      entries handlers' event' depth' = (.ok (entryB :: entryA :: rest), log') →
      let d := event.dispatch handlers forest live depth
      let d' := event'.dispatch handlers' forest live depth'
      d'.forest = d.forest ∧ d'.commands = d.commands ∧ d'.errors.Perm d.errors := by
  obtain ⟨same_a, same_b, comm⟩ := outcome_comm adds_a adds_b apart ha hb disjoint
  refine ⟨same_a, same_b, comm, ?_⟩
  intro entryA entryB rest handlers handlers' event event' depth depth' log log' readA readB
    given given'
  have forward : applyEntries live forest (entryA :: entryB :: rest) = _ := applyEntries_cons readA
  have backward : applyEntries live forest (entryB :: entryA :: rest) = _ := applyEntries_cons readB
  rw [applyEntries_cons readB, same_b] at forward
  rw [applyEntries_cons readA, same_a, ← comm] at backward
  refine dispatch_congr given given' ?_ ?_
  · rw [forward, backward]
  · rw [forward, backward]
    exact List.perm_append_comm_assoc _ _ _

/-- A label is put into a window and another into a column of that window. -/
theorem additions_commute_nested :
    let forest : Forest := ⟨[⟨.window, "w", [], [.leaf .column "c"], .none⟩]⟩
    let label (id : String) : Value := .map [("kind", .str "text"), ("id", .str id)]
    let entry (target id : String) : Value :=
      .map [("id", .str target), ("action", .str "appendChild"), ("value", label id)]
    let a : Directive := ⟨"w", .appendChild, label "x"⟩
    let b : Directive := ⟨"c", .appendChild, label "y"⟩
    let handlers : Handlers := [("a", ⟨"a", ["p"], [.expr (.ident "p" ⟨2, 1⟩)], [], ⟨1, 1⟩⟩)]
    let event (entries : List Value) : Event := ⟨"w", "a", [("updates", .list entries)]⟩
    let d := (event [entry "w" "x", entry "c" "y"]).dispatch handlers forest .empty 64
    let d' := (event [entry "c" "y", entry "w" "x"]).dispatch handlers forest .empty 64
    a.failure forest .empty = none ∧ b.failure (a.outcome forest .empty) .empty = none ∧
      b.outcome (a.outcome forest .empty) .empty = a.outcome (b.outcome forest .empty) .empty ∧
      d'.forest = d.forest ∧ d'.commands = d.commands := by
  intro forest label entry a b handlers event d d'
  have readA : Widget.ofValue a.value = .ok (.leaf .text "x") := rfl
  have readB : Widget.ofValue b.value = .ok (.leaf .text "y") := rfl
  have disjoint : ∀ id, ¬(a.Brings id ∧ b.Brings id) := by
    rintro id ⟨⟨-, x, hx, mem⟩, -, y, hy, mem'⟩
    cases readA.symm.trans hx
    cases readB.symm.trans hy
    rw [List.mem_singleton.1 mem] at mem'
    exact nomatch List.mem_singleton.1 mem'
  obtain ⟨-, same, comm, dispatched⟩ := @additions_commute forest .empty a b
    (by decide) (by decide) (by decide) rfl rfl disjoint
  obtain ⟨final, commands, -⟩ := dispatched (entry "w" "x") (entry "c" "y") [] handlers handlers
    (event _) (event _) 64 64 [] [] rfl rfl rfl rfl
  have first : a.failure forest .empty = none := rfl
  have second : b.failure forest .empty = none := rfl
  exact ⟨first, same.trans second, comm, final, commands⟩
end Directive
end WidgetScript
