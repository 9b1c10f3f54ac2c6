import WidgetScript.Proofs.Directive.Apply
import WidgetScript.Proofs.Directive.Widget

/-! What a directive changes and what it leaves alone. Each action has its effect on the
target, and all other widgets are what and where they were. -/
namespace WidgetScript

/-- The second forest has the widgets of the first with all that they have, under their parents
and in their rows. Only the widget named `id` may be another, those of `gone` may be missing, and
those of `come` may be new. -/
structure Forest.Framed (id : String) (gone come : List String) (f f' : Forest) : Prop where
  roots : f'.roots.map (·.id) = f.roots.map (·.id)
  kept : ∀ p m, (p, m) ∈ f.placed → m.id ≠ id → m.id ∉ gone → ∃ n, m.Kept n ∧ (p, n) ∈ f'.placed
  known : ∀ p n, (p, n) ∈ f'.placed → n.id ≠ id → n.id ∉ come → ∃ m, m.Kept n ∧ (p, m) ∈ f.placed

namespace Directive
variable {forest forest' : Forest} {live : LiveTree} {d : Directive} {target w : Widget}
  {given : List (String × Value)} {ps : List (String × Option Property)} {props : Properties}
  {gone come : List String} {key : String}

structure Updated (given : List (String × Value)) (old new : Properties) : Prop where
  /-- The others keep their values and their order. -/
  others : new.filter (fun field => field.1 ∉ Fields.keys given) =
    old.filter (fun field => field.1 ∉ Fields.keys given)
  /-- In maps, where keys are distinct, a key has what its value is coerced to, and none if it
  is coerced to nothing. -/
  assigned : (Fields.keys old).Nodup → (Fields.keys given).Nodup →
    ∀ key v, (key, v) ∈ given → Property.coerce key v = .ok (Fields.get? new key)

/-- What an accepted directive makes of its target, with the ids of those below the target that
go and of those that come. -/
inductive Effect (d : Directive) (target : Widget) :
    List String → List String → Widget → Prop where
  | set {setter : Setter} {given : List (String × Value)} {props : Properties} :
      d.action = .set setter → assignments setter d.value = .ok given →
      Updated given target.props props → Effect d target [] [] { target with props }
  | append {child : Widget} :
      d.action = .appendChild → Widget.ofValue d.value = .ok child →
      Effect d target [] child.ids { target with children := target.children ++ [child] }
  | remove {child : Widget} {before after : List Widget} :
      d.action = .removeChild → d.value.str? = some child.id →
      target.children = before ++ child :: after →
      Effect d target child.ids [] { target with children := before ++ after }
  | replace {w : Widget} :
      d.action = .replace → Widget.ofValue d.value = .ok w → w.id = target.id →
      Effect d target (Widget.idsAll target.children) (Widget.idsAll w.children) w

theorem keys_coerceAll (h : coerceAll given = .ok ps) :
    Fields.keys ps = Fields.keys given ∧
      ∀ key v, (key, v) ∈ given → ∃ p, Property.coerce key v = .ok p ∧ (key, p) ∈ ps := by
  have all := coerceAll_forall₂ h
  clear h
  induction all with
  | nil => simp
  | @cons entry field _ _ first _ ih =>
    obtain ⟨_, same, coerced⟩ := first
    obtain ⟨keys, source⟩ := ih
    refine ⟨congrArg₂ List.cons same keys, fun key v mem => ?_⟩
    rcases List.mem_cons.1 mem with rfl | mem
    · refine ⟨field.2, coerced, ?_⟩
      rw [← show field.1 = key from same]
      exact List.mem_cons_self
    · obtain ⟨p, coerced, hp⟩ := source key v mem
      exact ⟨p, coerced, List.mem_cons_of_mem _ hp⟩

theorem get?_assign (distinct : (Fields.keys props).Nodup) (once : (Fields.keys ps).Nodup) :
    Fields.get? (assign props ps) key = (Fields.get? ps key).getD (Fields.get? props key) := by
  induction ps generalizing props with
  | nil => rfl
  | cons field rest ih =>
    obtain ⟨k, p⟩ := field
    rw [Fields.keys_cons, List.nodup_cons] at once
    have last (same : k = key) : Fields.get? rest key = none :=
      same ▸ Fields.get?_eq_none_iff.2 once.1
    rw [Fields.get?_cons]
    cases p with
    | some p =>
      rw [assign, ih (Fields.nodup_insert distinct) once.2, Fields.get?_insert]
      split
      next same => rw [last same, Option.getD_none, Option.getD_some]
      next => rfl
    | none =>
      rw [assign, ih (Fields.nodup_erase distinct) once.2, Fields.get?_erase distinct]
      split
      next same => rw [last same, Option.getD_none, Option.getD_some]
      next => rfl

theorem filter_assign {keep : String × Property → Bool}
    (others : ∀ k ∈ Fields.keys ps, ∀ p, keep (k, p) = false) :
    (assign props ps).filter keep = props.filter keep := by
  induction ps generalizing props with
  | nil => rfl
  | cons field rest ih =>
    obtain ⟨k, p⟩ := field
    rw [Fields.keys_cons, List.forall_mem_cons] at others
    cases p with
    | some p => rw [assign, ih others.2, Fields.filter_insert others.1]
    | none => rw [assign, ih others.2, Fields.filter_erase others.1]

theorem updated_assign (h : coerceAll given = .ok ps) : Updated given props (assign props ps) where
  others := by
    refine filter_assign fun k mem p => ?_
    rw [(keys_coerceAll h).1] at mem
    simpa using mem
  assigned distinct once key v mem := by
    obtain ⟨keys, source⟩ := keys_coerceAll h
    rw [← keys] at once
    obtain ⟨p, coerced, hp⟩ := source key v mem
    rw [get?_assign distinct once, Fields.get?_of_mem once hp, Option.getD_some, coerced]

theorem Changes.effect (change : Changes forest live d target w) (named : target.id = d.target) :
    ∃ gone come, Effect d target gone come w := by
  cases change with
  | set action assigned coerced => exact ⟨_, _, .set action assigned (updated_assign coerced)⟩
  | append action value _ _ _ => exact ⟨_, _, .append action value⟩
  | remove action name taken =>
    obtain ⟨rfl, before, after, row, rfl⟩ := Widget.takeSibling?_eq_some taken
    exact ⟨_, _, .remove action name row⟩
  | replace action value same _ _ _ => exact ⟨_, _, .replace action value (same.trans named.symm)⟩

namespace Effect

theorem id_eq (effect : Effect d target gone come w) : w.id = target.id := by
  cases effect with
  | set _ _ _ => rfl
  | append _ _ => rfl
  | remove _ _ _ => rfl
  | replace _ _ same => exact same

theorem stay (effect : Effect d target gone come w) {p : Option String} {m : Widget}
    (hm : (p, m) ∈ Widget.placedAll (some target.id) target.children) (stays : m.id ∉ gone) :
    (p, m) ∈ Widget.placedAll (some w.id) w.children := by
  cases effect with
  | set _ _ _ => exact hm
  | append _ _ =>
    rw [Widget.placedAll_append]
    exact List.mem_append_left _ hm
  | remove _ _ row =>
    rw [row, Widget.placedAll_append, Widget.placedAll_cons, List.mem_append,
      List.mem_append] at hm
    rw [Widget.placedAll_append, List.mem_append]
    rcases hm with hm | hm | hm
    · exact .inl hm
    · exact absurd (List.mem_map_of_mem (Widget.mem_preorder_of_mem_placed hm)) stays
    · exact .inr hm
  | replace _ _ _ => exact absurd (Widget.id_mem_of_placed hm) stays

theorem stayed (effect : Effect d target gone come w) {p : Option String} {n : Widget}
    (hn : (p, n) ∈ Widget.placedAll (some w.id) w.children) (old : n.id ∉ come) :
    (p, n) ∈ Widget.placedAll (some target.id) target.children := by
  cases effect with
  | set _ _ _ => exact hn
  | append _ _ =>
    rw [Widget.placedAll_append, Widget.placedAll_cons, Widget.placedAll_nil, List.append_nil,
      List.mem_append] at hn
    rcases hn with hn | hn
    · exact hn
    · exact absurd (List.mem_map_of_mem (Widget.mem_preorder_of_mem_placed hn)) old
  | @remove child before after _ _ row =>
    rw [row]
    exact Widget.placedAll_subset ((List.sublist_cons_self child after).append_left before) hn
  | replace _ _ _ => exact absurd (Widget.id_mem_of_placed hn) old

end Effect

/-- A directive that is accepted has its effect on the one widget of its target's name, and puts
what comes of it in the same place. All other widgets stay as and where they are. -/
theorem apply_framed (distinct : forest.Distinct) (h : d.apply forest live = .ok forest') :
    ∃ target w place above gone come, forest.find? d.target = some target ∧
      (∀ p n, (p, n) ∈ forest.placed → n.id = d.target → p = place ∧ n = target) ∧
      Effect d target gone come w ∧
      Widget.Swap target w place none above forest.roots forest'.roots ∧
      forest.Framed d.target gone come forest' := by
  obtain ⟨target, w, place, above, found, named, _, change, swap⟩ := swap_of_apply h
  obtain ⟨gone, come, effect⟩ := change.effect named
  have same := effect.id_eq
  refine ⟨target, w, place, above, gone, come, found, ?_, effect, swap, ?_⟩
  · intro p n hn target
    exact distinct.placed_unique hn swap.placed_old (target.trans named.symm)
  · rw [← named]
    constructor
    · exact swap.row same
    · intro p m hm other stays
      exact swap.kept_but same (fun _ _ => effect.stay) hm other stays
    · intro p n hn other old
      obtain ⟨m, kept, hm⟩ :=
        swap.symm.kept_but same.symm (fun _ _ => effect.stayed) hn (same ▸ other) old
      exact ⟨m, kept.symm, hm⟩

/-- A style for one of two texts, which takes its size away, changes no other widget. -/
theorem apply_framed_style :
    let text (id : String) (props : Properties) : Widget := ⟨.text, id, props, [], .none⟩
    let window (children : List Widget) : Forest :=
      ⟨[⟨.window, "w", [], [⟨.column, "c", [], children, .none⟩], .none⟩]⟩
    let d : Directive := ⟨"b", .set .style, .map [("size", .nil), ("text", .str "new")]⟩
    let forest := window [text "a" [], text "b" [("size", .str "1"), ("text", .str "old")]]
    let forest' := window [text "a" [], text "b" [("text", .str "new")]]
    d.apply forest .empty = .ok forest' ∧ forest.Framed "b" [] [] forest' := by
  intro text window d forest forest'
  have applied : d.apply forest .empty = .ok forest' := by rfl
  obtain ⟨target, w, _, _, gone, come, _, _, effect, _, framed⟩ :=
    apply_framed (by decide) applied
  refine ⟨applied, ?_⟩
  cases effect with
  | set _ _ _ => exact framed
  | append action _ => exact nomatch action
  | remove action _ _ => exact nomatch action
  | replace action _ _ => exact nomatch action

end Directive
end WidgetScript
