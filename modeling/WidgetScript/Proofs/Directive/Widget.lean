import WidgetScript.Directive.Apply
import WidgetScript.Proofs.Eval.Operators
import WidgetScript.Proofs.Forest
import WidgetScript.Proofs.Property.Coerce

/-! What a directive brings into the declaration. A widget that it describes by a map is built
as properly as one that a script builds, so it has all that the widgets have which the map
brings with it, and the properties that it sets are regular and none of them is an id. -/
namespace WidgetScript
namespace Widget
variable {q r : Widget → Prop} {w : Widget} {props : Properties}

def Each (r : Widget → Prop) (w : Widget) : Prop := ∀ n ∈ w.preorder, r n

theorem each_iff : w.Each r ↔ r w ∧ ∀ c ∈ w.children, c.Each r := by
  unfold Each
  rw [preorder_eq, List.forall_mem_cons]
  refine and_congr_right fun _ => ?_
  simp only [mem_preorderAll]
  constructor
  · intro h c hc n hn
    exact h n ⟨c, hc, hn⟩
  · rintro h n ⟨c, hc, hn⟩
    exact h c hc n hn

theorem buildable_each (built : ∀ kind id (props : Properties) children pos, id ≠ "" →
      "id" ∉ Fields.keys props → props.Regular → (kind.isContainer = true ∨ children = []) →
      r ⟨kind, id, props, children, pos⟩) : Buildable (Each r) where
  built kind id props children pos named keys regular leaf below :=
    each_iff.2 ⟨built kind id props children pos named keys regular leaf, below⟩
  child _ h := (each_iff.1 h).2

theorem proper_propsOf {entries : List (String × Value)} {more : Properties}
    (all : ∀ entry ∈ entries, entry.2.All q) (start : props.Regular ∧ "id" ∉ Fields.keys props)
    (h : propsOf props entries = .ok more) : more.Regular ∧ "id" ∉ Fields.keys more := by
  induction entries generalizing props with
  | nil =>
    cases h
    exact start
  | cons entry rest ih =>
    obtain ⟨key, v⟩ := entry
    rw [List.forall_mem_cons] at all
    rw [propsOf] at h
    split at h
    · exact ih all.2 start h
    next other =>
      split at h
      next p coerced =>
        refine ih all.2 ⟨start.1.insert (Property.regular_of_coerce all.1 coerced), ?_⟩ h
        rw [Fields.mem_keys_insert, not_or]
        exact ⟨fun same => other (.inr (.inl same.symm)), start.2⟩
      next => exact ih all.2 start h
      next => exact nomatch h

theorem ofEntries_eq_ok {entries : Fields Value} {children : Except ValueFault (List Widget)}
    (h : ofEntries entries children = .ok w) :
    ∃ kind id ws props, w = ⟨kind, id, props, ws, .none⟩ ∧ id ≠ "" ∧ children = .ok ws ∧
      (kind.isContainer = true ∨ ws = []) ∧ propsOf [] entries = .ok props := by
  unfold ofEntries at h
  dsimp only at h
  split at h
  · exact nomatch h
  next kind _ =>
    split at h
    · exact nomatch h
    next id _ =>
      split at h
      · exact nomatch h
      next named =>
        obtain ⟨ws, hws, h⟩ := bind_eq_ok.1 h
        split at h
        · exact nomatch h
        next leaf =>
          obtain ⟨props, hprops, h⟩ := bind_eq_ok.1 h
          cases h
          refine ⟨kind, id, ws, props, rfl, ?_, hws, ?_, hprops⟩
          · rintro rfl
            exact named rfl
          · cases container : kind.isContainer with
            | true => exact .inl rfl
            | false => simpa [container] using leaf

mutual

theorem good_of_ofValue (closed : Buildable q) : (v : Value) → (w : Widget) → v.All q →
    ofValue v = .ok w → q w
  | .node n, w, all, h => by
    rw [ofValue] at h
    cases h
    exact Value.all_node.1 all
  | .map entries, w, all, h => by
    rw [ofValue] at h
    obtain ⟨kind, id, ws, props, rfl, named, below, leaf, given⟩ := ofEntries_eq_ok h
    obtain ⟨regular, keys⟩ :=
      proper_propsOf (Value.all_map.1 all).2 ⟨Properties.regular_nil, by simp⟩ given
    rw [Value.All] at all
    exact closed.built kind id props ws .none named keys regular leaf
      (good_of_childrenIn closed entries ws all.2 below)
  | .nil, w, _, h => by simp [ofValue] at h
  | .bool _, w, _, h => by simp [ofValue] at h
  | .number _, w, _, h => by simp [ofValue] at h
  | .str _, w, _, h => by simp [ofValue] at h
  | .symbol _, w, _, h => by simp [ofValue] at h
  | .color _, w, _, h => by simp [ofValue] at h
  | .points _, w, _, h => by simp [ofValue] at h
  | .list _, w, _, h => by simp [ofValue] at h

theorem good_of_ofValues (closed : Buildable q) : (vs : List Value) → (ws : List Widget) →
    Value.AllItems q vs → ofValues vs = .ok ws → ∀ w ∈ ws, q w
  | [], ws, _, h => by
    rw [ofValues] at h
    cases h
    simp
  | v :: vs, ws, all, h => by
    rw [Value.AllItems] at all
    rw [ofValues, bind_eq_ok] at h
    obtain ⟨w, hw, h⟩ := h
    obtain ⟨rest, hrest, h⟩ := bind_eq_ok.1 h
    cases h
    rw [List.forall_mem_cons]
    exact ⟨good_of_ofValue closed v w all.1 hw, good_of_ofValues closed vs rest all.2 hrest⟩

theorem good_of_childrenIn (closed : Buildable q) : (entries : List (String × Value)) →
    (ws : List Widget) → Value.AllEntries q entries → childrenIn entries = .ok ws → ∀ w ∈ ws, q w
  | [], ws, _, h => by
    rw [childrenIn] at h
    cases h
    simp
  | (key, v) :: rest, ws, all, h => by
    rw [Value.AllEntries] at all
    rw [childrenIn] at h
    split at h
    · exact good_of_childrenOf closed v ws all.1 h
    · exact good_of_childrenIn closed rest ws all.2 h

theorem good_of_childrenOf (closed : Buildable q) : (v : Value) → (ws : List Widget) →
    v.All q → childrenOf v = .ok ws → ∀ w ∈ ws, q w
  | .nil, ws, _, h => by
    rw [childrenOf] at h
    cases h
    simp
  | .list items, ws, all, h => by
    rw [Value.All] at all
    rw [childrenOf] at h
    exact good_of_ofValues closed items ws all h
  | .bool _, ws, _, h => by simp [childrenOf] at h
  | .number _, ws, _, h => by simp [childrenOf] at h
  | .str _, ws, _, h => by simp [childrenOf] at h
  | .symbol _, ws, _, h => by simp [childrenOf] at h
  | .color _, ws, _, h => by simp [childrenOf] at h
  | .points _, ws, _, h => by simp [childrenOf] at h
  | .map _, ws, _, h => by simp [childrenOf] at h
  | .node _, ws, _, h => by simp [childrenOf] at h

end

end Widget

namespace Directive
variable {q : Widget → Prop} {props : Properties} {given : List (String × Value)}
  {ps : List (String × Option Property)}

theorem all_pair {first second : String} {value : Value}
    (h : pair first second value = .ok given) : ∀ entry ∈ given, entry.2.All q := by
  unfold pair at h
  split at h
  · cases h
    simp
  · exact nomatch h
  · split at h
    · cases h
      simp
    · exact nomatch h
  · exact nomatch h

theorem all_assignments {setter : Setter} {value : Value} (all : value.All q)
    (h : assignments setter value = .ok given) : ∀ entry ∈ given, entry.2.All q := by
  unfold assignments at h
  split at h
  · cases h
    simpa using all
  · cases h
    simpa using all
  · cases h
    simp
  · exact nomatch h
  · cases h
    simp
  · cases h
    simp
  · exact nomatch h
  · exact all_pair h
  · exact all_pair h
  · cases h
    exact (Value.all_map.1 all).2
  · exact nomatch h
  · split at h
    · cases h
      rw [List.forall_mem_singleton]
      exact Value.all_getD fun v hv => Value.all_get? (Value.all_map.1 all).2 hv
    · exact nomatch h
  · exact nomatch h

theorem coerceAll_forall₂ (h : coerceAll given = .ok ps) :
    List.Forall₂ (fun entry field => entry.1 ≠ "id" ∧ field.1 = entry.1 ∧
      Property.coerce entry.1 entry.2 = .ok field.2) given ps := by
  induction given generalizing ps with
  | nil =>
    cases h
    exact .nil
  | cons entry rest ih =>
    obtain ⟨key, v⟩ := entry
    rw [coerceAll] at h
    split at h
    · exact nomatch h
    next other =>
      split at h
      · exact nomatch h
      next p coerced =>
        obtain ⟨ps, hps, h⟩ := bind_eq_ok.1 h
        cases h
        exact .cons ⟨other, rfl, coerced⟩ (ih hps)

theorem coerceAll_eq_ok (h : coerceAll given = .ok ps) :
    ∀ field ∈ ps, field.1 ≠ "id" ∧
      ∀ p, field.2 = some p → ∃ v, (field.1, v) ∈ given ∧
        Property.coerce field.1 v = .ok (some p) := by
  have all := coerceAll_forall₂ h
  clear h
  induction all with
  | nil => simp
  | @cons entry field _ _ first _ ih =>
    obtain ⟨other, same, coerced⟩ := first
    rw [List.forall_mem_cons]
    refine ⟨⟨same ▸ other, fun p some => ?_⟩, fun field hf => ?_⟩
    · rw [some] at coerced
      rw [same]
      exact ⟨entry.2, List.mem_cons_self, coerced⟩
    · obtain ⟨named, source⟩ := ih field hf
      refine ⟨named, fun p hp => ?_⟩
      obtain ⟨v, hv, coerced⟩ := source p hp
      exact ⟨v, List.mem_cons_of_mem _ hv, coerced⟩

theorem regular_assign (start : props.Regular)
    (regular : ∀ field ∈ ps, ∀ p, field.2 = some p → p.Regular) : (assign props ps).Regular := by
  induction ps generalizing props with
  | nil => exact start
  | cons field rest ih =>
    obtain ⟨key, p⟩ := field
    rw [List.forall_mem_cons] at regular
    cases p with
    | none => exact ih start.erase regular.2
    | some p => exact ih (start.insert (regular.1 p rfl)) regular.2

theorem not_mem_keys_assign {key : String} (start : key ∉ Fields.keys props)
    (others : ∀ field ∈ ps, field.1 ≠ key) : key ∉ Fields.keys (assign props ps) := by
  induction ps generalizing props with
  | nil => exact start
  | cons field rest ih =>
    obtain ⟨k, p⟩ := field
    rw [List.forall_mem_cons] at others
    cases p with
    | none =>
      refine ih (fun mem => start ?_) others.2
      exact (Fields.erase_sublist.map Prod.fst).subset mem
    | some p =>
      refine ih (fun mem => ?_) others.2
      rcases Fields.mem_keys_insert.1 mem with same | mem
      · exact others.1 same.symm
      · exact start mem

end Directive
end WidgetScript
