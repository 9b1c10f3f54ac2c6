import WidgetScript.Value
import WidgetScript.Proofs.Equality

/-! Values whose widgets all have some property, and whose maps have each key once. What is
read from JSON text or from a stored property has no widgets at all. -/
namespace WidgetScript
namespace Value

mutual

/-- All widgets in the value satisfy `q`, and its maps have distinct keys. -/
def All (q : Widget → Prop) : Value → Prop
  | .list items => AllItems q items
  | .map entries => (Fields.keys entries).Nodup ∧ AllEntries q entries
  | .node w => q w
  | _ => True

def AllItems (q : Widget → Prop) : List Value → Prop
  | [] => True
  | v :: vs => All q v ∧ AllItems q vs

def AllEntries (q : Widget → Prop) : List (String × Value) → Prop
  | [] => True
  | (_, v) :: vs => All q v ∧ AllEntries q vs

end

variable {q : Widget → Prop} {v : Value} {items : List Value} {fields : Fields Value}

theorem allItems_iff : AllItems q items ↔ ∀ v ∈ items, v.All q := by
  induction items with
  | nil => simp [AllItems]
  | cons v vs ih => simp [AllItems, ih]

theorem allEntries_iff : AllEntries q fields ↔ ∀ field ∈ fields, field.2.All q := by
  induction fields with
  | nil => simp [AllEntries]
  | cons field vs ih => simp [AllEntries, ih]

theorem all_list : (Value.list items).All q ↔ ∀ v ∈ items, v.All q := allItems_iff

theorem all_map : (Value.map fields).All q ↔
    (Fields.keys fields).Nodup ∧ ∀ field ∈ fields, field.2.All q :=
  and_congr_right fun _ => allEntries_iff

theorem all_node {w : Widget} : (Value.node w).All q ↔ q w := .rfl

@[simp] theorem all_nil : Value.nil.All q := trivial

@[simp] theorem all_bool {b : Bool} : (Value.bool b).All q := trivial

@[simp] theorem all_number {x : Float} : (Value.number x).All q := trivial

@[simp] theorem all_str {s : String} : (Value.str s).All q := trivial

@[simp] theorem all_symbol {s : String} : (Value.symbol s).All q := trivial

@[simp] theorem all_color {c : Color} : (Value.color c).All q := trivial

@[simp] theorem all_points {ps : List Point} : (Value.points ps).All q := trivial

theorem all_map_insert {key : String} (h : (Value.map fields).All q) (hv : v.All q) :
    (Value.map (Fields.insert key v fields)).All q := by
  rw [all_map] at h ⊢
  refine ⟨Fields.nodup_insert h.1, fun field hf => ?_⟩
  rcases Fields.mem_insert hf with rfl | hf
  · exact hv
  · exact h.2 field hf

theorem all_get? {key : String} (h : ∀ field ∈ fields, field.2.All q)
    (found : Fields.get? fields key = some v) : v.All q :=
  h (key, v) (Fields.mem_of_get? found)

theorem all_getD {o : Option Value} (h : ∀ v, o = some v → v.All q) : (o.getD .nil).All q := by
  cases o with
  | none => exact all_nil
  | some v => exact h v rfl

mutual

theorem all_ofJson : (json : Json) → (ofJson json).All q
  | .null => by rw [ofJson]; exact all_nil
  | .bool b => by rw [ofJson]; exact all_bool
  | .number x => by rw [ofJson]; exact all_number
  | .string s => by rw [ofJson]; exact all_str
  | .array items => by
    rw [ofJson, all_list]
    exact all_ofItems items
  | .object fields => by
    rw [ofJson, all_map]
    refine ⟨Fields.nodup_ofList _, fun field hf => ?_⟩
    rcases Fields.mem_extend hf with hf | hf
    · exact nomatch hf
    · exact all_ofFields fields field hf

theorem all_ofItems : (items : List Json) → ∀ v ∈ ofItems items, v.All q
  | [], v, hv => by simp [ofItems] at hv
  | item :: items, v, hv => by
    rw [ofItems, List.mem_cons] at hv
    rcases hv with rfl | hv
    · exact all_ofJson item
    · exact all_ofItems items v hv

theorem all_ofFields : (fields : List (String × Json)) → ∀ field ∈ ofFields fields, field.2.All q
  | [], field, hf => by simp [ofFields] at hf
  | (key, json) :: fields, field, hf => by
    rw [ofFields, List.mem_cons] at hf
    rcases hf with rfl | hf
    · exact all_ofJson json
    · exact all_ofFields fields field hf

end

theorem keys_ofProperties (fields : List (String × Property)) :
    Fields.keys (ofProperties fields) = Fields.keys fields := by
  induction fields with
  | nil => rfl
  | cons field fields ih =>
    obtain ⟨key, p⟩ := field
    rw [ofProperties, Fields.keys_cons, ih, Fields.keys_cons]

mutual

theorem all_ofProperty : (p : Property) → p.Regular → (ofProperty p).All q
  | .str s, _ => by rw [ofProperty]; exact all_str
  | .number x, _ => by rw [ofProperty]; exact all_number
  | .bool b, _ => by rw [ofProperty]; exact all_bool
  | .color c, _ => by rw [ofProperty]; exact all_color
  | .points ps, _ => by rw [ofProperty]; exact all_points
  | .handler name, _ => by rw [ofProperty]; exact all_symbol
  | .list items, h => by
    rw [Property.Regular] at h
    rw [ofProperty, All]
    exact all_ofPropertyList items h
  | .record fields, h => by
    rw [Property.Regular] at h
    rw [ofProperty, All, keys_ofProperties]
    exact ⟨h.1, all_ofProperties fields h.2⟩

theorem all_ofPropertyList : (items : List Property) → Property.RegularItems items →
    AllItems q (ofPropertyList items)
  | [], _ => by rw [ofPropertyList, AllItems]; trivial
  | item :: items, h => by
    rw [Property.RegularItems] at h
    rw [ofPropertyList, AllItems]
    exact ⟨all_ofProperty item h.1, all_ofPropertyList items h.2⟩

theorem all_ofProperties : (fields : List (String × Property)) → Property.RegularFields fields →
    AllEntries q (ofProperties fields)
  | [], _ => by rw [ofProperties, AllEntries]; trivial
  | (key, p) :: fields, h => by
    rw [Property.RegularFields] at h
    rw [ofProperties, AllEntries]
    exact ⟨all_ofProperty p h.1, all_ofProperties fields h.2⟩

end

end Value
end WidgetScript
