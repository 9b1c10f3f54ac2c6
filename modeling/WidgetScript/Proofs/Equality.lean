import WidgetScript.Proofs.Fields
import WidgetScript.Property

/-! A property is equal to itself unless a number in it is NaN. For a record this needs
its keys to be distinct, because equality looks every field up by its key. Main statement:
what a table holds after the differing fields have been put into it equals what was
asked for. -/
namespace WidgetScript

/-- Numbers are compared by the order of their sizes, in which only NaN has no place. -/
theorem Number.beq_self {x : Float} (h : x.isNaN = false) : (x == x) = true := by
  change x.toModel.unpack.isNaN = false at h
  change (x.toModel.unpack.compare x.toModel.unpack == some .eq) = true
  cases e : x.toModel.unpack with
  | notANumber =>
    rw [e] at h
    exact absurd h (by decide)
  | infinity sign => cases sign <;> rfl
  | zero sign => rfl
  | finite sign mantissa exponent =>
    have exponents : compare exponent exponent = .eq := Std.ReflCmp.compare_self
    have mantissas : compare mantissa mantissa = .eq := Std.ReflCmp.compare_self
    have order : (compare exponent exponent).then (compare mantissa mantissa) = .eq := by
      rw [exponents, mantissas]
      rfl
    cases sign with
    | positive =>
      change (some ((compare exponent exponent).then (compare mantissa mantissa)) == some .eq) = true
      rw [order]
      rfl
    | negative =>
      change (some ((compare exponent exponent).then (compare mantissa mantissa)).swap ==
        some .eq) = true
      rw [order]
      rfl

theorem Number.isNaN_of_isFinite {x : Float} (h : x.isFinite = true) : x.isNaN = false := by
  change x.toModel.unpack.isFinite = true at h
  change x.toModel.unpack.isNaN = false
  cases e : x.toModel.unpack with
  | notANumber =>
    rw [e] at h
    exact absurd h (by decide)
  | infinity sign => rfl
  | zero sign => rfl
  | finite sign mantissa exponent => rfl

def Point.HasNumbers (p : Point) : Prop := p.x.isNaN = false ∧ p.y.isNaN = false

namespace Property

mutual

/-- No number in the property is NaN and no record in it has a key twice. -/
def Regular : Property → Prop
  | .number x => x.isNaN = false
  | .points ps => ∀ p ∈ ps, p.HasNumbers
  | .list items => RegularItems items
  | .record fields => (Fields.keys fields).Nodup ∧ RegularFields fields
  | _ => True

def RegularItems : List Property → Prop
  | [] => True
  | item :: items => Regular item ∧ RegularItems items

def RegularFields : List (String × Property) → Prop
  | [] => True
  | (_, value) :: fields => Regular value ∧ RegularFields fields

end

end Property

theorem sameItems_self {ps : List Point} (h : ∀ p ∈ ps, p.HasNumbers) :
    sameItems Point.same ps ps = true := by
  induction ps with
  | nil => rfl
  | cons p ps ih =>
    obtain ⟨x, y⟩ := h p List.mem_cons_self
    have rest := ih fun q hq => h q (List.mem_cons_of_mem _ hq)
    simp [sameItems, Point.same, Number.beq_self x, Number.beq_self y, rest]

namespace Property

mutual

theorem same_self : (p : Property) → p.Regular → p.same p = true
  | .str s, _ => by simp [same]
  | .number x, h => by
    rw [Regular] at h
    simp [same, Number.beq_self h]
  | .bool b, _ => by simp [same]
  | .color c, _ => by simp [same]
  | .points ps, h => by
    rw [Regular] at h
    simp [same, sameItems_self h]
  | .handler name, _ => by simp [same]
  | .list items, h => by
    rw [Regular] at h
    simp [same, sameList_self items h]
  | .record fields, h => by
    rw [Regular] at h
    have whole : ∀ field ∈ fields, Fields.get? fields field.1 = some field.2 :=
      fun field hf => Fields.get?_of_mem h.1 hf
    simp [same, sameFields_self fields fields whole h.2]

theorem sameList_self : (items : List Property) → RegularItems items →
    sameList items items = true
  | [], _ => rfl
  | item :: items, h => by
    rw [RegularItems] at h
    simp [sameList, same_self item h.1, sameList_self items h.2]

/-- The second table is the whole record, of which the first is what is left to compare. -/
theorem sameFields_self : (fields whole : List (String × Property)) →
    (∀ field ∈ fields, Fields.get? whole field.1 = some field.2) → RegularFields fields →
    sameFields fields whole = true
  | [], _, _, _ => by rw [sameFields]
  | (key, value) :: fields, whole, found, h => by
    rw [RegularFields] at h
    have rest := sameFields_self fields whole
      (fun field hf => found field (List.mem_cons_of_mem _ hf)) h.2
    have here : Fields.get? whole key = some value := found (key, value) List.mem_cons_self
    simp [sameFields, here, same_self value h.1, rest]

end

/-- The value itself or one that equals it. Where there is NaN, nothing equals it. -/
def Agrees (q p : Property) : Prop := q = p ∨ q.same p = true

theorem Agrees.same {q p : Property} (h : q.Agrees p) (regular : p.Regular) : q.same p = true := by
  rcases h with rfl | same
  · exact q.same_self regular
  · exact same

end Property

namespace Properties

def Regular (props : Properties) : Prop :=
  (Fields.keys props).Nodup ∧ ∀ field ∈ props, field.2.Regular

variable {props old new : Properties} {key : String} {p : Property}

theorem regular_nil : Regular [] := ⟨List.nodup_nil, by simp⟩

theorem Regular.insert (h : props.Regular) (hp : p.Regular) :
    Regular (Fields.insert key p props) := by
  refine ⟨Fields.nodup_insert h.1, fun field hf => ?_⟩
  rcases Fields.mem_insert hf with rfl | hf
  · exact hp
  · exact h.2 field hf

theorem Regular.erase (h : props.Regular) : Regular (Fields.erase props key) :=
  ⟨Fields.nodup_erase h.1, fun field hf => h.2 field (Fields.erase_sublist.subset hf)⟩

theorem nodup_diff (distinct : (Fields.keys new).Nodup) : (Fields.keys (diff old new)).Nodup :=
  distinct.sublist (List.filter_sublist.map _)

theorem get?_diff (distinct : (Fields.keys new).Nodup) :
    Fields.get? (diff old new) key = (Fields.get? new key).filter fun p =>
      match Fields.get? old key with
      | some q => !q.same p
      | none => true :=
  Fields.get?_filter _ distinct

theorem diff_eq_nil_iff : diff old new = [] ↔
    ∀ field ∈ new, ∃ q, Fields.get? old field.1 = some q ∧ q.same field.2 = true := by
  unfold diff
  rw [List.filter_eq_nil_iff]
  refine forall₂_congr fun field _ => ?_
  cases Fields.get? old field.1 <;> simp

theorem agrees_extend_diff (distinct : (Fields.keys new).Nodup) (h : Fields.get? new key = some p) :
    ∃ q, Fields.get? (Fields.extend old (diff old new)) key = some q ∧ q.Agrees p := by
  rw [Fields.get?_extend (nodup_diff distinct), get?_diff distinct, h]
  cases found : Fields.get? old key with
  | none => exact ⟨p, by simp [Option.filter], .inl rfl⟩
  | some q =>
    by_cases e : q.same p = true
    · exact ⟨q, by simp [Option.filter, e], .inr e⟩
    · exact ⟨p, by simp [Option.filter, e], .inl rfl⟩

theorem get?_extend_diff_of_none (distinct : (Fields.keys new).Nodup)
    (h : Fields.get? new key = none) :
    Fields.get? (Fields.extend old (diff old new)) key = Fields.get? old key := by
  rw [Fields.get?_extend (nodup_diff distinct), get?_diff distinct, h]
  rfl

end Properties
end WidgetScript
