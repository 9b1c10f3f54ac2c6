/-! Fields are a map that keeps its keys in the order in which they first came. A new
value for a known key takes the place of the old one. -/
namespace WidgetScript

abbrev Fields (α : Type) := List (String × α)

namespace Fields
variable {α : Type}

def keys (fields : Fields α) : List String := fields.map Prod.fst

def get? (fields : Fields α) (key : String) : Option α := fields.lookup key

def contains (fields : Fields α) (key : String) : Bool := (get? fields key).isSome

def insert (key : String) (value : α) : Fields α → Fields α
  | [] => [(key, value)]
  | (k, v) :: rest => if k = key then (key, value) :: rest else (k, v) :: insert key value rest

def erase (fields : Fields α) (key : String) : Fields α :=
  List.eraseP (fun field => field.1 == key) fields

def extend (fields more : Fields α) : Fields α :=
  more.foldl (fun acc field => insert field.1 field.2 acc) fields

def ofList (entries : List (String × α)) : Fields α := extend [] entries

def sorted (fields : Fields α) : Fields α :=
  fields.mergeSort fun a b => a.1 ≤ b.1

theorem length_erase_lt {fields : Fields α} {key : String} {value : α}
    (h : get? fields key = some value) :
    (erase fields key).length < fields.length := by
  induction fields with
  | nil => simp [get?] at h
  | cons field rest ih =>
    obtain ⟨k, v⟩ := field
    by_cases hk : k = key
    · simp [erase, hk]
    · have hk' : (key == k) = false := by simp [Ne.symm hk]
      simp only [get?, List.lookup_cons, hk'] at h
      have := ih h
      simp only [erase, List.eraseP_cons, beq_eq_false_iff_ne.2 hk, cond_false,
        List.length_cons] at this ⊢
      omega

end Fields
end WidgetScript
