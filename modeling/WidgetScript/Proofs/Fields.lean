import WidgetScript.Fields
import Mathlib.Data.List.Nodup

/-! Fields are read through `get?`. A table whose keys are distinct is a map, and each
operation is known by what a lookup in its result gives. -/
namespace WidgetScript.Fields
variable {α : Type} {fields more : Fields α} {key k : String} {value v : α}

@[simp] theorem get?_nil : get? ([] : Fields α) key = none := rfl

@[simp] theorem get?_cons :
    get? ((k, v) :: fields) key = if k = key then some v else get? fields key := by
  unfold get?
  by_cases h : k = key
  · simp [h]
  · have h' : (key == k) = false := by simp [Ne.symm h]
    simp [List.lookup_cons, h, h']

@[simp] theorem keys_nil : keys ([] : Fields α) = [] := rfl

@[simp] theorem keys_cons : keys ((k, v) :: fields) = k :: keys fields := rfl

theorem get?_eq_none_iff : get? fields key = none ↔ key ∉ keys fields := by
  induction fields with
  | nil => simp
  | cons field rest ih =>
    obtain ⟨k, v⟩ := field
    by_cases h : k = key
    · simp [h]
    · simp [h, ih, Ne.symm h]

theorem contains_iff : contains fields key = true ↔ key ∈ keys fields := by
  unfold contains
  rw [Option.isSome_iff_ne_none, Ne, get?_eq_none_iff, not_not]

theorem mem_of_get? (h : get? fields key = some value) : (key, value) ∈ fields := by
  induction fields with
  | nil => simp at h
  | cons field rest ih =>
    obtain ⟨k, v⟩ := field
    rw [get?_cons] at h
    split at h
    next hk =>
      cases h
      simp [hk]
    next => exact List.mem_cons_of_mem _ (ih h)

theorem get?_of_mem (distinct : (keys fields).Nodup) (h : (key, value) ∈ fields) :
    get? fields key = some value := by
  induction fields with
  | nil => simp at h
  | cons field rest ih =>
    obtain ⟨k, v⟩ := field
    rw [keys_cons, List.nodup_cons] at distinct
    rw [get?_cons]
    rcases List.mem_cons.1 h with h | h
    · cases h
      simp
    · have : k ≠ key := fun e => distinct.1 (e ▸ List.mem_map.2 ⟨_, h, rfl⟩)
      rw [if_neg this]
      exact ih distinct.2 h

@[simp] theorem get?_insert :
    get? (insert key value fields) k = if key = k then some value else get? fields k := by
  induction fields with
  | nil => simp [insert]
  | cons field rest ih =>
    obtain ⟨k', v⟩ := field
    by_cases h : k' = key
    · by_cases hk : key = k <;> simp [insert, h, hk]
    · rw [insert, if_neg h, get?_cons, get?_cons, ih]
      by_cases hk : k' = k
      · have : key ≠ k := fun e => h (hk.trans e.symm)
        simp [hk, this]
      · simp [hk]

theorem mem_keys_insert : k ∈ keys (insert key value fields) ↔ k = key ∨ k ∈ keys fields := by
  rw [← contains_iff, ← contains_iff, contains, contains, get?_insert]
  by_cases h : key = k
  · simp [h]
  · simp [h, Ne.symm h]

theorem insert_of_not_mem (fresh : key ∉ keys fields) :
    insert key value fields = fields ++ [(key, value)] := by
  induction fields with
  | nil => rfl
  | cons field fields ih =>
    obtain ⟨k, v⟩ := field
    rw [keys_cons, List.mem_cons, not_or] at fresh
    rw [insert, if_neg (Ne.symm fresh.1), ih fresh.2]
    rfl

theorem nodup_insert (distinct : (keys fields).Nodup) :
    (keys (insert key value fields)).Nodup := by
  induction fields with
  | nil => simp [insert]
  | cons field rest ih =>
    obtain ⟨k', v⟩ := field
    rw [keys_cons, List.nodup_cons] at distinct
    by_cases h : k' = key
    · subst h
      simpa [insert] using distinct
    · have : k' ∉ keys (insert key value rest) := by
        rw [mem_keys_insert, not_or]
        exact ⟨h, distinct.1⟩
      simpa [insert, h] using ⟨this, ih distinct.2⟩

theorem mem_insert {entry : String × α} (h : entry ∈ insert key value fields) :
    entry = (key, value) ∨ entry ∈ fields := by
  induction fields with
  | nil => simpa [insert] using h
  | cons field rest ih =>
    obtain ⟨k', v⟩ := field
    unfold insert at h
    split at h
    · rcases List.mem_cons.1 h with h | h
      · exact .inl h
      · exact .inr (List.mem_cons_of_mem _ h)
    · rcases List.mem_cons.1 h with h | h
      · exact .inr (h ▸ List.mem_cons_self)
      · exact (ih h).imp_right (List.mem_cons_of_mem _)

theorem erase_sublist : (erase fields key).Sublist fields := List.eraseP_sublist

theorem nodup_erase (distinct : (keys fields).Nodup) : (keys (erase fields key)).Nodup :=
  distinct.sublist (erase_sublist.map _)

theorem get?_erase (distinct : (keys fields).Nodup) :
    get? (erase fields key) k = if key = k then none else get? fields k := by
  induction fields with
  | nil => simp [erase]
  | cons field rest ih =>
    obtain ⟨k', v⟩ := field
    rw [keys_cons, List.nodup_cons] at distinct
    by_cases h : k' = key
    · subst h
      have erased : erase ((k', v) :: rest) k' = rest := by simp [erase]
      rw [erased, get?_cons]
      split
      next e => exact e ▸ get?_eq_none_iff.2 distinct.1
      next => rfl
    · have erased : erase ((k', v) :: rest) key = (k', v) :: erase rest key := by
        simp [erase, h]
      rw [erased, get?_cons, get?_cons, ih distinct.2]
      by_cases hk : k' = k
      · have : key ≠ k := fun e => h (hk.trans e.symm)
        simp [hk, this]
      · simp [hk]

theorem extend_cons : extend fields ((k, v) :: more) = extend (insert k v fields) more := rfl

theorem get?_extend (distinct : (keys more).Nodup) :
    get? (extend fields more) key = (get? more key).or (get? fields key) := by
  induction more generalizing fields with
  | nil => simp [extend]
  | cons field rest ih =>
    obtain ⟨k, v⟩ := field
    rw [keys_cons, List.nodup_cons] at distinct
    rw [extend_cons, ih distinct.2, get?_insert, get?_cons]
    by_cases h : k = key
    · have : get? rest key = none := h ▸ get?_eq_none_iff.2 distinct.1
      simp [h, this]
    · simp [h]

theorem nodup_extend (distinct : (keys fields).Nodup) : (keys (extend fields more)).Nodup := by
  induction more generalizing fields with
  | nil => exact distinct
  | cons field rest ih => exact ih (nodup_insert distinct)

theorem nodup_ofList (entries : List (String × α)) : (keys (ofList entries)).Nodup :=
  nodup_extend List.nodup_nil

theorem mem_extend {entry : String × α} (h : entry ∈ extend fields more) :
    entry ∈ fields ∨ entry ∈ more := by
  induction more generalizing fields with
  | nil => exact .inl h
  | cons field rest ih =>
    obtain ⟨k, v⟩ := field
    rw [extend_cons] at h
    rcases ih h with h | h
    · rcases mem_insert h with h | h
      · exact .inr (h ▸ List.mem_cons_self)
      · exact .inl h
    · exact .inr (List.mem_cons_of_mem _ h)

theorem get?_filter (keep : String × α → Bool) (distinct : (keys fields).Nodup) :
    get? (List.filter keep fields) key = (get? fields key).filter fun v => keep (key, v) := by
  induction fields with
  | nil => simp
  | cons field rest ih =>
    obtain ⟨k, v⟩ := field
    rw [keys_cons, List.nodup_cons] at distinct
    by_cases h : k = key
    · have : get? rest key = none := h ▸ get?_eq_none_iff.2 distinct.1
      by_cases hv : keep (key, v) <;> simp [Option.filter, h, hv, ih distinct.2, this]
    · by_cases hv : keep (k, v) <;> simp [h, hv, ih distinct.2]

theorem filter_insert {keep : String × α → Bool} (other : ∀ v, keep (key, v) = false) :
    List.filter keep (insert key value fields) = List.filter keep fields := by
  induction fields with
  | nil => simp [insert, other]
  | cons field rest ih =>
    obtain ⟨k, v⟩ := field
    rw [insert]
    split
    next same =>
      subst same
      simp [other]
    next => rw [List.filter_cons, List.filter_cons, ih]

theorem filter_erase {keep : String × α → Bool} (other : ∀ v, keep (key, v) = false) :
    List.filter keep (erase fields key) = List.filter keep fields := by
  induction fields with
  | nil => rfl
  | cons field rest ih =>
    obtain ⟨k, v⟩ := field
    by_cases same : k = key
    · subst same
      simp [erase, other]
    · have erased : erase ((k, v) :: rest) key = (k, v) :: erase rest key := by simp [erase, same]
      rw [erased, List.filter_cons, List.filter_cons, ih]

end WidgetScript.Fields
