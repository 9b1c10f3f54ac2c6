import WidgetScript.Proofs.Forest

/-! An id that stands twice in a forest. The search for one goes through the widgets in pre-order
and ends at the first whose id it has met. The ids before that one are distinct, so there is a
single widget before it that has the id. -/
namespace WidgetScript
namespace Forest

variable {f : Forest} {w first : Widget} {i i' j j' : Nat}

/-- Counted in pre-order the widget at `i` has the id of an earlier one, at `j`. -/
structure Repeats (f : Forest) (j i : Nat) : Prop where
  before : j < i
  within : i < f.ids.length
  same : f.ids[j]? = f.ids[i]?

structure FirstRepeat (f : Forest) (j i : Nat) : Prop where
  repeats : f.Repeats j i
  least : ∀ l k, f.Repeats l k → i ≤ k
  sole : ∀ l, f.Repeats l i → l = j

/-- The widget `w` is the first whose id is that of an earlier one, namely of `first`. -/
def Repetition (f : Forest) (w first : Widget) : Prop :=
  ∃ j i, f.FirstRepeat j i ∧ f.preorder[j]? = some first ∧ f.preorder[i]? = some w

theorem Repeats.not_distinct (h : f.Repeats j i) : ¬ f.Distinct := by
  intro distinct
  have place := (List.getElem?_inj (Nat.lt_trans h.before h.within) distinct).1 h.same
  exact Nat.ne_of_lt h.before place

theorem FirstRepeat.unique (h : f.FirstRepeat j i) (h' : f.FirstRepeat j' i') :
    j = j' ∧ i = i' := by
  have same : i = i' := Nat.le_antisymm (h.least j' i' h'.repeats) (h'.least j i h.repeats)
  subst same
  exact ⟨h'.sole j h.repeats, rfl⟩

theorem Repetition.unique {w' first' : Widget} (h : f.Repetition w first)
    (h' : f.Repetition w' first') : w = w' ∧ first = first' := by
  obtain ⟨j, i, place, there, here⟩ := h
  obtain ⟨j', i', place', there', here'⟩ := h'
  obtain ⟨rfl, rfl⟩ := place.unique place'
  exact ⟨Option.some.inj (here.symm.trans here'), Option.some.inj (there.symm.trans there')⟩

theorem Repetition.not_distinct (h : f.Repetition w first) : ¬ f.Distinct := by
  obtain ⟨j, i, place, -, -⟩ := h
  exact place.repeats.not_distinct

theorem cut_of_repeated? {seen ws : List Widget} (distinct : (seen.map (·.id)).Nodup)
    (h : repeated? seen ws = some (w, first)) :
    ∃ before after, ws = before ++ w :: after ∧ ((seen ++ before).map (·.id)).Nodup ∧
      first ∈ seen ++ before ∧ first.id = w.id := by
  induction ws generalizing seen with
  | nil => exact nomatch h
  | cons n ws ih =>
    rw [repeated?] at h
    split at h
    next m found =>
      cases h
      have same : first.id = w.id := by simpa using List.find?_some found
      refine ⟨[], ws, rfl, ?_, ?_, same⟩
      · rwa [List.append_nil]
      · rw [List.append_nil]
        exact List.mem_of_find?_eq_some found
    next none =>
      -- The id is new, so with it the ids that have been met are distinct still.
      have fresh : n.id ∉ seen.map (·.id) := by simpa using none
      have longer : ((seen ++ [n]).map (·.id)).Nodup := by
        rw [List.map_append, List.map_singleton, ← List.concat_eq_append]
        exact distinct.concat fresh
      obtain ⟨before, after, rfl, distinct, mem, same⟩ := ih longer h
      rw [List.append_assoc, List.singleton_append] at distinct mem
      exact ⟨n :: before, after, rfl, distinct, mem, same⟩

theorem repetition_of_cut {before after : List Widget} (cut : f.preorder = before ++ w :: after)
    (distinct : (before.map (·.id)).Nodup) (mem : first ∈ before) (same : first.id = w.id) :
    f.Repetition w first := by
  have ids : f.ids = before.map (·.id) ++ w.id :: after.map (·.id) := by
    rw [Forest.ids, cut, List.map_append, List.map_cons]
  have front {k : Nat} (hk : k < before.length) : f.ids[k]? = (before.map (·.id))[k]? := by
    rw [ids, List.getElem?_append_left (by rwa [List.length_map])]
  have apart {l k : Nat} (hl : l < before.length) (hk : k < before.length)
      (eq : f.ids[l]? = f.ids[k]?) : l = k := by
    rw [front hl, front hk] at eq
    exact (List.getElem?_inj (by rwa [List.length_map]) distinct).1 eq
  obtain ⟨j, there⟩ := List.mem_iff_getElem?.1 mem
  obtain ⟨inside, -⟩ := List.getElem?_eq_some_iff.1 there
  have twice : f.ids[j]? = f.ids[before.length]? := by
    rw [front inside, List.getElem?_map, there, ids, List.getElem?_append_right (by simp)]
    simp [same]
  have repeats : f.Repeats j before.length := ⟨inside, by simp [ids], twice⟩
  refine ⟨j, before.length, ⟨repeats, fun l k h => ?_, fun l h => ?_⟩, ?_, ?_⟩
  -- An earlier repetition would be one among the distinct ids.
  · by_contra early
    have hk : k < before.length := Nat.not_le.1 early
    exact Nat.ne_of_lt h.before (apart (Nat.lt_trans h.before hk) hk h.same)
  · exact apart h.before inside (h.same.trans twice.symm)
  · rw [cut, List.getElem?_append_left inside, there]
  · simp [cut]

theorem repetition_of_firstDuplicate? (h : f.firstDuplicate? = some (w, first)) :
    f.Repetition w first := by
  have nothing : ([].map Widget.id).Nodup := List.nodup_nil
  obtain ⟨before, after, cut, distinct, mem, same⟩ := cut_of_repeated? nothing h
  exact repetition_of_cut cut distinct mem same

theorem firstDuplicate?_eq_some_iff :
    f.firstDuplicate? = some (w, first) ↔ f.Repetition w first := by
  refine ⟨repetition_of_firstDuplicate?, fun repeated => ?_⟩
  obtain ⟨⟨w', first'⟩, found⟩ := Option.ne_none_iff_exists'.1
    (mt firstDuplicate?_eq_none_iff.1 repeated.not_distinct)
  obtain ⟨rfl, rfl⟩ := repeated.unique (repetition_of_firstDuplicate? found)
  exact found

theorem not_distinct_iff : ¬ f.Distinct ↔ ∃ w first, f.Repetition w first := by
  rw [← firstDuplicate?_eq_none_iff, ← ne_eq, Option.ne_none_iff_exists']
  simp only [Prod.exists, firstDuplicate?_eq_some_iff]

end Forest
end WidgetScript
