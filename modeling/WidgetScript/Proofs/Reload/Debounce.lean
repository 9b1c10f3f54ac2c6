import Mathlib.Data.List.Basic
import Mathlib.Data.List.Induction
import Mathlib.Order.Basic
import WidgetScript.Reload.Debounce

/-! Which polls fire. The deadline is all that is stored of what came before, and it tells the
whole of it: a poll fires if a touch is still unanswered and the latest touch is a quiet period
old. -/
namespace WidgetScript.Debounce

inductive Call where
  | touch (now : Nat)
  | poll (now : Nat)

def Call.now : Call → Nat
  | .touch now | .poll now => now

inductive Act where
  | touched (now : Nat)
  | polled (now : Nat) (fired : Bool)
deriving DecidableEq

def Act.touch? : Act → Option Nat
  | .touched now => some now
  | .polled _ _ => none

def answer (d : Debounce) : Call → Act × Debounce
  | .touch now => (.touched now, d.touch now)
  | .poll now => (.polled now (d.poll now).1, (d.poll now).2)

def play (d : Debounce) : List Call → List Act × Debounce
  | [] => ([], d)
  | c :: cs =>
      let (a, d) := d.answer c
      let (as, d) := d.play cs
      (a :: as, d)

def touches (past : List Act) : List Nat := past.filterMap Act.touch?

/-- A touch has the place `i`, and no poll behind it has fired. -/
def Unanswered (past : List Act) (i : Nat) : Prop :=
  (∃ now, past[i]? = some (.touched now)) ∧
    ∀ (k : Nat) now, i < k → past[k]? ≠ some (.polled now true)

/-- The poll in the place `j` fires, and is the first to do so after the touch in the place `i`. -/
def Covers (past : List Act) (i j : Nat) : Prop :=
  Unanswered (past.take j) i ∧ ∃ now, past[j]? = some (.polled now true)

/-- A touch is unanswered, and the latest of all touches is a quiet period old. -/
def Due (quiet : Nat) (past : List Act) (now : Nat) : Prop :=
  (∃ i, Unanswered past i) ∧
    ∃ latest, (touches past).max? = some latest ∧ latest + quiet ≤ now

/-- A past that led to the debouncer, and in which those polls fired that were due. -/
structure Debounced (quiet : Nat) (past : List Act) (d : Debounce) : Prop where
  fires : ∀ (j : Nat) now fired, past[j]? = some (.polled now fired) →
    (fired = true ↔ Due quiet (past.take j) now)
  /-- Between two polls that fire there is a touch. -/
  between : ∀ (j k : Nat) now later, j < k → past[j]? = some (.polled now true) →
    past[k]? = some (.polled later true) →
    ∃ (i : Nat) (t : Nat), j < i ∧ i < k ∧ past[i]? = some (.touched t)
  once : ∀ i j k, Covers past i j → Covers past i k → j = k
  /-- What remains is the time to the first poll that fires, if no touch comes before. -/
  remaining : ∀ now rest, d.remaining now = some rest →
    ∀ ts : List Nat, (∀ t ∈ ts, now ≤ t ∧ t < now + rest) →
      (d.play (ts.map .poll ++ [.poll (now + rest)])).1 =
        ts.map (Act.polled · false) ++ [.polled (now + rest) true]

section
variable {quiet now i j : Nat} {past before after : List Act} {a b : Act} {cs : List Call}
  {d : Debounce}

theorem play_append (d : Debounce) (cs more : List Call) :
    d.play (cs ++ more) =
      ((d.play cs).1 ++ ((d.play cs).2.play more).1, ((d.play cs).2.play more).2) := by
  induction cs generalizing d with
  | nil => rfl
  | cons c cs ih => simp only [List.cons_append, play, ih]

theorem of_play_eq (h : (d.play cs).1 = before ++ a :: after) :
    ∃ earlier c later, cs = earlier ++ c :: later ∧ (d.play earlier).1 = before ∧
      ((d.play earlier).2.answer c).1 = a := by
  induction before generalizing d cs with
  | nil =>
    cases cs with
    | nil => exact nomatch h
    | cons c cs => exact ⟨[], c, cs, rfl, rfl, (List.cons.inj h).1⟩
  | cons b before ih =>
    cases cs with
    | nil => exact nomatch h
    | cons c cs =>
      obtain ⟨first, rest⟩ := List.cons.inj h
      obtain ⟨earlier, c', later, rfl, past, answered⟩ := ih rest
      exact ⟨c :: earlier, c', later, rfl, by rw [← first, ← past]; rfl, answered⟩

theorem mem_touches_play {t : Nat} (h : t ∈ touches (d.play cs).1) : ∃ c ∈ cs, c.now = t := by
  induction cs generalizing d with
  | nil => exact nomatch h
  | cons c cs ih =>
    obtain ⟨a, mem, touched⟩ := List.mem_filterMap.1 h
    rcases List.mem_cons.1 mem with rfl | mem
    · cases c with
      | touch now => exact ⟨_, List.mem_cons_self, Option.some.inj touched⟩
      | poll now => exact nomatch touched
    · obtain ⟨c', hc', same⟩ := ih (List.mem_filterMap.2 ⟨a, mem, touched⟩)
      exact ⟨c', List.mem_cons_of_mem _ hc', same⟩

theorem getElem?_snoc_eq_some_iff :
    (past ++ [a])[i]? = some b ↔ past[i]? = some b ∨ i = past.length ∧ a = b := by
  rcases Nat.lt_trichotomy i past.length with inside | rfl | outside
  · rw [List.getElem?_append_left inside]
    exact (or_iff_left fun last => Nat.ne_of_lt inside last.1).symm
  · simp
  · have beyond : (past ++ [a]).length ≤ i := by
      rwa [List.length_append, List.length_singleton]
    rw [List.getElem?_eq_none (Nat.le_of_lt outside), List.getElem?_eq_none beyond]
    exact iff_of_false nofun fun h => h.elim nofun fun last => Nat.ne_of_gt outside last.1

theorem lt_length (h : past[i]? = some a) : i < past.length :=
  (List.getElem?_eq_some_iff.1 h).1

theorem unanswered_snoc : Unanswered (past ++ [a]) i ↔
    (i = past.length ∧ ∃ now, a = .touched now) ∨
      Unanswered past i ∧ ∀ now, a ≠ .polled now true := by
  constructor
  · rintro ⟨⟨t, there⟩, silent⟩
    rcases getElem?_snoc_eq_some_iff.1 there with here | ⟨rfl, rfl⟩
    · refine .inr ⟨⟨⟨t, here⟩, fun k now behind fired => ?_⟩, ?_⟩
      · exact silent k now behind (getElem?_snoc_eq_some_iff.2 (.inl fired))
      · rintro now rfl
        exact silent past.length now (lt_length here)
          (getElem?_snoc_eq_some_iff.2 (.inr ⟨rfl, rfl⟩))
    · exact .inl ⟨rfl, t, rfl⟩
  · rintro (⟨rfl, t, rfl⟩ | ⟨⟨⟨t, here⟩, silent⟩, other⟩)
    · refine ⟨⟨t, getElem?_snoc_eq_some_iff.2 (.inr ⟨rfl, rfl⟩)⟩, fun k now behind fired => ?_⟩
      rcases getElem?_snoc_eq_some_iff.1 fired with fired | ⟨rfl, last⟩
      · exact Nat.lt_asymm behind (lt_length fired)
      · exact nomatch last
    · refine ⟨⟨t, getElem?_snoc_eq_some_iff.2 (.inl here)⟩, fun k now behind fired => ?_⟩
      rcases getElem?_snoc_eq_some_iff.1 fired with fired | ⟨-, last⟩
      · exact silent k now behind fired
      · exact other now last

/-- The deadline is set if a touch is unanswered, and then to the time from which a poll is due. -/
structure Kept (quiet : Nat) (past : List Act) (d : Debounce) : Prop where
  period : d.quiet = quiet
  deadline : ∀ deadline, d.deadline = some deadline ↔ (∃ i, Unanswered past i) ∧
    ∃ latest, (touches past).max? = some latest ∧ latest + quiet = deadline

theorem kept_start (quiet : Nat) : Kept quiet [] (start quiet) where
  period := rfl
  deadline _ := iff_of_false nofun fun ⟨⟨_, ⟨_, here⟩, _⟩, _⟩ => nomatch here

theorem poll_early {deadline : Nat} (set : d.deadline = some deadline) (early : now < deadline) :
    d.poll now = (false, d) := by
  rw [poll, set]
  exact if_neg (Nat.not_le_of_lt early)

theorem poll_late {deadline : Nat} (set : d.deadline = some deadline) (late : deadline ≤ now) :
    d.poll now = (true, { d with deadline := none }) := by
  rw [poll, set]
  exact if_pos late

theorem poll_cases (d : Debounce) (now : Nat) :
    (∃ deadline ≤ now, d.deadline = some deadline ∧
        d.poll now = (true, { d with deadline := none })) ∨
      (∀ deadline ≤ now, d.deadline ≠ some deadline) ∧ d.poll now = (false, d) := by
  cases set : d.deadline with
  | none => exact .inr ⟨nofun, by rw [poll, set]⟩
  | some deadline =>
    rcases Nat.lt_or_ge now deadline with early | late
    · refine .inr ⟨fun other passed same => ?_, poll_early set early⟩
      cases same
      exact Nat.not_le_of_lt early passed
    · exact .inl ⟨deadline, late, rfl, poll_late set late⟩

theorem Kept.fires_iff (kept : Kept quiet past d) (now : Nat) :
    (d.poll now).1 = true ↔ Due quiet past now := by
  rcases d.poll_cases now with ⟨deadline, late, set, polled⟩ | ⟨early, polled⟩
  · obtain ⟨waiting, latest, max, rfl⟩ := (kept.deadline deadline).1 set
    exact iff_of_true (congrArg Prod.fst polled) ⟨waiting, latest, max, late⟩
  · rw [polled]
    refine iff_of_false nofun fun ⟨waiting, latest, max, late⟩ => ?_
    exact early _ late ((kept.deadline _).2 ⟨waiting, latest, max, rfl⟩)

theorem touches_snoc : touches (past ++ [a]) = touches past ++ a.touch?.toList := by
  cases a <;> simp [touches, Act.touch?]

theorem max?_touches_touched (ordered : ∀ t ∈ touches past, t ≤ now) :
    (touches (past ++ [.touched now])).max? = some now := by
  rw [touches_snoc, List.max?_eq_some_iff]
  refine ⟨List.mem_append_right _ List.mem_cons_self, fun t ht => ?_⟩
  rcases List.mem_append.1 ht with ht | ht
  · exact ordered t ht
  · exact Nat.le_of_eq (List.mem_singleton.1 ht)

theorem Kept.answer (kept : Kept quiet past d) (c : Call)
    (ordered : ∀ t ∈ touches past, t ≤ c.now) :
    Kept quiet (past ++ [(d.answer c).1]) (d.answer c).2 := by
  cases c with
  | touch now =>
    refine ⟨kept.period, fun deadline => ?_⟩
    have waiting : ∃ i, Unanswered (past ++ [.touched now]) i :=
      ⟨_, unanswered_snoc.2 (.inl ⟨rfl, now, rfl⟩)⟩
    have newest : (touches (past ++ [.touched now])).max? = some now :=
      max?_touches_touched ordered
    change some (now + d.quiet) = some deadline ↔ (∃ i, Unanswered (past ++ [.touched now]) i) ∧
      ∃ latest, (touches (past ++ [.touched now])).max? = some latest ∧ _
    rw [newest, kept.period]
    simp [waiting]
  | poll now =>
    rw [Debounce.answer]
    rcases d.poll_cases now with ⟨deadline, -, -, polled⟩ | ⟨-, polled⟩
    · rw [polled]
      refine ⟨kept.period, fun _ => iff_of_false nofun fun ⟨⟨i, waiting⟩, _⟩ => ?_⟩
      rcases unanswered_snoc.1 waiting with ⟨_, _, touched⟩ | ⟨_, silent⟩
      · exact nomatch touched
      · exact silent now rfl
    · rw [polled]
      refine ⟨kept.period, fun deadline => ?_⟩
      have same (i : Nat) : Unanswered (past ++ [.polled now false]) i ↔ Unanswered past i := by
        simp [unanswered_snoc]
      simp only [same, touches_snoc, Act.touch?, Option.toList_none, List.append_nil]
      exact kept.deadline deadline

theorem play_kept (quiet : Nat) (ordered : cs.Pairwise fun a b => a.now ≤ b.now) :
    Kept quiet ((start quiet).play cs).1 ((start quiet).play cs).2 := by
  induction cs using List.reverseRecOn with
  | nil => exact kept_start quiet
  | append_singleton cs c ih =>
    obtain ⟨before, -, last⟩ := List.pairwise_append.1 ordered
    rw [play_append]
    refine (ih before).answer c fun t ht => ?_
    obtain ⟨earlier, mem, rfl⟩ := mem_touches_play ht
    exact last earlier mem c List.mem_cons_self

theorem play_fires (quiet : Nat) (ordered : cs.Pairwise fun a b => a.now ≤ b.now) {fired : Bool}
    (h : ((start quiet).play cs).1[j]? = some (.polled now fired)) :
    fired = true ↔ Due quiet (((start quiet).play cs).1.take j) now := by
  generalize past_eq : ((start quiet).play cs).1 = past at h ⊢
  obtain ⟨inside, here⟩ := List.getElem?_eq_some_iff.1 h
  have split := (List.take_append_getElem inside).symm
  rw [← List.take_append_drop j past, List.drop_eq_getElem_cons inside, here] at past_eq
  obtain ⟨earlier, c, later, rfl, before, answered⟩ := of_play_eq past_eq
  have kept := play_kept quiet (List.pairwise_append.1 ordered).1
  rw [before] at kept
  cases c with
  | touch => exact nomatch answered
  | poll =>
    cases answered
    exact kept.fires_iff now

theorem of_getElem?_take {k : Nat} (h : (past.take k)[i]? = some a) :
    i < k ∧ past[i]? = some a := by
  rw [List.getElem?_take] at h
  split at h
  next inside => exact ⟨inside, h⟩
  next => exact nomatch h

theorem touch_between {k later : Nat} (due : Due quiet (past.take k) later) (earlier : j < k)
    (fired : past[j]? = some (.polled now true)) :
    ∃ (i : Nat) (t : Nat), j < i ∧ i < k ∧ past[i]? = some (.touched t) := by
  obtain ⟨⟨i, ⟨t, touched⟩, silent⟩, -⟩ := due
  obtain ⟨inside, touched⟩ := of_getElem?_take touched
  refine ⟨i, t, ?_, inside, touched⟩
  rcases Nat.lt_trichotomy i j with before | rfl | behind
  · refine absurd ?_ (silent j now before)
    rwa [List.getElem?_take_of_lt earlier]
  · exact nomatch touched.symm.trans fired
  · exact behind

theorem Covers.not_later {k : Nat} (first : Covers past i j) (second : Covers past i k) :
    ¬ j < k := by
  intro later
  obtain ⟨⟨⟨t, touched⟩, -⟩, now, fired⟩ := first
  obtain ⟨⟨-, silent⟩, -⟩ := second
  refine silent j now (of_getElem?_take touched).1 ?_
  rwa [List.getElem?_take_of_lt later]

theorem remaining_eq_some (h : d.remaining now = some i) :
    ∃ deadline, d.deadline = some deadline ∧ i = deadline - now := by
  obtain ⟨deadline, set, rfl⟩ := Option.map_eq_some_iff.1 h
  exact ⟨deadline, set, rfl⟩

theorem play_polls {deadline : Nat} (set : d.deadline = some deadline) {ts : List Nat}
    (early : ∀ t ∈ ts, t < deadline) (late : deadline ≤ now) :
    (d.play (ts.map .poll ++ [.poll now])).1 =
      ts.map (Act.polled · false) ++ [.polled now true] := by
  induction ts with
  | nil =>
    change [Act.polled now (d.poll now).1] = _
    rw [poll_late set late]
    rfl
  | cons t ts ih =>
    obtain ⟨first, rest⟩ := List.forall_mem_cons.1 early
    rw [List.map_cons, List.cons_append, play, answer, poll_early set first]
    exact congrArg (Act.polled t false :: ·) (ih rest)

end

/-- In calls whose times do not go back, a poll fires if there has been a touch since one fired
and the latest touch is a quiet period old. -/
theorem play_debounced (quiet : Nat) {cs : List Call}
    (ordered : cs.Pairwise fun a b => a.now ≤ b.now) :
    Debounced quiet ((start quiet).play cs).1 ((start quiet).play cs).2 where
  fires _ _ _ h := play_fires quiet ordered h
  between _ _ _ _ earlier fired fired' :=
    touch_between ((play_fires quiet ordered fired').1 rfl) earlier fired
  once _ _ _ first second :=
    Nat.le_antisymm (Nat.not_lt.1 (second.not_later first)) (Nat.not_lt.1 (first.not_later second))
  remaining now rest h ts between := by
    obtain ⟨deadline, set, rfl⟩ := remaining_eq_some h
    refine play_polls set (fun t ht => ?_) (by omega)
    have inside := between t ht
    omega

/-- Two bursts; the first is polled before it is due, on time and once more, the second late. -/
def bursts : List Call :=
  [.touch 0, .touch 30, .touch 60, .poll 120, .poll 160, .poll 500, .touch 600, .poll 1000]

theorem play_debounced_bursts : (bursts.Pairwise fun a b => a.now ≤ b.now) ∧
    ((start 100).play bursts).1 =
      [.touched 0, .touched 30, .touched 60, .polled 120 false, .polled 160 true,
        .polled 500 false, .touched 600, .polled 1000 true] ∧
    Debounced 100 ((start 100).play bursts).1 ((start 100).play bursts).2 := by
  have ordered : bursts.Pairwise fun a b => a.now ≤ b.now := by decide
  exact ⟨ordered, by decide, play_debounced 100 ordered⟩

end WidgetScript.Debounce
