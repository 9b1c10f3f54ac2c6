import WidgetScript.Proofs.Session.Run

/-! What producers put into a queue and a consumer takes out of it, over any sequence of calls.
Dispatches leave in the order in which they were accepted. A reload that waits takes over the
sources of those that come after it and keeps its own place, so that what is popped is as new as
can be. A shutdown is the last request to be accepted and the last to be popped. -/
namespace WidgetScript

def Request.event? : Request → Option Event
  | .dispatch event => some event
  | _ => none

def Request.source? : Request → Option String
  | .reload source => some source
  | _ => none

namespace Queue

inductive Call where
  | push (r : Request)
  | pop

/-- What a call comes to: a request is accepted or refused, or one is popped, if any waits. -/
inductive Act where
  | accept (r : Request)
  | refuse (r : Request)
  | pop (r : Request)
  | idle

def Act.call : Act → Call
  | .accept r | .refuse r => .push r
  | .pop _ | .idle => .pop

def Act.accepted? : Act → Option Request
  | .accept r => some r
  | _ => none

def Act.popped? : Act → Option Request
  | .pop r => some r
  | _ => none

/-- A call that is refused or finds nothing leaves the queue as it is. -/
def answer (q : Queue) : Call → Act × Queue
  | .push r =>
      match q.push? r with
      | some q' => (.accept r, q')
      | none => (.refuse r, q)
  | .pop =>
      match q.pop? with
      | some (r, q') => (.pop r, q')
      | none => (.idle, q)

def play (q : Queue) : List Call → List Act × Queue
  | [] => ([], q)
  | c :: cs =>
      let (a, q) := q.answer c
      let (as, q) := q.play cs
      (a :: as, q)

def accepted (past : List Act) : List Request := past.filterMap Act.accepted?

def popped (past : List Act) : List Request := past.filterMap Act.popped?

def events (rs : List Request) : List Event := rs.filterMap Request.event?

def sources (rs : List Request) : List String := rs.filterMap Request.source?

/-- Each reload that was accepted has been followed by the pop of one. -/
def Settled (past : List Act) : Prop :=
  ∀ before source after, past = before ++ .accept (.reload source) :: after →
    ∃ source', .pop (.reload source') ∈ after

/-- A reload of this source, with those dispatches ahead of it that have not been popped, stands
for all reloads that were accepted since one was popped last. It has the newest of their sources
and the place of the oldest. -/
def StandsFor (past : List Act) (source : String) (ahead : List Event) : Prop :=
  ∃ before first between, past = before ++ .accept (.reload first) :: between ∧
    Settled before ∧ (∀ source', .pop (.reload source') ∉ between) ∧
    (sources (accepted past)).getLast? = some source ∧
    events (popped past) ++ ahead = events (accepted before)

/-- What the calls came to, and the queue that they led to. Nothing was lost, doubled or out of
order, a push was refused only after a shutdown, and a pop found nothing only when all that had been
accepted was popped. -/
structure Orderly (calls : List Call) (past : List Act) (q : Queue) : Prop where
  answers : past.map Act.call = calls
  single : (sources q.waiting).length ≤ 1
  inOrder : events (popped past) ++ events q.waiting = events (accepted past)
  newest : ∀ before source after, past = before ++ .pop (.reload source) :: after →
    StandsFor before source []
  /-- A reload that was accepted is popped with its own source or a later one, or still waits. -/
  answered : ∀ before source after, past = before ++ .accept (.reload source) :: after →
    (∃ source', .reload source' ∈ q.waiting) ∨
    ∃ between source' rest, after = between ++ .pop (.reload source') :: rest ∧
      (source' = source ∨ .accept (.reload source') ∈ between)
  refused : ∀ before r after, past = before ++ .refuse r :: after → .accept .shutdown ∈ before
  idle : ∀ before after, past = before ++ .idle :: after →
    events (popped before) = events (accepted before) ∧ Settled before ∧
      (.accept .shutdown ∈ before → .pop .shutdown ∈ before)
  /-- After a shutdown nothing more is accepted. -/
  closed : ∀ before after, past = before ++ .accept .shutdown :: after →
    (∀ r, q.push? r = none) ∧ ∀ r, .accept r ∉ after
  /-- A shutdown is popped when nothing else is left, and nothing is popped after it. -/
  last : ∀ before after, past = before ++ .pop .shutdown :: after →
    events (popped before) = events (accepted past) ∧ Settled before ∧ q.waiting = [] ∧
      ∀ r, .accept r ∉ after ∧ .pop r ∉ after
  /-- Between the two, any session that drains the queue handles all dispatches that were not popped
  and leaves nothing behind. -/
  run : .accept .shutdown ∈ past → .pop .shutdown ∉ past → ∀ (s : Session) (now : Nat),
    ∃ rs t es, q.waiting = rs ++ [.shutdown] ∧
      events (popped past) ++ events rs = events (accepted past) ∧
      s.Handles now rs t es ∧ s.drain now q = (t, ⟨[], true⟩, es)

/-- All that a call can come to. -/
inductive Turn : Queue → Act → Queue → Prop where
  | placed {rs : List Request} {source : String} :
      sources rs = [] → Turn ⟨rs, false⟩ (.accept (.reload source)) ⟨rs ++ [.reload source], false⟩
  | replaced {before after : List Request} {old source : String} :
      sources before = [] →
      Turn ⟨before ++ .reload old :: after, false⟩ (.accept (.reload source))
        ⟨before ++ .reload source :: after, false⟩
  | lined {rs : List Request} {event : Event} :
      Turn ⟨rs, false⟩ (.accept (.dispatch event)) ⟨rs ++ [.dispatch event], false⟩
  | shut {rs : List Request} : Turn ⟨rs, false⟩ (.accept .shutdown) ⟨rs ++ [.shutdown], true⟩
  | refused {rs : List Request} {r : Request} : Turn ⟨rs, true⟩ (.refuse r) ⟨rs, true⟩
  | popped {r : Request} {rs : List Request} {closed : Bool} :
      Turn ⟨r :: rs, closed⟩ (.pop r) ⟨rs, closed⟩
  | idle {closed : Bool} : Turn ⟨[], closed⟩ .idle ⟨[], closed⟩

inductive Turns : Queue → List Act → Queue → Prop where
  | nil {q : Queue} : Turns q [] q
  | cons {q q' q'' : Queue} {a : Act} {as : List Act} :
      Turn q a q' → Turns q' as q'' → Turns q (a :: as) q''

variable {q q' : Queue} {a : Act} {as bs past before after : List Act} {r : Request}
  {between : List Act} {rs : List Request} {source source' : String} {ahead ahead' : List Event}

theorem supersede?_cons_of_none (h : r.source? = none) :
    supersede? source (r :: rs) = (supersede? source rs).map (r :: ·) := by
  cases r with
  | reload old => exact nomatch h
  | dispatch event => rfl
  | shutdown => rfl

theorem supersede?_cases (source : String) (rs : List Request) :
    (supersede? source rs = none ∧ sources rs = []) ∨
      ∃ before old after, rs = before ++ .reload old :: after ∧ sources before = [] ∧
        supersede? source rs = some (before ++ .reload source :: after) := by
  induction rs with
  | nil => exact .inl ⟨rfl, rfl⟩
  | cons r rs ih =>
    cases h : r.source? with
    | none =>
      have skip (rs : List Request) : sources (r :: rs) = sources rs := List.filterMap_cons_none h
      rw [supersede?_cons_of_none h, skip]
      rcases ih with ⟨none, empty⟩ | ⟨before, old, after, rfl, empty, found⟩
      · exact .inl ⟨by rw [none, Option.map_none], empty⟩
      · exact .inr ⟨r :: before, old, after, rfl, (skip before).trans empty, by rw [found]; rfl⟩
    | some old =>
      cases r with
      | reload old => exact .inr ⟨[], old, rs, rfl, rfl, rfl⟩
      | dispatch event => exact nomatch h
      | shutdown => exact nomatch h

theorem answer_turn (q : Queue) (c : Call) : Turn q (q.answer c).1 (q.answer c).2 := by
  obtain ⟨rs, closed⟩ := q
  cases c with
  | pop =>
    cases rs with
    | nil => exact .idle
    | cons r rs => exact .popped
  | push r =>
    cases closed with
    | true => exact .refused
    | false =>
      cases r with
      | dispatch event => exact .lined
      | shutdown => exact .shut
      | reload source =>
        rcases supersede?_cases source rs with
          ⟨none, empty⟩ | ⟨before, old, after, rfl, empty, found⟩
        · simp only [answer, push?, none, Option.getD_none]
          exact .placed empty
        · simp only [answer, push?, found, Option.getD_some]
          exact .replaced empty

theorem call_answer (q : Queue) (c : Call) : (q.answer c).1.call = c := by
  cases c with
  | push r =>
    rw [answer]
    split <;> rfl
  | pop =>
    rw [answer]
    split <;> rfl

theorem map_call_play (q : Queue) (cs : List Call) : (q.play cs).1.map Act.call = cs := by
  induction cs generalizing q with
  | nil => rfl
  | cons c cs ih => exact congrArg₂ List.cons (q.call_answer c) (ih _)

theorem play_turns (q : Queue) (cs : List Call) : Turns q (q.play cs).1 (q.play cs).2 := by
  induction cs generalizing q with
  | nil => exact .nil
  | cons c cs ih => exact .cons (q.answer_turn c) (ih _)

theorem Turns.of_append (h : Turns q (as ++ bs) q') : ∃ m, Turns q as m ∧ Turns m bs q' := by
  induction as generalizing q with
  | nil => exact ⟨q, .nil, h⟩
  | cons a as ih =>
    obtain _ | ⟨turn, rest⟩ := h
    obtain ⟨m, first, second⟩ := ih rest
    exact ⟨m, .cons turn first, second⟩

theorem Turn.of_closed (h : Turn ⟨rs, true⟩ a q') :
    (∃ r, a = .refuse r ∧ q' = ⟨rs, true⟩) ∨ (rs = [] ∧ a = .idle ∧ q' = ⟨[], true⟩) ∨
      ∃ r rest, rs = r :: rest ∧ a = .pop r ∧ q' = ⟨rest, true⟩ := by
  generalize eq : (⟨rs, true⟩ : Queue) = q at h
  cases h with
  | refused =>
    cases eq
    exact .inl ⟨_, rfl, rfl⟩
  | idle =>
    cases eq
    exact .inr (.inl ⟨rfl, rfl, rfl⟩)
  | popped =>
    cases eq
    exact .inr (.inr ⟨_, _, rfl, rfl, rfl⟩)
  | placed | replaced | lined | shut => exact nomatch congrArg Queue.closed eq

theorem Turns.closed (h : Turns ⟨rs, true⟩ as q') :
    q'.closed = true ∧ ∀ r, .accept r ∉ as := by
  induction as generalizing rs with
  | nil =>
    cases h
    exact ⟨rfl, by simp⟩
  | cons a as ih =>
    obtain _ | ⟨turn, rest⟩ := h
    rcases turn.of_closed with ⟨_, rfl, rfl⟩ | ⟨_, rfl, rfl⟩ | ⟨_, _, _, rfl, rfl⟩
    all_goals simpa using ih rest

theorem Turns.drained (h : Turns ⟨[], true⟩ as q') :
    q'.waiting = [] ∧ ∀ r, .pop r ∉ as := by
  induction as with
  | nil =>
    cases h
    exact ⟨rfl, by simp⟩
  | cons a as ih =>
    obtain _ | ⟨turn, rest⟩ := h
    rcases turn.of_closed with ⟨_, rfl, rfl⟩ | ⟨_, rfl, rfl⟩ | ⟨_, _, none, _⟩
    · simpa using ih rest
    · simpa using ih rest
    · exact nomatch none

theorem snoc_eq_split {α : Type} {past before after : List α} {a x : α}
    (h : past ++ [a] = before ++ x :: after) :
    (past = before ∧ a = x ∧ after = []) ∨
      ∃ after', past = before ++ x :: after' ∧ after = after' ++ [a] := by
  rcases List.eq_nil_or_concat after with rfl | ⟨after', b, rfl⟩
  · obtain ⟨rfl, last⟩ := List.append_inj' h rfl
    exact .inl ⟨rfl, List.singleton_injective last, rfl⟩
  · rw [List.concat_eq_append, ← List.cons_append, ← List.append_assoc] at h
    obtain ⟨rfl, last⟩ := List.append_inj' h rfl
    exact .inr ⟨after', rfl, by rw [List.concat_eq_append, List.singleton_injective last]⟩

theorem settled_nil : Settled [] := by
  intro before source after h
  simp at h

theorem Settled.snoc (h : Settled past) (other : ∀ source, a ≠ .accept (.reload source)) :
    Settled (past ++ [a]) := by
  intro before source after split
  rcases snoc_eq_split split with ⟨_, rfl, _⟩ | ⟨after', rfl, rfl⟩
  · exact absurd rfl (other source)
  · obtain ⟨source', mem⟩ := h before source after' rfl
    exact ⟨source', List.mem_append_left _ mem⟩

theorem settled_pop (past : List Act) (source : String) :
    Settled (past ++ [.pop (.reload source)]) := by
  intro before source' after split
  rcases snoc_eq_split split with ⟨_, h, _⟩ | ⟨after', rfl, rfl⟩
  · exact nomatch h
  · exact ⟨source, by simp⟩

@[simp] theorem events_nil : events [] = [] := rfl

@[simp] theorem events_reload : events (.reload source :: rs) = events rs := rfl

@[simp] theorem events_shutdown : events (.shutdown :: rs) = events rs := rfl

@[simp] theorem sources_reload : sources (.reload source :: rs) = source :: sources rs := rfl

theorem accepted_append : accepted (as ++ bs) = accepted as ++ accepted bs :=
  List.filterMap_append

@[simp] theorem accepted_snoc : accepted (past ++ [a]) = accepted past ++ a.accepted?.toList := by
  cases a <;> simp [accepted, Act.accepted?]

@[simp] theorem popped_snoc : popped (past ++ [a]) = popped past ++ a.popped?.toList := by
  cases a <;> simp [popped, Act.popped?]

@[simp] theorem events_append (rs rs' : List Request) :
    events (rs ++ rs') = events rs ++ events rs' := List.filterMap_append

@[simp] theorem sources_append (rs rs' : List Request) :
    sources (rs ++ rs') = sources rs ++ sources rs' := List.filterMap_append

theorem StandsFor.snoc (h : StandsFor past source ahead)
    (other : ∀ source, a ≠ .pop (.reload source))
    (newest : (sources (accepted (past ++ [a]))).getLast? = some source')
    (place : events (popped (past ++ [a])) ++ ahead' = events (popped past) ++ ahead) :
    StandsFor (past ++ [a]) source' ahead' := by
  obtain ⟨before, first, between, rfl, settled, waits, _, ahead⟩ := h
  refine ⟨before, first, between ++ [a], by simp, settled, ?_, newest, place.trans ahead⟩
  intro source mem
  rcases List.mem_append.1 mem with mem | mem
  · exact waits source mem
  · exact other source (List.mem_singleton.1 mem).symm

/-- The reload that waits, if there is one, stands for all that came since the last was popped. -/
inductive Reloading (past : List Act) : List Request → Prop where
  | clear {rs : List Request} : sources rs = [] → Settled past → Reloading past rs
  | due {before after : List Request} {source : String} :
      sources before = [] → sources after = [] → StandsFor past source (events before) →
      Reloading past (before ++ .reload source :: after)

/-- A shutdown waits behind everything else, from when it is accepted until it is popped. -/
structure Closing (past : List Act) (q : Queue) : Prop where
  opened : q.closed = false →
    .shutdown ∉ q.waiting ∧ .accept .shutdown ∉ past ∧ .pop .shutdown ∉ past
  shut : q.closed = true → .accept .shutdown ∈ past
  closed : q.closed = true →
    (.pop .shutdown ∉ past ∧ ∃ rs, q.waiting = rs ++ [.shutdown] ∧ .shutdown ∉ rs) ∨
      .pop .shutdown ∈ past ∧ q.waiting = []

structure Kept (past : List Act) (q : Queue) : Prop where
  inOrder : events (popped past) ++ events q.waiting = events (accepted past)
  reload : Reloading past q.waiting
  closing : Closing past q

theorem kept_empty : Kept [] .empty where
  inOrder := rfl
  reload := .clear rfl settled_nil
  closing := ⟨fun _ => by simp [empty], nofun, nofun⟩

theorem Reloading.other (h : Reloading past rs) (brought : List Request)
    (mute : sources brought = []) (quiet : sources a.accepted?.toList = [])
    (still : a.popped? = none) : Reloading (past ++ [a]) (rs ++ brought) := by
  cases h with
  | clear empty settled =>
    refine .clear ?_ (settled.snoc ?_)
    · rw [sources_append, empty, mute, List.append_nil]
    · rintro source rfl
      exact nomatch quiet
  | @due before after source empty behind stands =>
    rw [List.append_assoc, List.cons_append]
    refine .due empty ?_ (stands.snoc ?_ ?_ ?_)
    · rw [sources_append, behind, mute, List.append_nil]
    · rintro source rfl
      exact nomatch still
    · obtain ⟨_, _, _, _, _, _, newest, _⟩ := stands
      rw [accepted_snoc, sources_append, quiet, List.append_nil, newest]
    · rw [popped_snoc, still, Option.toList_none, List.append_nil]

theorem sources_cons_eq_nil : sources (r :: rs) = [] ↔ r.source? = none ∧ sources rs = [] := by
  cases r <;> simp [sources, Request.source?]

theorem first_reload_unique {before after before' after' : List Request}
    (h : before ++ .reload source :: after = before' ++ .reload source' :: after')
    (empty : sources before = []) (empty' : sources before' = []) :
    before = before' ∧ source = source' ∧ after = after' := by
  induction before generalizing before' with
  | nil =>
    cases before' with
    | nil =>
      cases h
      exact ⟨rfl, rfl, rfl⟩
    | cons r rest =>
      cases h
      exact nomatch (sources_cons_eq_nil.1 empty').1
  | cons r rest ih =>
    cases before' with
    | nil =>
      cases h
      exact nomatch (sources_cons_eq_nil.1 empty).1
    | cons r' rest' =>
      obtain ⟨rfl, tail⟩ := List.cons.inj h
      obtain ⟨rfl, same⟩ := ih tail (sources_cons_eq_nil.1 empty).2 (sources_cons_eq_nil.1 empty').2
      exact ⟨rfl, same⟩

theorem Reloading.settled (h : Reloading past rs) (empty : sources rs = []) : Settled past := by
  cases h with
  | clear _ settled => exact settled
  | due => simp at empty

theorem Reloading.placed (h : Reloading past rs) (empty : sources rs = [])
    (inOrder : events (popped past) ++ events rs = events (accepted past)) :
    Reloading (past ++ [.accept (.reload source)]) (rs ++ [.reload source]) := by
  refine .due empty rfl ⟨past, source, [], rfl, h.settled empty, by simp, ?_, ?_⟩
  · simp [sources, Act.accepted?, Request.source?]
  · simpa [Act.popped?] using inOrder

/-- A reload that finds one waiting has its place and stands also for what that one stood for. -/
theorem Reloading.replaced {before after : List Request} {old : String}
    (h : Reloading past (before ++ .reload old :: after)) (empty : sources before = []) :
    Reloading (past ++ [.accept (.reload source)]) (before ++ .reload source :: after) := by
  generalize eq : before ++ .reload old :: after = rs at h
  cases h with
  | clear none _ => simp [← eq, sources, Request.source?] at none
  | due empty' behind stands =>
    obtain ⟨rfl, rfl, rfl⟩ := first_reload_unique eq empty empty'
    refine .due empty behind (stands.snoc nofun ?_ ?_)
    · simp [sources, Act.accepted?, Request.source?]
    · simp [Act.popped?]

theorem Reloading.popped (h : Reloading past (r :: rs)) : Reloading (past ++ [.pop r]) rs := by
  generalize eq : r :: rs = all at h
  cases h with
  | clear none settled =>
    subst eq
    exact .clear (sources_cons_eq_nil.1 none).2 (settled.snoc nofun)
  | @due before after source empty behind stands =>
    cases before with
    | nil =>
      cases eq
      exact .clear behind (settled_pop past source)
    | cons first before =>
      cases eq
      obtain ⟨mute, empty⟩ := sources_cons_eq_nil.1 empty
      refine .due empty behind (stands.snoc ?_ ?_ ?_)
      · rintro source ⟨⟩
        exact nomatch mute
      · obtain ⟨_, _, _, _, _, _, newest, _⟩ := stands
        simpa [Act.accepted?] using newest
      · rw [popped_snoc, events_append, List.append_assoc, ← events_append]
        rfl

theorem Closing.turn (h : Closing past q) (turn : Turn q a q') : Closing (past ++ [a]) q' := by
  obtain ⟨opened, shut, closed⟩ := h
  have stays (eq : q.closed = true) : .accept .shutdown ∈ past ++ [a] :=
    List.mem_append_left _ (shut eq)
  cases turn with
  | placed | replaced | lined =>
    refine ⟨fun _ => ?_, nofun, nofun⟩
    simpa using opened rfl
  | shut =>
    obtain ⟨waits, _, fresh⟩ := opened rfl
    exact ⟨nofun, fun _ => by simp, fun _ => .inl ⟨by simpa using fresh, _, rfl, waits⟩⟩
  | refused =>
    refine ⟨nofun, stays, fun _ => ?_⟩
    simpa using closed rfl
  | idle =>
    refine ⟨fun eq => ?_, stays, fun eq => ?_⟩
    · simpa using opened eq
    · simpa using closed eq
  | @popped r rs _ =>
    refine ⟨fun eq => ?_, stays, fun eq => ?_⟩
    · obtain ⟨waits, fresh, fresh'⟩ := opened eq
      obtain ⟨other, later⟩ := List.ne_and_not_mem_of_not_mem_cons waits
      exact ⟨later, by simpa using fresh, by simpa using ⟨fresh', other⟩⟩
    · rcases closed eq with ⟨fresh, before, waiting, waits⟩ | ⟨_, none⟩
      · cases before with
        | nil =>
          obtain ⟨rfl, rfl⟩ := List.cons.inj waiting
          exact .inr ⟨by simp, rfl⟩
        | cons first before =>
          obtain ⟨rfl, rest⟩ := List.cons.inj waiting
          obtain ⟨other, later⟩ := List.ne_and_not_mem_of_not_mem_cons waits
          exact .inl ⟨by simpa using ⟨fresh, other⟩, before, rest, later⟩
      · exact nomatch none

theorem Kept.turn (kept : Kept past q) (turn : Turn q a q') : Kept (past ++ [a]) q' := by
  obtain ⟨inOrder, reload, closing⟩ := kept
  refine ⟨?_, ?_, closing.turn turn⟩
  · cases turn with
    | lined => simp [Act.popped?, Act.accepted?, ← inOrder]
    | placed | replaced | shut | refused | idle => simpa [Act.popped?, Act.accepted?] using inOrder
    | @popped r rs _ =>
      rw [popped_snoc, events_append, List.append_assoc, ← events_append]
      simpa [Act.popped?, Act.accepted?] using inOrder
  · cases turn with
    | placed empty => exact reload.placed empty inOrder
    | replaced empty => exact reload.replaced empty
    | popped => exact reload.popped
    | lined => exact reload.other [.dispatch _] rfl rfl rfl
    | shut => exact reload.other [.shutdown] rfl rfl rfl
    | refused => simpa using reload.other [] rfl rfl rfl
    | idle => simpa using reload.other [] rfl rfl rfl

theorem Kept.turns (kept : Kept past q) (turns : Turns q as q') : Kept (past ++ as) q' := by
  induction turns generalizing past with
  | nil => simpa using kept
  | cons turn _ ih => simpa using ih (kept.turn turn)

theorem Kept.standsFor (kept : Kept past q) (turn : Turn q (.pop (.reload source)) q') :
    StandsFor past source [] := by
  obtain _ | _ | _ | _ | _ | @⟨_, rs, _⟩ := turn
  have reload := kept.reload
  generalize eq : Request.reload source :: rs = all at reload
  cases reload with
  | clear empty _ =>
    subst eq
    exact nomatch empty
  | @due before after source' empty behind stands =>
    have ahead : [] ++ .reload source :: rs = before ++ .reload source' :: after := eq
    obtain ⟨rfl, rfl, _⟩ := first_reload_unique ahead rfl empty
    exact stands

theorem Closing.popped (h : Closing past q) (turn : Turn q (.pop .shutdown) q') :
    q = ⟨[.shutdown], true⟩ ∧ q' = ⟨[], true⟩ := by
  obtain ⟨opened, _, closed⟩ := h
  obtain _ | _ | _ | _ | _ | @⟨_, rs, last⟩ := turn
  cases last with
  | false => exact absurd List.mem_cons_self (opened rfl).1
  | true =>
    rcases closed rfl with ⟨_, before, waiting, waits⟩ | ⟨_, empty⟩
    · cases before with
      | nil =>
        cases waiting
        exact ⟨rfl, rfl⟩
      | cons first before =>
        cases waiting
        exact absurd List.mem_cons_self waits
    · exact nomatch empty

theorem Kept.idle {closed : Bool} (kept : Kept past ⟨[], closed⟩) :
    events (popped past) = events (accepted past) ∧ Settled past ∧
      (.accept .shutdown ∈ past → .pop .shutdown ∈ past) := by
  obtain ⟨inOrder, reload, ⟨opened, _, shut⟩⟩ := kept
  refine ⟨by simpa using inOrder, reload.settled rfl, fun accepted => ?_⟩
  cases closed with
  | false => exact absurd accepted (opened rfl).2.1
  | true =>
    rcases shut rfl with ⟨_, rs, waiting, _⟩ | ⟨popped, _⟩
    · simp at waiting
    · exact popped

theorem Kept.single (kept : Kept past q) : (sources q.waiting).length ≤ 1 := by
  have reload := kept.reload
  generalize q.waiting = rs at reload
  cases reload with
  | clear empty _ => simp [empty]
  | due empty behind _ => simp [empty, behind]

theorem Turns.at (h : Turns .empty (before ++ a :: after) q) :
    ∃ m m', Kept before m ∧ Turn m a m' ∧ Turns m' after q := by
  obtain ⟨m, first, second⟩ := h.of_append
  obtain _ | ⟨turn, rest⟩ := second
  exact ⟨m, _, by simpa using kept_empty.turns first, turn, rest⟩

theorem mem_sources_accepted :
    source ∈ sources (accepted past) ↔ .accept (.reload source) ∈ past := by
  simp only [sources, accepted, List.mem_filterMap]
  constructor
  · rintro ⟨r, ⟨a, mem, ha⟩, hr⟩
    cases a with
    | accept r' =>
      cases ha
      cases r with
      | reload source' =>
        cases hr
        exact mem
      | dispatch | shutdown => exact nomatch hr
    | refuse | pop | idle => exact nomatch ha
  · intro mem
    exact ⟨_, ⟨_, mem, rfl⟩, rfl⟩

theorem accepted_eq_nil (h : ∀ r, .accept r ∉ as) : accepted as = [] := by
  rw [accepted, List.filterMap_eq_nil_iff]
  intro a mem
  cases a with
  | accept r => exact absurd mem (h r)
  | refuse | pop | idle => rfl

theorem StandsFor.newer
    (h : StandsFor (before ++ .accept (.reload source) :: between) source' ahead) :
    source' = source ∨ .accept (.reload source') ∈ between := by
  obtain ⟨_, _, _, _, _, _, newest, _⟩ := h
  have split : sources (accepted (before ++ .accept (.reload source) :: between)) =
      sources (accepted before) ++ source :: sources (accepted between) := by
    simp [accepted, sources, Act.accepted?, Request.source?]
  rw [split, List.getLast?_append_of_ne_nil _ (List.cons_ne_nil _ _)] at newest
  rcases List.mem_cons.1 (List.mem_of_getLast? newest) with rfl | later
  · exact .inl rfl
  · exact .inr (mem_sources_accepted.1 later)

theorem Turns.answered (turns : Turns .empty (before ++ .accept (.reload source) :: after) q) :
    (∃ source', .reload source' ∈ q.waiting) ∨
      ∃ between source' rest, after = between ++ .pop (.reload source') :: rest ∧
        (source' = source ∨ .accept (.reload source') ∈ between) := by
  have kept : Kept _ q := kept_empty.turns turns
  have reload := kept.reload
  generalize q.waiting = rs at reload
  cases reload with
  | due _ _ _ => exact .inl ⟨_, List.mem_append_right _ List.mem_cons_self⟩
  | clear _ settled =>
    -- None waits, so one was popped behind it, and that one is as new as what it stands for.
    obtain ⟨source', popped⟩ := settled before source after rfl
    obtain ⟨between, rest, rfl⟩ := List.append_of_mem popped
    rw [← List.cons_append, ← List.append_assoc] at turns
    obtain ⟨m, m', earlier, turn, _⟩ := turns.at
    exact .inr ⟨between, source', rest, rfl, (earlier.standsFor turn).newer⟩

theorem Turns.last (turns : Turns .empty (before ++ .pop .shutdown :: after) q) :
    events (popped before) = events (accepted (before ++ .pop .shutdown :: after)) ∧
      Settled before ∧ q.waiting = [] ∧ ∀ r, .accept r ∉ after ∧ .pop r ∉ after := by
  obtain ⟨m, m', earlier, turn, later⟩ := turns.at
  obtain ⟨rfl, rfl⟩ := earlier.closing.popped turn
  obtain ⟨waiting, none⟩ := later.drained
  obtain ⟨_, refused⟩ := later.closed
  refine ⟨?_, earlier.reload.settled rfl, waiting, fun r => ⟨refused r, none r⟩⟩
  have last : accepted (.pop .shutdown :: after) = [] := accepted_eq_nil (by simpa using refused)
  rw [accepted_append, last, List.append_nil, ← earlier.inOrder, events_shutdown, events_nil,
    List.append_nil]

theorem Kept.drain (kept : Kept past q) (shut : .accept .shutdown ∈ past)
    (waits : .pop .shutdown ∉ past) (s : Session) (now : Nat) :
    ∃ rs t es, q.waiting = rs ++ [.shutdown] ∧
      events (popped past) ++ events rs = events (accepted past) ∧
      s.Handles now rs t es ∧ s.drain now q = (t, ⟨[], true⟩, es) := by
  obtain ⟨waiting, closed⟩ := q
  cases closed with
  | false => exact absurd shut (kept.closing.opened rfl).2.1
  | true =>
    rcases kept.closing.closed rfl with ⟨_, rs, rfl, other⟩ | ⟨popped, _⟩
    · obtain ⟨t, es, handles⟩ := s.exists_handles now other
      refine ⟨rs, t, es, rfl, ?_, handles, (handles.drain true).2 []⟩
      simpa using kept.inOrder
    · exact absurd popped waits

/-- Whatever calls are made on a new queue, what they come to is orderly. -/
theorem play_orderly (cs : List Call) : Orderly cs (empty.play cs).1 (empty.play cs).2 := by
  have answers := empty.map_call_play cs
  have turns := empty.play_turns cs
  generalize (empty.play cs).1 = past at answers turns ⊢
  generalize (empty.play cs).2 = q at turns ⊢
  have kept : Kept past q := kept_empty.turns turns
  constructor
  case answers => exact answers
  case single => exact kept.single
  case inOrder => exact kept.inOrder
  case newest =>
    rintro before source after rfl
    obtain ⟨m, m', earlier, turn, _⟩ := turns.at
    exact earlier.standsFor turn
  case answered =>
    rintro before source after rfl
    exact turns.answered
  case refused =>
    rintro before r after rfl
    obtain ⟨m, m', earlier, turn, _⟩ := turns.at
    obtain _ | _ | _ | _ | _ := turn
    exact earlier.closing.shut rfl
  case idle =>
    rintro before after rfl
    obtain ⟨m, m', earlier, turn, _⟩ := turns.at
    obtain _ | _ | _ | _ | _ | _ | _ := turn
    exact earlier.idle
  case closed =>
    rintro before after rfl
    obtain ⟨m, m', _, turn, later⟩ := turns.at
    obtain _ | _ | _ | _ := turn
    obtain ⟨closed, none⟩ := later.closed
    exact ⟨fun r => by simp [push?, closed], none⟩
  case last =>
    rintro before after rfl
    exact turns.last
  case run => exact kept.drain

end Queue
end WidgetScript
