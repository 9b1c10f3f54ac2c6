import WidgetScript.Host
import WidgetScript.Proofs.Session.Queue

/-! What the status tells while a reload waits. Producers mark a change and push its reload later,
and the pipeline pops a reload, begins it and finishes it; the steps of the parties fall between
each other in any order. All of them share one status, so a pass that finishes also takes back the
marks whose reloads are still to come. -/
namespace WidgetScript

inductive Stage where
  | free
  | taken (source : String)
  | running (source : String)

/-- What producers and the pipeline share, and where each of them is. -/
structure Traffic where
  queue : Queue
  status : Status
  /-- The producers that have marked a change and not pushed its reload yet. -/
  marked : List Nat
  stage : Stage

namespace Traffic

def start (now : Nat) : Traffic := ⟨.empty, .start now, [], .free⟩

/-- The status shows that a reload is to come or under way. -/
def Busy (t : Traffic) : Prop := t.status.phase = .pending ∨ t.status.phase = .reloading

def Matches (t : Traffic) (h : Host) : Prop := t.queue = h.queue ∧ t.status = h.session.status

inductive Move where
  | mark (producer now : Nat)
  | push (producer : Nat) (source : String)
  | pop
  | begin (now : Nat)
  | succeed (now : Nat)
  | fail (error : ReloadError) (now : Nat)

def Move.producer? : Move → Option Nat
  | .mark p _ | .push p _ => some p
  | .pop | .begin _ | .succeed _ | .fail _ _ => none

def Move.Finishes : Move → Prop
  | .succeed _ | .fail _ _ => True
  | .mark _ _ | .push _ _ | .pop | .begin _ => False

/-- The moves on the queue leave the status as it is, and the other way around. -/
def Move.Queues : Move → Prop
  | .push _ _ | .pop => True
  | .mark _ _ | .begin _ | .succeed _ | .fail _ _ => False

/-- A producer pushes what it has marked before. The pipeline goes from stage to stage; how a pass
ends is left open. -/
inductive Moves : Traffic → Move → Traffic → Prop where
  | mark {t : Traffic} {p now : Nat} :
      Moves t (.mark p now) { t with status := t.status.markPending now, marked := p :: t.marked }
  | push {t : Traffic} {p : Nat} {source : String} {queue : Queue} :
      p ∈ t.marked → t.queue.push? (.reload source) = some queue →
      Moves t (.push p source) { t with queue, marked := t.marked.filter (· ≠ p) }
  | pop {t : Traffic} {source : String} {queue : Queue} :
      t.stage = .free → t.queue.pop? = some (.reload source, queue) →
      Moves t .pop { t with queue, stage := .taken source }
  | begin {t : Traffic} {source : String} {now : Nat} :
      t.stage = .taken source →
      Moves t (.begin now) { t with status := t.status.begin now, stage := .running source }
  | succeed {t : Traffic} {source : String} {now : Nat} :
      t.stage = .running source →
      Moves t (.succeed now) { t with status := t.status.succeed now, stage := .free }
  | fail {t : Traffic} {source : String} {error : ReloadError} {now : Nat} :
      t.stage = .running source →
      Moves t (.fail error now) { t with status := t.status.fail error now, stage := .free }

inductive Runs (t : Traffic) : List Move → Traffic → Prop where
  | nil : Runs t [] t
  | snoc {u v : Traffic} {past : List Move} {m : Move} :
      Runs t past u → Moves u m v → Runs t (past ++ [m]) v

/-- Of the moves that change the status, the last one finished a pass. -/
def Rested (past : List Move) : Prop :=
  ∃ before finish after, past = before ++ finish :: after ∧ finish.Finishes ∧ ∀ m ∈ after, m.Queues

def Marked (p : Nat) (past : List Move) : Prop :=
  ∃ before now after, past = before ++ .mark p now :: after ∧ ∀ m ∈ after, m.producer? ≠ some p

/-- The last move on the queue was a push of the source, by a producer that had just marked. -/
def Brought (source : String) (past : List Move) : Prop :=
  ∃ before p after, past = before ++ .push p source :: after ∧ Marked p before ∧
    ∀ m ∈ after, ¬ m.Queues

def Waits (past : List Move) (q : Queue) : Prop :=
  q = .empty ∨ ∃ source, q = ⟨[.reload source], false⟩ ∧ Brought source past

structure Kept (past : List Move) (t : Traffic) : Prop where
  marked : ∀ p ∈ t.marked, Marked p past
  waits : Waits past t.queue
  busy : ∀ before p now after, past = before ++ .mark p now :: after → (t.Busy ↔ ¬ Rested after)

variable {t u : Traffic} {m : Move} {past : List Move} {p now : Nat} {source : String} {h : Host}

theorem Runs.append {v : Traffic} {more : List Move} (first : Runs t past u)
    (second : Runs u more v) : Runs t (past ++ more) v := by
  induction second with
  | nil => simpa using first
  | snoc _ move ih =>
    rw [← List.append_assoc]
    exact ih.snoc move

theorem Matches.reload (same : t.Matches h) (opened : h.queue.closed = false) (p now : Nat)
    (source : String) :
    ∃ u, Runs t [.mark p now, .push p source] u ∧ u.Matches (h.reload (.ok source) now).1 := by
  obtain ⟨queue, status⟩ := same
  obtain ⟨q, pushed⟩ : ∃ q, h.queue.push? (.reload source) = some q := by simp [Queue.push?, opened]
  have marks : Runs t [.mark p now] _ := Runs.nil.snoc .mark
  refine ⟨_, marks.snoc (.push List.mem_cons_self (queue ▸ pushed)), ?_⟩
  simp [Matches, Host.reload, pushed, status]

/-- A host that lets its session handle a reload pops it, begins and finishes. -/
theorem Matches.settle (same : t.Matches h) (free : t.stage = .free)
    (waits : h.queue.waiting = [.reload source]) (now : Nat) :
    ∃ finish u, finish.Finishes ∧ Runs t [.pop, .begin now, finish] u ∧
      u.Matches (h.settle now).1 := by
  obtain ⟨queue, status⟩ := same
  have popped : t.queue.pop? = some (.reload source, ⟨[], h.queue.closed⟩) := by
    simp [queue, Queue.pop?, waits]
  have begun : Runs t [.pop, .begin now] _ := (Runs.nil.snoc (.pop free popped)).snoc (.begin rfl)
  have run : h.session.drain now h.queue = ((h.session.reload source now).1, ⟨[], h.queue.closed⟩,
      [(h.session.reload source now).2]) := by
    rw [show h.queue = ⟨[.reload source], h.queue.closed⟩ by rw [← waits]]
    exact (Session.Handles.reload .nil).drain _ |>.1
  cases load : h.session.load source with
  | mk outcome log =>
    cases outcome with
    | ok result =>
      refine ⟨.succeed now, _, trivial, begun.snoc (.succeed rfl), ?_⟩
      simp [Matches, Host.settle, run, Session.reload, load, status]
    | error e =>
      refine ⟨.fail e now, _, trivial, begun.snoc (.fail rfl), ?_⟩
      simp [Matches, Host.settle, run, Session.reload, load, status]

theorem marked_mark (p now : Nat) (past : List Move) : Marked p (past ++ [.mark p now]) :=
  ⟨past, now, [], rfl, by simp⟩

theorem Marked.snoc (h : Marked p past) (other : m.producer? ≠ some p) :
    Marked p (past ++ [m]) := by
  obtain ⟨before, now, after, rfl, quiet⟩ := h
  refine ⟨before, now, after ++ [m], by simp, ?_⟩
  simpa [or_imp, forall_and] using ⟨quiet, other⟩

theorem Brought.snoc (h : Brought source past) (other : ¬ m.Queues) :
    Brought source (past ++ [m]) := by
  obtain ⟨before, p, after, rfl, marked, quiet⟩ := h
  refine ⟨before, p, after ++ [m], by simp, marked, ?_⟩
  simpa [or_imp, forall_and] using ⟨quiet, other⟩

theorem not_rested_nil : ¬ Rested [] := by
  rintro ⟨before, finish, after, eq, _⟩
  simp at eq

theorem rested_snoc : Rested (past ++ [m]) ↔ m.Finishes ∨ m.Queues ∧ Rested past := by
  constructor
  · rintro ⟨before, finish, after, eq, finishes, quiet⟩
    rcases Queue.snoc_eq_split eq with ⟨rfl, rfl, rfl⟩ | ⟨after, rfl, rfl⟩
    · exact .inl finishes
    · have last : m.Queues := quiet m (by simp)
      have earlier : ∀ m' ∈ after, m'.Queues := fun m' mem => quiet m' (by simp [mem])
      exact .inr ⟨last, before, finish, after, rfl, finishes, earlier⟩
  · rintro (finishes | ⟨queues, before, finish, after, rfl, finishes, quiet⟩)
    · exact ⟨past, m, [], rfl, finishes, by simp⟩
    · refine ⟨before, finish, after ++ [m], by simp, finishes, ?_⟩
      simpa [or_imp, forall_and] using ⟨quiet, queues⟩

/-- Whatever the status was, a mark or a begin shows a reload and a finish shows none. -/
theorem Moves.busy_iff (move : Moves t m u) : u.Busy ↔ ¬ m.Finishes ∧ (m.Queues → t.Busy) := by
  cases move with
  | mark =>
    by_cases running : t.status.phase = .reloading
    · simp [Busy, Status.markPending, running, Move.Finishes, Move.Queues]
    · simp [Busy, Status.markPending, Status.enter, running, Move.Finishes, Move.Queues]
  | push | pop => simp [Busy, Move.Finishes, Move.Queues]
  | begin => simp [Busy, Status.begin, Status.enter, Move.Finishes, Move.Queues]
  | succeed => simp [Busy, Status.succeed, Status.enter, Move.Finishes]
  | fail => simp [Busy, Status.fail, Status.enter, Move.Finishes]

theorem kept_start (now : Nat) : Kept [] (start now) where
  marked := by simp [start]
  waits := .inl rfl
  busy := by simp

theorem Moves.marked (move : Moves t m u) (marked : ∀ p ∈ t.marked, Marked p past) :
    ∀ p ∈ u.marked, Marked p (past ++ [m]) := by
  intro p mem
  cases move with
  | @mark p' now =>
    by_cases same : p = p'
    · subst same
      exact marked_mark p now past
    · have earlier : p ∈ t.marked := (List.mem_cons.1 mem).resolve_left same
      exact (marked p earlier).snoc (by simpa [Move.producer?] using Ne.symm same)
  | @push p' =>
    obtain ⟨earlier, other⟩ : p ∈ t.marked ∧ p ≠ p' := by simpa using mem
    exact (marked p earlier).snoc (by simpa [Move.producer?] using other.symm)
  | pop | begin | succeed | fail => exact (marked p mem).snoc nofun

theorem Moves.waits (move : Moves t m u) (marked : ∀ p ∈ t.marked, Marked p past)
    (waits : Waits past t.queue) : Waits (past ++ [m]) u.queue := by
  cases move with
  | @push p source _ mem pushed =>
    have brought : Brought source (past ++ [.push p source]) :=
      ⟨past, p, [], rfl, marked p mem, by simp⟩
    -- A reload that waits is superseded, so one waits in either case.
    rcases waits with empty | ⟨old, single, _⟩
    · rw [empty] at pushed
      cases pushed
      exact .inr ⟨source, rfl, brought⟩
    · rw [single] at pushed
      cases pushed
      exact .inr ⟨source, rfl, brought⟩
  | pop _ popped =>
    rcases waits with empty | ⟨old, single, _⟩
    · rw [empty] at popped
      cases popped
    · rw [single] at popped
      cases popped
      exact .inl rfl
  | mark | begin | succeed | fail =>
    rcases waits with empty | ⟨source, single, brought⟩
    · exact .inl empty
    · exact .inr ⟨source, single, brought.snoc id⟩

theorem Kept.move (kept : Kept past t) (move : Moves t m u) : Kept (past ++ [m]) u where
  marked := move.marked kept.marked
  waits := move.waits kept.marked kept.waits
  busy := by
    intro before p now after split
    rw [move.busy_iff]
    rcases Queue.snoc_eq_split split with ⟨_, rfl, rfl⟩ | ⟨after, rfl, rfl⟩
    · simp [Move.Finishes, Move.Queues, not_rested_nil]
    · rw [kept.busy before p now after rfl, rested_snoc]
      tauto

theorem Runs.kept (run : Runs (start now) past t) : Kept past t := by
  induction run with
  | nil => exact kept_start now
  | snoc _ move ih => exact ih.move move

/-- A reload that waits was brought by the last push, and its producer had marked it. From the mark
on the status shows it, until a pass finishes; then it does not, until another mark or begin. A host
makes the same moves: it marks and pushes at once, and its session pops, begins and finishes. -/
theorem reload_waits (run : Runs (start now) past t) (waits : .reload source ∈ t.queue.waiting) :
    (∃ before p marked between after,
      past = before ++ .mark p marked :: (between ++ .push p source :: after) ∧
      (∀ m ∈ between, m.producer? ≠ some p) ∧ (∀ m ∈ after, ¬ m.Queues) ∧
      (t.Busy ↔ ¬ Rested (between ++ .push p source :: after))) ∧
    ∀ h, t.Matches h → ∀ clock,
      (∀ p newer, ∃ u, Runs (start now) (past ++ [.mark p clock, .push p newer]) u ∧
        u.Matches (h.reload (.ok newer) clock).1) ∧
      (t.stage = .free → ∃ finish u, finish.Finishes ∧
        Runs (start now) (past ++ [.pop, .begin clock, finish]) u ∧
        u.Matches (h.settle clock).1) := by
  obtain ⟨_, kept, busy⟩ := run.kept
  rcases kept with empty | ⟨source', single, before', p, after, rfl, marked, quiet⟩
  · rw [empty] at waits
    exact nomatch waits
  · rw [single] at waits
    obtain rfl : source = source' := by simpa using waits
    constructor
    · obtain ⟨before, now, between, rfl, own⟩ := marked
      have split : before ++ .mark p now :: between ++ .push p source :: after =
          before ++ .mark p now :: (between ++ .push p source :: after) := by simp
      exact ⟨before, p, now, between, after, split, own, quiet, busy _ _ _ _ split⟩
    · intro h same clock
      have queue : h.queue = ⟨[.reload source], false⟩ := same.1.symm.trans single
      refine ⟨fun p newer => ?_, fun free => ?_⟩
      · obtain ⟨u, more, after⟩ := same.reload (by rw [queue]) p clock newer
        exact ⟨u, run.append more, after⟩
      · obtain ⟨finish, u, finishes, more, after⟩ := same.settle free (by rw [queue]) clock
        exact ⟨finish, u, finishes, run.append more, after⟩

/-- The producer is a host, which then lets its session run the script. -/
theorem reload_waits_marked :
    let t : Traffic := ⟨⟨[.reload "x = 1"], false⟩, (Status.start 0).markPending 5, [], .free⟩
    let past : List Move := [.mark 1 5, .push 1 "x = 1"]
    let host := Host.start "main.nabu" 64 (.ok "x = 1") 5
    Runs (start 0) past t ∧ .reload "x = 1" ∈ t.queue.waiting ∧
      (∃ before p marked between after,
        past = before ++ .mark p marked :: (between ++ .push p "x = 1" :: after) ∧
        (∀ m ∈ between, m.producer? ≠ some p) ∧ (∀ m ∈ after, ¬ m.Queues) ∧
        (t.Busy ↔ ¬ Rested (between ++ .push p "x = 1" :: after))) ∧
      ∃ finish u, finish.Finishes ∧ Runs (start 0) (past ++ [.pop, .begin 9, finish]) u ∧
        u.Matches (host.settle 9).1 := by
  intro t past host
  have run : Runs (start 0) past t :=
    (Runs.nil.snoc .mark).snoc (.push (by simp [start]) rfl)
  have waits : .reload "x = 1" ∈ t.queue.waiting := by simp [t]
  have same : t.Matches host := ⟨rfl, rfl⟩
  obtain ⟨brought, moves⟩ := reload_waits run waits
  exact ⟨run, waits, brought, (moves host same 9).2 rfl⟩

/-- Two producers mark before the first of them pushes. The pass that its push leads to finishes for
both, and the reload of the other one waits while the status is idle. -/
theorem reload_waits_not_busy :
    ¬ ∀ (now : Nat) (past : List Move) (t : Traffic) (source : String),
      Runs (start now) past t → .reload source ∈ t.queue.waiting → t.Busy := by
  intro claim
  have run : Runs (start 0)
      [.mark 1 0, .mark 2 0, .push 1 "", .pop, .begin 0, .succeed 0, .push 2 ""]
      ⟨⟨[.reload ""], false⟩, ((((Status.start 0).markPending 0).markPending 0).begin 0).succeed 0,
        [], .free⟩ :=
    ((((((Runs.nil.snoc .mark).snoc .mark).snoc (.push (by simp [start]) rfl)).snoc
      (.pop rfl rfl)).snoc (.begin rfl)).snoc (.succeed rfl)).snoc (.push (by simp [start]) rfl)
  exact absurd (claim 0 _ _ "" run (by simp)) (by simp [Busy, Status.succeed, Status.enter])

end Traffic
end WidgetScript
