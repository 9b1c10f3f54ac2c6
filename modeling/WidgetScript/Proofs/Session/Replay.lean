import WidgetScript.Proofs.Live.Plan
import WidgetScript.Proofs.Session.Reload

/-! A renderer has nothing but the commands that a session sends. They are enough: replayed onto
an empty tree they build the session's own live tree, down to the handles, and none of them ever
meets a tree in which it is not valid. -/
namespace WidgetScript.Session
open LiveTree

/-- A session that requests can lead to from the start, with all the commands that were sent on
the way, the oldest first. -/
inductive Streams : Session → List Command → Prop where
  | start (maxCallDepth now : Nat) : Streams (start maxCallDepth now) []
  | reload {s : Session} {sent : List Command} (source : String) (now : Nat) :
      Streams s sent → Streams (s.reload source now).1 (sent ++ (s.reload source now).2.commands)
  | dispatch {s : Session} {sent : List Command} (event : Event) :
      Streams s sent → Streams (s.dispatch event).1 (sent ++ (s.dispatch event).2.commands)
  | report {s : Session} {sent : List Command} (status : Status) :
      Streams s sent → Streams { s with status } sent

variable {s : Session} {sent : List Command} {event : Event} {source : String} {now : Nat}

theorem Streams.reachable (h : s.Streams sent) : s.Reachable fun _ => True := by
  induction h with
  | start maxCallDepth now => exact .start maxCallDepth now
  | reload source now _ ih => exact ih.reload source now
  | dispatch event _ ih => exact .dispatch trivial ih
  | report status _ ih => exact ih.report status

theorem Streams.handles {t : Session} {rs : List Request} {es : List Emission} (h : s.Streams sent)
    (handled : s.Handles now rs t es) : t.Streams (sent ++ es.flatMap (·.commands)) := by
  induction handled generalizing sent with
  | nil => simpa using h
  | reload _ ih =>
    have later := ih (h.reload _ _)
    rwa [List.append_assoc] at later
  | dispatch _ ih =>
    have later := ih (h.dispatch _)
    rwa [List.append_assoc] at later

theorem Streams.run (h : s.Streams sent) (now : Nat) (waiting : List Request) :
    (s.run now waiting).1.Streams (sent ++ (s.run now waiting).2.flatMap (·.commands)) := by
  obtain ⟨_, _, handled⟩ := s.run_handles now waiting
  exact h.handles handled

theorem Linked.reload_runs (linked : s.Linked) :
    Runs s.live (s.reload source now).2.commands (s.reload source now).1.live := by
  cases loaded : s.load source with
  | mk result log =>
    cases result with
    | error e =>
      have refused : s.Refused e (s.reload source now).1 (s.reload source now).2 :=
        refused_of_load loaded
      rw [refused.commands, refused.live]
      exact .nil
    | ok pass => exact (takenOver_of_load linked loaded).live

theorem Linked.dispatch_runs (linked : s.Linked) :
    Runs s.live (s.dispatch event).2.commands (s.dispatch event).1.live := by
  rcases s.dispatch_cases event with ⟨entries, cmds, _, reconciled, edited, sent⟩ | ⟨same, none⟩
  · obtain ⟨_, t, _, run, _⟩ :=
      Reconcile.reconcile_runs linked.wellFormed (linked.reconcile_isOk entries).1 reconciled
    rw [edited, sent, run.applyAll_eq]
    exact run
  · rw [same, none]
    exact .nil

/-- Each step's commands run on from the tree that the steps before it have made. -/
theorem Streams.runs (h : s.Streams sent) : Runs .empty sent s.live := by
  induction h with
  | start maxCallDepth now => exact .nil
  | reload source now streams ih => exact ih.append streams.reachable.linked.reload_runs
  | dispatch event streams ih => exact ih.append streams.reachable.linked.dispatch_runs
  | report status _ ih => exact ih

/-- Replaying all that was sent gives the live tree itself and no warning. At each point of the
replay the next command is valid, so it is not ignored, and if it creates, its id is free. -/
theorem replay_sent (h : s.Streams sent) :
    LiveTree.empty.applyAll sent = (s.live, []) ∧
      ∀ done c rest, sent = done ++ c :: rest →
        c.Valid (LiveTree.empty.applyAll done).1 ∧
          ((LiveTree.empty.applyAll done).1.apply c).2 = [] ∧
          ∀ parent spec, c = .create parent spec →
            (LiveTree.empty.applyAll done).1.contains spec.id = false := by
  refine ⟨h.runs.applyAll_eq, fun done c rest split => ?_⟩
  have run := h.runs
  rw [split] at run
  have valid := run.valid
  refine ⟨valid, Command.Valid.silent valid, ?_⟩
  rintro parent spec rfl
  obtain ⟨_, free⟩ := valid
  rw [LiveTree.contains, free, Option.isSome_none]

/-- A text is put below a window, a second directive fails, and so does the reload after it. -/
theorem replay_sent_press :
    let source := "window(id: \"main\")\ndef press()\n  [\x7btarget_id: \"main\", " ++
      "action: \"appendChild\", value: \x7bkind: \"text\", id: \"label\"\x7d\x7d,\n" ++
      "   \x7btarget_id: \"nobody\", action: \"setText\", value: \"x\"\x7d]\nend"
    let requests : List Request :=
      [.reload source, .dispatch ⟨"main", "press", []⟩, .reload "window(", .shutdown]
    let out := (start 64 0).run 5 requests
    let sent := out.2.flatMap (·.commands)
    out.1.Streams sent ∧ LiveTree.empty.applyAll sent = (out.1.live, []) := by
  intro source requests out sent
  have streams : out.1.Streams sent := by
    have run := (Streams.start 64 0).run 5 requests
    rwa [List.nil_append] at run
  exact ⟨streams, (replay_sent streams).1⟩

end WidgetScript.Session
