import Overseer.Task.Store

/-! # How a task record is moved and ended

Both operations on a record ask the lifecycle first and then write all there is to write (`transition_eq`, `finish_eq`).
The list of all tasks has each of them once, by age (`list_perm`, `list_ordered`).
-/

namespace Overseer

variable {t t' : Task} {target : TaskState} {outcome : Outcome} {now : Time}

theorem Outcome.state_isTerminal (o : Outcome) : o.state.isTerminal = true := by
  cases o <;> rfl

namespace Task

/-- The record of a task that has come to its end. -/
def ended (t : Task) (outcome : Outcome) (now : Time) : Task :=
  match outcome.failure? with
  | none => { t with state := outcome.state, finishedAt := some now, output := outcome.output? }
  | some failure => { t with state := outcome.state, finishedAt := some now, failure := some failure }

theorem state_ended (t : Task) (outcome : Outcome) (now : Time) : (t.ended outcome now).state = outcome.state := by
  cases outcome <;> rfl

theorem payload_ended (t : Task) (outcome : Outcome) (now : Time) : (t.ended outcome now).payload = t.payload := by
  cases outcome <;> rfl

theorem failure_ended {failure : Failure} (h : outcome.failure? = some failure) (t : Task) (now : Time) :
    (t.ended outcome now).failure = some failure := by
  unfold ended
  rw [h]

theorem transition_eq (t : Task) (target : TaskState) (now : Time) :
    t.transition target now =
      if t.state.canMove target = true then
        .ok { t with state := target, finishedAt := if target.isTerminal then some now else t.finishedAt }
      else .error ⟨t.state, target⟩ := by
  unfold transition TaskState.move
  split
  · rfl
  · rfl

theorem finish_eq (t : Task) (outcome : Outcome) (now : Time) :
    t.finish outcome now =
      if t.state.canMove outcome.state = true then .ok (t.ended outcome now)
      else .error ⟨t.state, outcome.state⟩ := by
  unfold finish
  rw [transition_eq]
  by_cases hmove : t.state.canMove outcome.state = true
  · rw [if_pos hmove, if_pos hmove]
    cases outcome <;> rfl
  · rw [if_neg hmove, if_neg hmove]
    rfl

theorem eq_of_transition (h : t.transition target now = .ok t') :
    t' = { t with state := target, finishedAt := if target.isTerminal then some now else t.finishedAt } := by
  rw [transition_eq] at h
  split at h
  · exact (Except.ok.inj h).symm
  · cases h

theorem eq_ended_of_finish (h : t.finish outcome now = .ok t') : t' = t.ended outcome now := by
  rw [finish_eq] at h
  split at h
  · exact (Except.ok.inj h).symm
  · cases h

end Task

namespace TaskStore

theorem list_perm (s : TaskStore) : s.list.Perm s.values := List.mergeSort_perm _ _

theorem list_ordered (s : TaskStore) : s.list.Pairwise fun a b => a.createdAt ≤ b.createdAt := by
  have htotal (a b : Task) : (decide (a.createdAt ≤ b.createdAt) || decide (b.createdAt ≤ a.createdAt)) = true := by
    simpa using Nat.le_total a.createdAt b.createdAt
  have htrans (a b c : Task) (hab : decide (a.createdAt ≤ b.createdAt) = true)
      (hbc : decide (b.createdAt ≤ c.createdAt) = true) : decide (a.createdAt ≤ c.createdAt) = true :=
    decide_eq_true (Nat.le_trans (of_decide_eq_true hab) (of_decide_eq_true hbc))
  exact (List.pairwise_mergeSort htrans htotal s.values).imp of_decide_eq_true

end TaskStore

end Overseer
