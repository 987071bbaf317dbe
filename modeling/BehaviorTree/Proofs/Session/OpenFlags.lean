import BehaviorTree.Proofs.Session

/-! What an open node remembers: the last answer that one of its ticks ever gave was
running. Nothing else that happens in a history bears on the flag. -/
namespace BehaviorTree

variable {W : Type}

def Mark.answer? : Mark → Option Outcome
  | .returned .tick (.answered outcome) => some outcome
  | _ => none

def Timeline.answers (t : Timeline W) (id : NodeId) : List Outcome :=
  (t.marks id).filterMap Mark.answer?

def Call.answers (calls : List Call) : List Outcome :=
  (calls.flatMap Call.marks).filterMap Mark.answer?

theorem Call.answersAppend (calls more : List Call) :
    Call.answers (calls ++ more) = Call.answers calls ++ Call.answers more := by
  simp [Call.answers]

theorem Call.readyAnswers (wasOpen : Bool) : Call.answers (Call.ready wasOpen) = [] := by
  cases wasOpen <;> rfl

theorem isRunningFalse {status : Status} (past : status ≠ .running) : status.isRunning = false := by
  cases status with
  | running => exact absurd rfl past
  | _ => rfl

/- An activation moves the flag exactly when its tick answers, and then to what it says. -/
theorem Course.answers {id wasOpen calls soFar isOpen}
    (course : Course id wasOpen calls soFar isOpen) :
    (Call.answers calls = [] ∧ isOpen = wasOpen) ∨
      ∃ o : Outcome, Call.answers calls = [o] ∧ isOpen = o.effective.isRunning := by
  cases course with
  | enterFails => exact .inl ⟨rfl, rfl⟩
  | openFails => exact .inl ⟨rfl, rfl⟩
  | tickFails =>
    rw [Call.answersAppend, Call.readyAnswers]
    exact .inl ⟨rfl, rfl⟩
  | stays o running =>
    rw [Call.answersAppend, Call.readyAnswers]
    exact .inr ⟨o, rfl, by rw [running]; rfl⟩
  | closes o past =>
    rw [Call.answersAppend, Call.readyAnswers]
    exact .inr ⟨o, rfl, (isRunningFalse past).symm⟩
  | closeFails o _ past =>
    rw [Call.answersAppend, Call.readyAnswers]
    exact .inr ⟨o, rfl, (isRunningFalse past).symm⟩

theorem Visits.flag {id wasOpen calls isOpen} (visits : Visits id wasOpen calls isOpen) :
    isOpen = ((Call.answers calls).getLast?.map fun o => o.effective.isRunning).getD wasOpen := by
  induction visits with
  | none => rfl
  | @more calls _ next _ _ _ course exit ih =>
    have quiet : Call.answers [⟨.exit, exit⟩] = [] := rfl
    rw [Call.answersAppend, Call.answersAppend, quiet, List.append_nil]
    rcases course.answers with ⟨none, same⟩ | ⟨o, answered, flag⟩
    · rw [none, List.append_nil, same]
      exact ih
    · rw [answered, List.getLast?_concat, flag]
      rfl

end BehaviorTree
