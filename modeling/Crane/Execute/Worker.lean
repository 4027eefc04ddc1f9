/-
The loop that carries out queued actions (`internal/execute/worker.go`).

One iteration asks the store for an action, executes it and records the outcome. The store's calls may fail, with or
without an effect (`Delivery`). The branch for a failed action does not leave the iteration: it marks the action as failed
and goes on to mark it as done, so what is stored in the end is the outcome of that last call.
-/
import Crane.Capacity.Controller
import Crane.Execute.Queue

namespace Crane.Execute

open Capacity (Delivery)

/-! ## One iteration -/

inductive Query where
  | next
  | execute (hostId type : String)
  | markFailed (id : ℕ)
  | markDone (id : ℕ)
deriving DecidableEq, Repr

/-- an action or an error for `next`, otherwise whether the call succeeded -/
abbrev Query.Answer : Query → Type
  | .next => Option ActionRecord
  | _ => Bool

abbrev Worker := Prog Query Query.Answer

def ask (q : Query) : Worker q.Answer := .ask q .ret

/-- what is done with an action, whatever its outcome -/
def complete (record : ActionRecord) : Worker Unit := do
  let _ ← ask (.markDone record.id)

/-- the body of the loop of Run, after a tick -/
def iteration : Worker Unit := do
  match ← ask .next with
  | none => return ()
  | some record =>
    if ← ask (.execute record.hostId record.type) then complete record
    else
      let _ ← ask (.markFailed record.id)
      complete record

/-! ## Runs -/

/-- what the outside contributes to one iteration -/
structure Inputs where
  next : Option ActionRecord
  nextCall : Delivery := .answered
  executed : Bool
  failedCall : Delivery := .answered
  doneCall : Delivery := .answered
deriving DecidableEq, Repr

/-- an iteration that was given an action, at its end -/
structure Ended where
  inputs : Inputs
  id : ℕ
  status : ActionStatus
deriving DecidableEq, Repr

/-- the stored status of each action, and the ended iterations -/
structure Store where
  status : ℕ → ActionStatus
  ended : List Ended

def Store.set (s : Store) (d : Delivery) (id : ℕ) (status : ActionStatus) : Store :=
  if d = .failed then s else { s with status := Function.update s.status id status }

def Store.perform (s : Store) (i : Inputs) : (q : Query) → Store × q.Answer
  | .next => match i.next with
    | none => (s, none)
    | some record => (s.set i.nextCall record.id .running, if i.nextCall = .answered then some record else none)
  | .execute _ _ => (s, i.executed)
  | .markFailed id => (s.set i.failedCall id .failed, decide (i.failedCall = .answered))
  | .markDone id => (s.set i.doneCall id .done, decide (i.doneCall = .answered))

def Store.exec {α : Type} (i : Inputs) : Worker α → Store → Store
  | .ret _, s => s
  | .stop, s => s
  | .ask q k, s => Store.exec i (k (s.perform i q).2) (s.perform i q).1

/-- the action that the worker was given -/
def Inputs.given (i : Inputs) : Option ActionRecord := if i.nextCall = .answered then i.next else none

def Store.iterate (s : Store) (i : Inputs) : Store :=
  let t := Store.exec i iteration s
  match i.given with
  | none => t
  | some record => { t with ended := ⟨i, record.id, t.status record.id⟩ :: t.ended }

/-- Run until its context ends -/
def Store.run (s : Store) (is : List Inputs) : Store := is.foldl Store.iterate s

/-! ## Outcomes -/

/-- the calls of the store that the iteration made succeeded -/
def Inputs.answered (i : Inputs) : Prop := i.doneCall = .answered ∧ (i.executed = false → i.failedCall = .answered)

/-- the recorded outcome is the real one -/
structure Ended.Real (e : Ended) : Prop where
  failure : e.inputs.executed = false → e.status ≠ .done
  outcome : e.inputs.answered → (e.status = .done ↔ e.inputs.executed = true) ∧
    (e.status = .failed ↔ e.inputs.executed = false)

/-- a failed action is not marked as done in the end -/
def Inputs.unmarked (i : Inputs) : Bool := i.given.isNone || i.executed || i.doneCall = .failed

section Iterate
variable {s : Store} {i : Inputs} {record : ActionRecord}

/-- the status that an iteration leaves -/
theorem exec_status (hi : i.given = some record) : (Store.exec i iteration s).status record.id =
    if i.doneCall ≠ .failed then .done
    else if i.executed = false ∧ i.failedCall ≠ .failed then .failed
    else .running := by
  have hnext : i.nextCall = .answered ∧ i.next = some record := by
    unfold Inputs.given at hi
    split_ifs at hi with hn
    exact ⟨hn, hi⟩
  cases he : i.executed <;> by_cases hf : i.failedCall = .failed <;> by_cases hd : i.doneCall = .failed <;>
    simp [iteration, complete, ask, Store.exec, Store.perform, Store.set, hnext, he, hf, hd]

theorem exec_ended {α : Type} (p : Worker α) : (Store.exec i p s).ended = s.ended := by
  induction p generalizing s with
  | ret a => rfl
  | stop => rfl
  | ask q k ih =>
    rw [Store.exec, ih]
    cases q <;> simp only [Store.perform, Store.set] <;> split <;> (try split) <;> rfl

/-- an iteration that does not mark a failed action as done records the real outcome -/
theorem real_of_status {status : ActionStatus} (hstatus : status =
      if i.doneCall ≠ .failed then .done
      else if i.executed = false ∧ i.failedCall ≠ .failed then .failed
      else .running)
    (hmark : i.executed = true ∨ i.doneCall = .failed) : Ended.Real ⟨i, record.id, status⟩ where
  failure he := by
    have hd : i.doneCall = .failed := hmark.resolve_left (by simpa using he)
    rw [hstatus, if_neg (not_not_intro hd)]
    split_ifs <;> nofun
  outcome ha := by
    have hd : i.doneCall ≠ .failed := by rw [show i.doneCall = .answered from ha.1]; nofun
    have he : i.executed = true := hmark.resolve_right hd
    simp [hstatus, hd, he]

theorem iterate_real (h : ∀ e ∈ s.ended, e.Real) (hi : i.unmarked = true) : ∀ e ∈ (s.iterate i).ended, e.Real := by
  unfold Store.iterate
  cases hg : i.given with
  | none => simpa [exec_ended] using h
  | some record =>
    intro e he
    simp only [exec_ended] at he
    rcases List.mem_cons.mp he with rfl | he
    · have hmark : i.executed = true ∨ i.doneCall = .failed := by simpa [Inputs.unmarked, hg] using hi
      exact real_of_status (exec_status hg) hmark
    · exact h e he

end Iterate

/-- **The recorded outcome is the real one, if no failed action is marked as done.** In every run of the worker, with any
actions, outcomes and failures of the store's calls. -/
theorem outcome_real (s : Store) (hs : s.ended = []) (is : List Inputs) (his : is.all Inputs.unmarked = true) :
    ∀ e ∈ (s.run is).ended, e.Real := by
  have hrun : ∀ (is : List Inputs) (s : Store), (∀ e ∈ s.ended, e.Real) → is.all Inputs.unmarked = true →
      ∀ e ∈ (s.run is).ended, e.Real := by
    intro is
    induction is with
    | nil => exact fun s h _ => h
    | cons i is ih =>
      intro s h his
      rw [List.all_cons, Bool.and_eq_true] at his
      exact ih _ (iterate_real h his.1) his.2
  exact hrun is s (by simp [hs]) his

namespace Sample

def start : Store := ⟨fun _ => .pending, []⟩

def record : ActionRecord := ⟨1, "host", 1, "replace", "aws", .running⟩

/-- Execute fails and every call of the store succeeds: the action ends as done -/
theorem failure_done : ∃ e ∈ (start.run [⟨some record, .answered, false, .answered, .answered⟩]).ended,
    e.inputs.executed = false ∧ e.inputs.answered ∧ e.status = .done := by
  refine ⟨⟨⟨some record, .answered, false, .answered, .answered⟩, 1, .done⟩, ?_, rfl, ⟨rfl, fun _ => rfl⟩, rfl⟩
  decide +kernel

/-- an action that succeeds, and one that fails and whose MarkDone does not reach the store -/
def succeedsThenFails : List Inputs :=
  [⟨some record, .answered, true, .answered, .answered⟩, ⟨some record, .answered, false, .answered, .failed⟩]

theorem outcome_real_both : succeedsThenFails.all Inputs.unmarked = true ∧
    ∀ e ∈ (start.run succeedsThenFails).ended, e.Real := by
  have his : succeedsThenFails.all Inputs.unmarked = true := by decide
  exact ⟨his, outcome_real start rfl succeedsThenFails his⟩

end Sample

end Crane.Execute
