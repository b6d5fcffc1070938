import MizanConnect.Error
import MizanConnect.Types

/-!
# `MizanConnect.Statement`: one statement on the pool

A statement that a handler sends to the pool runs, or its connection is lost.
When it runs, the server knows `NOW()` and the UUID that a default would
draw. The connection can also break after the statement took effect, and the
handler then sees an error.
-/

set_option autoImplicit false

namespace MizanConnect

open Sql (Schema Table Violation)

/-- What happens to a statement. `acknowledged` is whether its answer
arrives. -/
inductive Attempt where
  | lost
  | run (now : Timestamp) (newId : Uuid) (acknowledged : Bool)

/-- The `sqlx::Error` of a lost connection, as `?` converts it. -/
def connectionError : AppError := AppError.ofDb .connection

/-- A statement without an answer succeeds as its mapped form does. -/
theorem map_unit_eq_ok {ε σ : Type} {x : Except ε σ} {s : σ} {answer : Unit}
    (h : (x.map fun s => (s, ())) = .ok (s, answer)) : x = .ok s := by
  cases x with
  | error e => cases h
  | ok y => exact congrArg (fun out => Except.ok out.1) (Except.ok.inj h)

namespace Attempt

/-- The answer to a SELECT. -/
def query {α : Type} (attempt : Attempt) (answer : α) : Except AppError α :=
  match attempt with
  | .run _ _ true => .ok answer
  | _ => .error connectionError

/-- The answer to a statement or a transaction that writes, and the state
after it. -/
def write {σ α : Type} (attempt : Attempt) (state : σ)
    (statement : Timestamp → Uuid → Except Violation (σ × α)) : Except AppError α × σ :=
  match attempt with
  | .lost => (.error connectionError, state)
  | .run now newId acknowledged =>
    match statement now newId with
    | .error v => (.error (AppError.ofDb (.violation v)), state)
    | .ok (state', answer) =>
      (if acknowledged then .ok answer else .error connectionError, state')

/-- `write` where the handler looks at the `sqlx::Error` itself. -/
def execute {σ α : Type} (attempt : Attempt) (state : σ)
    (statement : Timestamp → Uuid → Except Violation (σ × α)) : Except DbError α × σ :=
  match attempt with
  | .lost => (.error .connection, state)
  | .run now newId acknowledged =>
    match statement now newId with
    | .error v => (.error (.violation v), state)
    | .ok (state', answer) =>
      (if acknowledged then .ok answer else .error .connection, state')

variable {σ α : Type} {attempt : Attempt} {state : σ}
  {statement : Timestamp → Uuid → Except Violation (σ × α)}

/-- An attempt is lost or runs. -/
theorem lost_or_run (attempt : Attempt) :
    attempt = .lost ∨ ∃ now newId acknowledged, attempt = .run now newId acknowledged := by
  cases attempt with
  | lost => exact Or.inl rfl
  | run now newId acknowledged => exact Or.inr ⟨now, newId, acknowledged, rfl⟩

/-- A write leaves the state, or takes effect. -/
theorem write_cases (attempt : Attempt) (state : σ)
    (statement : Timestamp → Uuid → Except Violation (σ × α)) :
    ((attempt.write state statement).2 = state ∧
      ∃ e, (attempt.write state statement).1 = .error e) ∨
    ∃ now newId acknowledged answer, attempt = .run now newId acknowledged ∧
      statement now newId = .ok ((attempt.write state statement).2, answer) ∧
      (attempt.write state statement).1
        = if acknowledged then .ok answer else .error connectionError := by
  cases attempt with
  | lost => exact Or.inl ⟨rfl, _, rfl⟩
  | run now newId acknowledged =>
    cases hstatement : statement now newId with
    | error v =>
      refine Or.inl ⟨?_, AppError.ofDb (.violation v), ?_⟩
      · simp [write, hstatement]
      · simp [write, hstatement]
    | ok out =>
      refine Or.inr ⟨now, newId, acknowledged, out.2, rfl, ?_, ?_⟩
      · simp [write, hstatement]
      · simp [write, hstatement]

/-- The two answers to a statement are the same error. -/
theorem write_eq_execute (attempt : Attempt) (state : σ)
    (statement : Timestamp → Uuid → Except Violation (σ × α)) :
    attempt.write state statement = ((attempt.execute state statement).1.mapError AppError.ofDb,
      (attempt.execute state statement).2) := by
  cases attempt with
  | lost => rfl
  | run now newId acknowledged =>
    simp only [write, execute]
    cases statement now newId with
    | error v => rfl
    | ok out => cases acknowledged <;> rfl

/-- A statement is lost, breaks a constraint, or takes effect. -/
theorem execute_cases (attempt : Attempt) (state : σ)
    (statement : Timestamp → Uuid → Except Violation (σ × α)) :
    (attempt = .lost ∧ attempt.execute state statement = (.error .connection, state)) ∨
    (∃ now newId v, statement now newId = .error v ∧
      attempt.execute state statement = (.error (.violation v), state)) ∨
    ∃ now newId acknowledged state' answer, attempt = .run now newId acknowledged ∧
      statement now newId = .ok (state', answer) ∧ attempt.execute state statement
        = (if acknowledged then .ok answer else .error .connection, state') := by
  cases attempt with
  | lost => exact Or.inl ⟨rfl, rfl⟩
  | run now newId acknowledged =>
    cases hstatement : statement now newId with
    | error v => exact Or.inr (Or.inl ⟨now, newId, v, hstatement, by simp [execute, hstatement]⟩)
    | ok out =>
      exact Or.inr (Or.inr ⟨now, newId, acknowledged, out.1, out.2, rfl, hstatement,
        by simp [execute, hstatement]⟩)

/-- A SELECT that is answered has its answer. -/
theorem query_eq_ok {answer out : α} (h : attempt.query answer = .ok out) : out = answer := by
  unfold query at h
  split at h
  · cases h
    rfl
  · cases h

/-- A write without an answer leaves the state and fails, or it takes effect and
only its acknowledgement can be lost. -/
theorem write_unit_cases (attempt : Attempt) (state : σ)
    (statement : Timestamp → Except Violation σ) :
    ∃ answer state', (attempt.write state fun now _ => (statement now).map fun s => (s, ()))
        = (answer, state') ∧
      ((state' = state ∧ ∃ e, answer = .error e) ∨
        ((∃ now, statement now = .ok state') ∧ ∀ e, answer = .error e → e = connectionError)) := by
  refine ⟨_, _, (Prod.eta _).symm, ?_⟩
  rcases write_cases attempt state fun now _ => (statement now).map fun s => (s, ())
    with hleft | ⟨now, newId, acknowledged, answer, -, hstatement, hanswer⟩
  · exact Or.inl hleft
  · refine Or.inr ⟨⟨now, map_unit_eq_ok hstatement⟩, ?_⟩
    intro e he
    rw [hanswer] at he
    cases acknowledged with
    | true => cases he
    | false => exact (Except.error.inj he).symm

end Attempt

end MizanConnect
