import MizanConnect.Lib.Table

/-!
# `MizanConnect.Error`: the application error

`src/error.rs`. An `AppError` is its code and the message the client sees.
The wrapped source error is only logged, so it is left out. `DbError` is the
part of `sqlx::Error` that `From<sqlx::Error>` tells apart.
-/

set_option autoImplicit false

namespace MizanConnect

/-- `ErrorCode`. -/
inductive ErrorCode where
  | badRequest
  | unauthorized
  | forbidden
  | notFound
  | conflict
  | payloadTooLarge
  | unprocessableEntity
  | tooManyRequests
  | internal
  | notImplemented
  | serviceUnavailable
deriving DecidableEq, Repr

/-- `AppError`, as the client sees it. -/
structure AppError where
  code : ErrorCode
  message : String
deriving DecidableEq, Repr

namespace AppError

def badRequest (message : String) : AppError := ⟨.badRequest, message⟩
def unauthorized (message : String) : AppError := ⟨.unauthorized, message⟩
def forbidden (message : String) : AppError := ⟨.forbidden, message⟩
def notFound (message : String) : AppError := ⟨.notFound, message⟩
def conflict (message : String) : AppError := ⟨.conflict, message⟩
def unprocessable (message : String) : AppError := ⟨.unprocessableEntity, message⟩
def internal (message : String) : AppError := ⟨.internal, message⟩
def notImplemented (message : String) : AppError := ⟨.notImplemented, message⟩
def serviceUnavailable (message : String) : AppError := ⟨.serviceUnavailable, message⟩

end AppError

/-- `sqlx::Error`: no row where one was required, a constraint, or a failed
connection. -/
inductive DbError where
  | rowNotFound
  | violation (v : Sql.Violation)
  | connection
deriving DecidableEq, Repr

/-- `impl From<sqlx::Error> for AppError`. -/
def AppError.ofDb : DbError → AppError
  | .rowNotFound => .notFound "resource not found"
  | .violation .unique => .conflict "resource already exists"
  | _ => .internal "database error"

/-- `?` on a statement: the constraint it broke, as an `AppError`. -/
def ofStatement {α : Type} (x : Except Sql.Violation α) : Except AppError α :=
  x.mapError fun v => AppError.ofDb (.violation v)

/-- `fetch_one` on a statement with `RETURNING`: the table after it and the
first row version it wrote. -/
def fetchOne {ρ κ : Type} [DecidableEq κ] {S : Sql.Schema ρ κ} (t : Sql.Table S)
    (versions : Except Sql.Violation (List ρ)) : Except DbError (Sql.Table S × ρ) :=
  match versions with
  | .error v => .error (.violation v)
  | .ok [] => .error .rowNotFound
  | .ok (r :: rest) =>
    match t.write (r :: rest) with
    | .error v => .error (.violation v)
    | .ok t' => .ok (t', r)

/-- `fetch_one` on one row version is its write. -/
theorem fetchOne_singleton {ρ κ : Type} [DecidableEq κ] {S : Sql.Schema ρ κ}
    {t t' : Sql.Table S} {r x : ρ} :
    fetchOne t (.ok [r]) = .ok (t', x) ↔ t.write [r] = .ok t' ∧ x = r := by
  simp only [fetchOne]
  cases t.write [r] with
  | error v => simp
  | ok t'' => simp [eq_comm]

/-- A computation in `Except` that succeeds, cut at its first step. -/
theorem except_bind_eq_ok {ε α β : Type} {x : Except ε α} {f : α → Except ε β} {b : β} :
    (x >>= f) = .ok b ↔ ∃ a, x = .ok a ∧ f a = .ok b := by
  cases x with
  | error e => simp [bind, Except.bind]
  | ok a => simp [bind, Except.bind]

theorem mapError_eq_ok {ε ε' α : Type} {f : ε → ε'} {x : Except ε α} {a : α} :
    x.mapError f = .ok a ↔ x = .ok a := by
  cases x <;> simp [Except.mapError]

theorem toOption_eq_some {ε α : Type} {x : Except ε α} {a : α} :
    x.toOption = some a ↔ x = .ok a := by
  cases x <;> simp [Except.toOption]

theorem ofStatement_eq_ok {α : Type} {x : Except Sql.Violation α} {a : α} :
    ofStatement x = .ok a ↔ x = .ok a :=
  mapError_eq_ok

end MizanConnect
