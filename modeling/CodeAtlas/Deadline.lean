import CodeAtlas.Failure

/-!
Operations under a deadline. An operation that is given no time at all is not started; one that ends
in a timeout of its own counts as overdue.
-/

namespace CodeAtlas

/-- How an operation ends, left to itself. -/
inductive Ending (ε α : Type) where
  | value (a : α)
  | raised (e : ε)
  /-- It times out at once. -/
  | timedOut
  /-- It never ends. -/
  | never

/-- The ending with its value changed. -/
def Ending.map (f : α → β) : Ending ε α → Ending ε β
  | .value a => .value (f a)
  | .raised e => .raised e
  | .timedOut => .timedOut
  | .never => .never

namespace Deadline

/-- Runs an operation under a deadline of `seconds`. -/
def guard (kind : FailureKind) (operation : String) (seconds : Number.Scalar)
    (ending : Ending Failure α) : Except Failure α :=
  let overdue := Except.error (Failure.overdue kind operation seconds)
  if seconds ≤ 0 then overdue
  else match ending with
    | .value a => .ok a
    | .raised f => .error f
    | .timedOut | .never => overdue

end Deadline

end CodeAtlas
