import CodeAtlas.Number.Scalar

/-!
A circuit guards calls to a service that may be down. Enough failures in a row open it; while it is
open every call is refused. After a pause it lets trial calls through: a failed trial opens it anew,
enough successful ones close it. Entering a call and recording its outcome are separate steps, so
that calls may overlap. Time is an input, in any type with a subtraction and an order.
-/

namespace CodeAtlas

/-- When a circuit opens and closes. -/
structure Circuit.Limits (τ : Type) where
  /-- Failures in a row that open it. -/
  failures : Number.Scalar
  /-- Successful trials that close it. -/
  successes : Number.Scalar
  /-- How long it stays open before trials are let through. -/
  pause : τ

/-- The phase of a circuit. -/
inductive Circuit.Phase (τ : Type) where
  | closed
  /-- Calls are refused since that time. -/
  | opened (since : τ)
  /-- Trial calls are let through; so many have succeeded. -/
  | halfOpen (successes : Nat)

/-- The word for a phase. -/
def Circuit.Phase.word {τ : Type} : Circuit.Phase τ → String
  | .closed => "closed"
  | .opened _ => "open"
  | .halfOpen _ => "half_open"

/-- A circuit. -/
structure Circuit (τ : Type) where
  limits : Circuit.Limits τ
  phase : Circuit.Phase τ
  /-- Failures since the last success or closing. -/
  failures : Nat

namespace Circuit

variable {τ : Type}

/-- A closed circuit without a past. -/
def fresh (limits : Limits τ) : Circuit τ :=
  ⟨limits, .closed, 0⟩

section Time

variable [Sub τ] [LT τ] [DecidableLT τ] [OfNat τ 0]

/-- How long until an open circuit lets a trial through; zero when it is not open. -/
def retryAfter (c : Circuit τ) (now : τ) : τ :=
  match c.phase with
  | .opened since =>
    let left := c.limits.pause - (now - since)
    if 0 < left then left else 0
  | _ => 0

/-- The circuit as it stands at a time: an open one whose pause is over is half open. -/
def settled (c : Circuit τ) (now : τ) : Circuit τ :=
  match c.phase with
  | .opened _ => if 0 < c.retryAfter now then c else { c with phase := .halfOpen 0 }
  | _ => c

/-- Refuses calls. -/
def isOpen (c : Circuit τ) : Bool :=
  match c.phase with
  | .opened _ => true
  | _ => false

/-- Enters a call. A refused one learns how long to wait. -/
def enter (c : Circuit τ) (now : τ) : Option τ × Circuit τ :=
  let c := c.settled now
  (if c.isOpen then some (c.retryAfter now) else none, c)

end Time

/-- Records that a call succeeded. -/
def succeed (c : Circuit τ) : Circuit τ :=
  match c.phase with
  | .halfOpen successes =>
    if c.limits.successes ≤ .whole (successes + 1 : Nat) then
      { c with phase := .closed, failures := 0 }
    else { c with phase := .halfOpen (successes + 1) }
  | _ => { c with failures := 0 }

/-- Records that a call failed. -/
def fail (c : Circuit τ) (now : τ) : Circuit τ :=
  let failures := c.failures + 1
  let opens : Bool := match c.phase with
    | .halfOpen _ => true
    | _ => decide (c.limits.failures ≤ .whole failures)
  { c with failures, phase := if opens then .opened now else c.phase }

/-- What a refused call is told; the time to wait has one decimal. -/
def refusal (name : String) (retryAfter : Float) : String :=
  let style : Number.FixedStyle := ⟨"inf", "nan", true⟩
  s!"Circuit '{name}' is open. Retry after {Number.fixed style 1 retryAfter}s"

end Circuit

end CodeAtlas
