import CodeAtlas.Circuit
import Mathlib.Tactic.Common

/-!
# Steps of a circuit

Bringing a circuit up to a time twice is as good as once, and a call that a circuit lets through
leaves it open only by failing.

## Main results

`Circuit.settled_settled`, `Circuit.not_open_succeed` and `Circuit.phase_fail`.
-/

namespace CodeAtlas.Circuit

variable {τ : Type} [Sub τ] [LT τ] [DecidableLT τ] [OfNat τ 0] {now : τ} {c : Circuit τ}

theorem settled_of_waits (waits : 0 < c.retryAfter now) : c.settled now = c := by
  simp only [settled]
  split
  · rw [if_pos waits]
  · rfl

theorem settled_closed (closed : c.phase = .closed) : c.settled now = c := by
  simp only [settled, closed]

/-- Only the phase is brought up to a time. -/
theorem settled_eq (c : Circuit τ) (now : τ) :
    c.settled now = { c with phase := (c.settled now).phase } := by
  simp only [settled]
  split
  · split <;> rfl
  · rfl

theorem settled_limits (c : Circuit τ) (now : τ) : (c.settled now).limits = c.limits := by
  rw [settled_eq]

theorem settled_failures (c : Circuit τ) (now : τ) : (c.settled now).failures = c.failures := by
  rw [settled_eq]

theorem settled_settled (c : Circuit τ) (now : τ) : (c.settled now).settled now = c.settled now := by
  by_cases waits : 0 < c.retryAfter now
  · rw [settled_of_waits waits, settled_of_waits waits]
  · cases phase : c.phase with
    | opened since => simp only [settled, phase, if_neg waits]
    | closed => simp only [settled, phase]
    | halfOpen successes => simp only [settled, phase]

theorem not_open_settled (through : c.isOpen = false) : (c.settled now).isOpen = false := by
  cases phase : c.phase with
  | opened since => simp [isOpen, phase] at through
  | _ => simp only [settled, phase, isOpen]

/-- A circuit that lets a call through is not open after its success. -/
theorem not_open_succeed (through : c.isOpen = false) :
    (c.succeed.settled now).isOpen = false := by
  refine not_open_settled ?_
  cases phase : c.phase with
  | closed => simp only [succeed, phase, isOpen]
  | opened since => simp [isOpen, phase] at through
  | halfOpen successes =>
    simp only [succeed, phase]
    split <;> rfl

omit [Sub τ] [LT τ] [DecidableLT τ] [OfNat τ 0] in
theorem phase_fail (c : Circuit τ) (now : τ) :
    (c.fail now).phase = .opened now ∨ (c.fail now).phase = c.phase := by
  cases phase : c.phase with
  | halfOpen successes => exact .inl (by simp [Circuit.fail, phase])
  | _ =>
    by_cases reached : c.limits.failures ≤ .whole (c.failures + 1 : Nat)
    · exact .inl (by simp only [Circuit.fail, phase, decide_eq_true_eq, if_pos reached])
    · exact .inr (by simp only [Circuit.fail, phase, decide_eq_true_eq, if_neg reached])

end CodeAtlas.Circuit
