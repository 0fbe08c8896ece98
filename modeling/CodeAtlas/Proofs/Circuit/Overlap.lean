import CodeAtlas.Proofs.Circuit.History

/-!
# Calls that overlap

Calls come to a circuit and end in any order, several of them under way at a time. A circuit keeps no
account of the calls that it has let through, so nothing but an opening whose pause lasts turns a
caller away: while it is half open, trials pile up without a bound, and a trial that its caller gives
up makes room for nobody because nobody was kept waiting. That at most one trial is under way holds
only as long as callers come one at a time.

## Main results

`Circuit.Crowd.run_trials`: for every interleaving of arrivals, ends and passing time.
`Circuit.Crowd.trials_overlap`: two trials under way at once.

## Proof strategy

`Crowd.Obeys` is what every move keeps. `Crowd.enter_eq` says who is turned away, and
`Crowd.run_enter` lets any number of callers in by induction on them.
-/

namespace CodeAtlas.Circuit

variable {τ : Type}

section Time

set_option linter.unusedSectionVars false

variable [AddCommGroup τ] [LinearOrder τ] [IsOrderedAddMonoid τ]

/-- A call that was let through and has not ended. -/
structure Visit where
  caller : Nat
  /-- It was let through while the circuit was half open. -/
  isTrial : Bool
  deriving DecidableEq

/-- What may happen next to a circuit and the calls through it. -/
inductive Move (τ : Type) [AddCommGroup τ] [LinearOrder τ] where
  /-- A caller comes. -/
  | enter (caller : Nat)
  /-- The call of a caller who is inside ends. -/
  | leave (caller : Nat) (outcome : Outcome)
  | idle (idle : Idle τ)

/-- A caller comes. -/
def Move.isArrival : Move τ → Bool
  | .enter _ => true
  | _ => false

/-- Trial calls are let through. -/
def Phase.isHalfOpen : Phase τ → Bool
  | .halfOpen _ => true
  | _ => false

/-- A circuit with the calls under way, the last one that was let through first. -/
structure Crowd (τ : Type) where
  now : τ
  circuit : Circuit τ
  inside : List Visit

/-- A caller is turned away exactly while an opened circuit pauses. -/
theorem enter_refused_iff (c : Circuit τ) (now wait : τ) :
    (c.enter now).1 = some wait ↔ ∃ since, c.phase = .opened since ∧
      now < since + c.limits.pause ∧ wait = since + c.limits.pause - now := by
  obtain ⟨limits, phase, failures⟩ := c
  cases phase with
  | closed => simp [enter, settled, isOpen]
  | halfOpen successes => simp [enter, settled, isOpen]
  | opened since =>
    by_cases waits : now < since + limits.pause
    · simp [enter, settled_opened, retryAfter_opened, waits, isOpen, eq_comm]
    · simp [enter, settled_opened, waits, isOpen]

theorem enter_halfOpen {c : Circuit τ} {now : τ} {n : Nat}
    (halfOpen : (c.settled now).phase = .halfOpen n) : c.enter now = (none, c.settled now) := by
  simp only [enter, isOpen, halfOpen, Bool.false_eq_true, if_false]

theorem limits_succeed (c : Circuit τ) : c.succeed.limits = c.limits := by
  simp only [succeed]
  split
  · split <;> rfl
  · rfl

namespace Crowd

/-- A circuit to which nobody has come. -/
def fresh (limits : Limits τ) (now : τ) : Crowd τ :=
  ⟨now, .fresh limits, []⟩

/-- The trials under way. -/
def trials (s : Crowd τ) : List Visit :=
  s.inside.filter (·.isTrial)

/-- What a caller is told, nothing when let through, and who is inside then. -/
def enter (s : Crowd τ) (caller : Nat) : Option τ × Crowd τ :=
  let (refused, circuit) := s.circuit.enter s.now
  (refused, { s with
    circuit
    inside := if refused.isSome then s.inside else ⟨caller, circuit.phase.isHalfOpen⟩ :: s.inside })

/-- The crowd after the call of a caller inside has ended; of several calls of one caller the last
one that was let through. -/
def leave (s : Crowd τ) (caller : Nat) (outcome : Outcome) : Crowd τ :=
  if s.inside.any (·.caller == caller) then
    { s with
      circuit := match outcome with
        | .succeeded => s.circuit.succeed
        | .failed => s.circuit.fail s.now
        | .cancelled => s.circuit
      inside := s.inside.eraseP (·.caller == caller) }
  else s

/-- The crowd after something that is no call. -/
def idle (s : Crowd τ) : Idle τ → Crowd τ
  | .look => { s with circuit := s.circuit.settled s.now }
  | .ask => s
  | .wait span => { s with now := s.now + span }

/-- The crowd after a move, with what the caller was told, if somebody came. -/
def move (s : Crowd τ) : Move τ → List (Option τ) × Crowd τ
  | .enter caller =>
    let (told, s) := s.enter caller
    ([told], s)
  | .leave caller outcome => ([], s.leave caller outcome)
  | .idle i => ([], s.idle i)

/-- The crowd after some moves, with what the callers were told. -/
def run (s : Crowd τ) : List (Move τ) → List (Option τ) × Crowd τ
  | [] => ([], s)
  | m :: rest =>
    let (told, s) := s.move m
    let (more, s) := s.run rest
    (told ++ more, s)

/-- Nobody comes while a call is under way. -/
def OneAtATime (s : Crowd τ) : List (Move τ) → Prop
  | [] => True
  | m :: rest => (m.isArrival = true → s.inside = []) ∧ (s.move m).2.OneAtATime rest

variable {limits : Limits τ} {s : Crowd τ} {n caller : Nat}

/-! ### Who is let through -/

theorem told_enter (s : Crowd τ) (caller : Nat) : (s.enter caller).1 = (s.circuit.enter s.now).1 :=
  rfl

theorem enter_halfOpen (halfOpen : (s.circuit.settled s.now).phase = .halfOpen n) (caller : Nat) :
    s.enter caller = (none, { s with
      circuit := s.circuit.settled s.now, inside := ⟨caller, true⟩ :: s.inside }) := by
  simp only [enter, Circuit.enter_halfOpen halfOpen, halfOpen, Phase.isHalfOpen, Option.isSome_none,
    Bool.false_eq_true, if_false]

/-- Whoever comes to a half-open circuit is let through, whoever else is inside. -/
theorem run_enter (halfOpen : (s.circuit.settled s.now).phase = .halfOpen n) (callers : List Nat) :
    (s.run (callers.map .enter)).1 = callers.map (fun _ => none) ∧
    (s.run (callers.map .enter)).2.trials = callers.reverse.map (⟨·, true⟩) ++ s.trials ∧
    ((s.run (callers.map .enter)).2.circuit.settled s.now).phase = .halfOpen n := by
  induction callers generalizing s with
  | nil => exact ⟨rfl, rfl, halfOpen⟩
  | cons caller rest ih =>
    -- The circuit that the first caller leaves behind has noticed that it is half open.
    have still : ((s.enter caller).2.circuit.settled (s.enter caller).2.now).phase = .halfOpen n := by
      rw [enter_halfOpen halfOpen]
      exact (congrArg Circuit.phase (settled_settled s.circuit s.now)).trans halfOpen
    obtain ⟨told, trials, phase⟩ := ih still
    refine ⟨?_, ?_, ?_⟩
    · simp only [List.map_cons, run, move, told]
      rw [enter_halfOpen halfOpen]
      rfl
    · simp only [List.map_cons, run, move, trials, List.reverse_cons, List.map_append,
        List.append_assoc]
      rw [enter_halfOpen halfOpen]
      rfl
    · exact phase

/-- Of the ends of a trial only a failure keeps the next caller out. -/
theorem enter_leave (halfOpen : s.circuit.phase = .halfOpen n)
    (inside : s.inside.any (·.caller == caller) = true) (outcome : Outcome) (next : Nat) (wait : τ) :
    ((s.leave caller outcome).enter next).1 = some wait ↔
      outcome = .failed ∧ 0 < s.circuit.limits.pause ∧ wait = s.circuit.limits.pause := by
  rw [told_enter, enter_refused_iff]
  simp only [leave, inside, if_true]
  cases outcome with
  | cancelled => simp [halfOpen]
  | failed => simp [Circuit.fail, halfOpen]
  | succeeded =>
    simp only [succeed, halfOpen]
    split <;> simp

/-! ### What every move keeps -/

theorem limits_move (s : Crowd τ) (m : Move τ) :
    (s.move m).2.circuit.limits = s.circuit.limits := by
  cases m with
  | enter caller => exact settled_limits s.circuit s.now
  | idle i =>
    cases i with
    | look => exact settled_limits s.circuit s.now
    | ask => rfl
    | wait span => rfl
  | leave caller outcome =>
    simp only [move, leave]
    split
    · cases outcome with
      | succeeded => exact limits_succeed s.circuit
      | failed => rfl
      | cancelled => rfl
    · rfl

theorem limits_run (s : Crowd τ) (moves : List (Move τ)) :
    (s.run moves).2.circuit.limits = s.circuit.limits := by
  induction moves generalizing s with
  | nil => rfl
  | cons m rest ih => exact (ih _).trans (limits_move s m)

/-- As long as callers come one at a time, there is at most one inside. -/
theorem inside_move (few : s.inside.length ≤ 1) {m : Move τ}
    (alone : m.isArrival = true → s.inside = []) : (s.move m).2.inside.length ≤ 1 := by
  cases m with
  | enter caller =>
    simp only [move, enter, alone rfl]
    split <;> simp
  | idle i => cases i <;> exact few
  | leave caller outcome =>
    simp only [move, leave]
    split
    · exact List.length_eraseP_le.trans few
    · exact few

theorem inside_run (few : s.inside.length ≤ 1) {moves : List (Move τ)} (alone : s.OneAtATime moves) :
    (s.run moves).2.inside.length ≤ 1 := by
  induction moves generalizing s with
  | nil => exact few
  | cons m rest ih => exact ih (inside_move few alone.1) alone.2

/-! ### Trials -/

/-- However calls through a circuit overlap, a caller is turned away exactly while an opened circuit
pauses. A half-open one lets every caller through, so that the trials under way are as many as come;
of the ends of a trial only a failure keeps the next caller out. When callers come one at a time,
there is never more than one trial. -/
theorem run_trials (limits : Limits τ) (start : τ) (moves : List (Move τ)) :
    let s := ((fresh limits start).run moves).2
    (∀ caller wait, (s.enter caller).1 = some wait ↔ ∃ since, s.circuit.phase = .opened since ∧
      s.now < since + limits.pause ∧ wait = since + limits.pause - s.now) ∧
    (∀ n, (s.circuit.settled s.now).phase = .halfOpen n → ∀ callers : List Nat,
      (s.run (callers.map .enter)).1 = callers.map (fun _ => none) ∧
      (s.run (callers.map .enter)).2.trials = callers.reverse.map (⟨·, true⟩) ++ s.trials ∧
      ((s.run (callers.map .enter)).2.circuit.settled s.now).phase = .halfOpen n) ∧
    (∀ n, s.circuit.phase = .halfOpen n →
      ∀ v ∈ s.trials, ∀ outcome next wait, ((s.leave v.caller outcome).enter next).1 = some wait ↔
        outcome = .failed ∧ 0 < limits.pause ∧ wait = limits.pause) ∧
    ((fresh limits start).OneAtATime moves → s.trials.length ≤ 1) := by
  intro s
  have kept : s.circuit.limits = limits := limits_run (fresh limits start) moves
  refine ⟨fun caller wait => ?_, fun n halfOpen => run_enter halfOpen, ?_, fun alone => ?_⟩
  · rw [told_enter, enter_refused_iff, kept]
  · intro n halfOpen v trial outcome next wait
    have inside : s.inside.any (·.caller == v.caller) = true :=
      List.any_eq_true.mpr ⟨v, List.mem_of_mem_filter trial, beq_self_eq_true _⟩
    rw [enter_leave halfOpen inside, kept]
  · have few : s.inside.length ≤ 1 := inside_run (s := fresh limits start) (Nat.zero_le 1) alone
    exact (List.length_filter_le _ _).trans few

/-- Two more callers come while a trial is under way; then the trial fails. -/
theorem run_trials_joined :
    let moves : List (Move Int) :=
      [.enter 1, .leave 1 .failed, .enter 2, .idle (.wait ⟨60, by decide⟩), .enter 3]
    let run := (fresh (.ofNat 1 1 60) 0).run moves
    run.1 = [none, some 60, none] ∧ run.2.circuit.phase = .halfOpen 0 ∧
    (run.2.run ([4, 5].map .enter)).1 = [none, none] ∧
    (run.2.run ([4, 5].map .enter)).2.trials = [⟨5, true⟩, ⟨4, true⟩, ⟨3, true⟩] ∧
    ((run.2.leave 3 .failed).enter 4).1 = some 60 ∧
    (fresh (.ofNat 1 1 60) (0 : Int)).OneAtATime moves ∧ run.2.trials.length ≤ 1 := by
  intro moves run
  obtain ⟨-, crowd, ended, alone⟩ := run_trials (.ofNat 1 1 60) (0 : Int) moves
  have halfOpen : run.2.circuit.phase = .halfOpen 0 := rfl
  have settled : (run.2.circuit.settled run.2.now).phase = .halfOpen 0 := rfl
  have trial : (⟨3, true⟩ : Visit) ∈ run.2.trials := List.mem_singleton.mpr rfl
  obtain ⟨told, trials, -⟩ := crowd 0 settled [4, 5]
  have refused := (ended 0 halfOpen _ trial .failed 4 60).mpr ⟨rfl, by decide, rfl⟩
  have single : (fresh (.ofNat 1 1 60) (0 : Int)).OneAtATime moves := by
    simp only [OneAtATime, moves]
    decide
  exact ⟨rfl, halfOpen, told, trials, refused, single, alone single⟩

/-- A half-open circuit lets a second trial through beside the first, and it lets the next caller
through after a trial that was given up and recorded no outcome. -/
theorem trials_overlap :
    let paused : Crowd Int := ((fresh (.ofNat 1 1 60) 0).run
      [.enter 1, .leave 1 .failed, .idle (.wait ⟨60, by decide⟩)]).2
    let both := paused.run [.enter 2, .enter 3]
    let afterwards := paused.run [.enter 2, .leave 2 .cancelled, .enter 3]
    (both.1 = [none, none] ∧ both.2.circuit.phase = .halfOpen 0 ∧
      both.2.trials = [⟨3, true⟩, ⟨2, true⟩]) ∧
    afterwards.1 = [none, none] ∧ afterwards.2.circuit.phase = .halfOpen 0 := by
  exact ⟨⟨rfl, rfl, rfl⟩, rfl, rfl⟩

end Crowd

end Time

end CodeAtlas.Circuit
