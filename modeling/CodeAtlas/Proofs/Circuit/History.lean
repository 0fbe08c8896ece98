import CodeAtlas.Proofs.Circuit
import CodeAtlas.Proofs.Number.Order
import Mathlib.Algebra.Order.Group.Unbundled.Basic

/-!
# A circuit by its history

How a circuit stands at a time depends on the successes and failures of the calls that it let through
and on nothing else: when it was opened, whether it was closed since, and whether its pause is over.
That a circuit notices the end of its pause only when somebody looks makes no difference, and no more
do the counts that it keeps from an earlier phase.

## Main results

`Circuit.Session.run_history`: whatever was done with a circuit, calls one at a time, it stands as
`Circuit.standing` says by its log; calls that are cancelled and reads change no answer.

## Proof strategy

`Circuit.Reflects` ties a circuit to its log, one constructor for each phase. `Reflects.settled`,
`Reflects.succeed` and `Reflects.fail` are the steps, `Session.Faithful.run` is the induction. Two
sessions with the same log at the same time tell their callers the same, whatever their circuits have
noticed: `Session.Alike.run`.
-/

namespace CodeAtlas.Circuit

variable {τ : Type}

/-! ### What the history says -/

/-- A call that ended in a success or a failure, and when. -/
structure Verdict (τ : Type) where
  time : τ
  good : Bool

/-- The failures since the last success, in a log whose last verdict comes first. A circuit closes
with a success. -/
def failuresInARow (log : List (Verdict τ)) : Nat :=
  (log.takeWhile (!·.good)).length

/-- The successes since the last failure. A circuit opens with a failure. -/
def successesInARow (log : List (Verdict τ)) : Nat :=
  (log.takeWhile (·.good)).length

/-- When a circuit was opened, if nothing has closed it since. -/
def openedAt? (threshold trials : Nat) : List (Verdict τ) → Option τ
  | [] => none
  | v :: past =>
    match openedAt? threshold trials past with
    -- While it is closed, the failure that makes a row of `threshold` opens it.
    | none => if !v.good ∧ failuresInARow (v :: past) = threshold then some v.time else none
    -- From then on any failure opens it anew, and `trials` successes in a row close it.
    | some t =>
      if !v.good then some v.time
      else if successesInARow (v :: past) = trials then none else some t

theorem failuresInARow_cons (v : Verdict τ) (past : List (Verdict τ)) :
    failuresInARow (v :: past) = if v.good then 0 else failuresInARow past + 1 := by
  cases good : v.good <;> simp [failuresInARow, good]

theorem successesInARow_cons (v : Verdict τ) (past : List (Verdict τ)) :
    successesInARow (v :: past) = if v.good then successesInARow past + 1 else 0 := by
  cases good : v.good <;> simp [successesInARow, good]

section Counts

variable {threshold trials : Nat} {past log : List (Verdict τ)} {v : Verdict τ} {t : τ}

theorem openedAt?_cons_of_closed (closed : openedAt? threshold trials past = none) :
    openedAt? threshold trials (v :: past) =
      if !v.good ∧ failuresInARow (v :: past) = threshold then some v.time else none := by
  simp only [openedAt?, closed]

theorem openedAt?_cons_of_opened (opened : openedAt? threshold trials past = some t) :
    openedAt? threshold trials (v :: past) =
      if !v.good then some v.time
      else if successesInARow (v :: past) = trials then none else some t := by
  simp only [openedAt?, opened]

/-- While a circuit is closed, its failures are too few. -/
theorem failuresInARow_lt (opens : 0 < threshold) (closed : openedAt? threshold trials log = none) :
    failuresInARow log < threshold := by
  induction log with
  | nil => exact opens
  | cons v past ih =>
    rw [failuresInARow_cons]
    by_cases good : v.good = true
    · rwa [if_pos good]
    · cases before : openedAt? threshold trials past with
      | none =>
        have few := ih before
        rw [openedAt?_cons_of_closed before, failuresInARow_cons, if_neg good] at closed
        rw [if_neg good]
        have apart : failuresInARow past + 1 ≠ threshold := by
          rintro rfl
          simp [good] at closed
        omega
      | some t =>
        rw [openedAt?_cons_of_opened before, if_pos (by simp [good])] at closed
        cases closed

/-- While a circuit is not closed, its successes are too few. -/
theorem successesInARow_lt (closes : 0 < trials)
    (opened : openedAt? threshold trials log = some t) : successesInARow log < trials := by
  induction log generalizing t with
  | nil => cases opened
  | cons v past ih =>
    rw [successesInARow_cons]
    by_cases good : v.good = true
    · cases before : openedAt? threshold trials past with
      | none =>
        rw [openedAt?_cons_of_closed before] at opened
        simp [good] at opened
      | some t =>
        have few := ih before
        rw [openedAt?_cons_of_opened before, successesInARow_cons, if_pos good] at opened
        rw [if_pos good]
        have apart : successesInARow past + 1 ≠ trials := by
          rintro rfl
          simp [good] at opened
        omega
    · rwa [if_neg good]

end Counts

section Time

set_option linter.unusedSectionVars false

variable [AddCommGroup τ] [LinearOrder τ] [IsOrderedAddMonoid τ]

/-- How a circuit stands at a time. -/
def standing (threshold trials : Nat) (pause now : τ) (log : List (Verdict τ)) : Phase τ :=
  match openedAt? threshold trials log with
  | none => .closed
  | some t => if now < t + pause then .opened t else .halfOpen (successesInARow log)

/-- No verdict was given in the pause after an opening. -/
def Spaced (threshold trials : Nat) (pause : τ) : List (Verdict τ) → Prop
  | [] => True
  | v :: past => (∀ t, openedAt? threshold trials past = some t → t + pause ≤ v.time) ∧
    Spaced threshold trials pause past

/-- What came after an opening came after its pause. -/
theorem Spaced.elapsed {threshold trials : Nat} {pause t : τ} {v : Verdict τ}
    {later past : List (Verdict τ)} (spaced : Spaced threshold trials pause (later ++ v :: past))
    (opened : openedAt? threshold trials past = some t) : t + pause ≤ v.time := by
  induction later with
  | nil => exact spaced.1 t opened
  | cons w rest ih => exact ih spaced.2

/-! ### The circuit and its log -/

/-- The limits in numbers. -/
def Limits.ofNat (threshold trials : Nat) (pause : τ) : Limits τ :=
  ⟨.whole threshold, .whole trials, pause⟩

variable {threshold trials : Nat} {pause now : τ} {log : List (Verdict τ)} {c : Circuit τ}

/-- A circuit has come from its log, though it may not have noticed that its pause is over. -/
inductive Reflects (threshold trials : Nat) (pause now : τ) (log : List (Verdict τ)) :
    Circuit τ → Prop where
  | closed (closed : openedAt? threshold trials log = none) :
      Reflects threshold trials pause now log
        ⟨.ofNat threshold trials pause, .closed, failuresInARow log⟩
  | opened {t : τ} (opened : openedAt? threshold trials log = some t)
      (untried : successesInARow log = 0) (failures : Nat) :
      Reflects threshold trials pause now log ⟨.ofNat threshold trials pause, .opened t, failures⟩
  | halfOpen {t : τ} (opened : openedAt? threshold trials log = some t) (elapsed : t + pause ≤ now)
      (failures : Nat) :
      Reflects threshold trials pause now log
        ⟨.ofNat threshold trials pause, .halfOpen (successesInARow log), failures⟩

theorem retryAfter_opened (limits : Limits τ) (t : τ) (failures : Nat) (now : τ) :
    retryAfter ⟨limits, .opened t, failures⟩ now =
      if now < t + limits.pause then t + limits.pause - now else 0 := by
  have left : limits.pause - (now - t) = t + limits.pause - now := by abel
  simp only [retryAfter, left, sub_pos]

theorem settled_opened (limits : Limits τ) (t : τ) (failures : Nat) (now : τ) :
    settled ⟨limits, .opened t, failures⟩ now =
      if now < t + limits.pause then ⟨limits, .opened t, failures⟩
      else ⟨limits, .halfOpen 0, failures⟩ := by
  simp only [settled, retryAfter_opened]
  by_cases waits : now < t + limits.pause
  · simp only [if_pos waits, sub_pos]
  · simp only [if_neg waits, lt_self_iff_false, if_false]

namespace Reflects

theorem later {later : τ} (reflects : Reflects threshold trials pause now log c)
    (forward : now ≤ later) : Reflects threshold trials pause later log c := by
  cases reflects with
  | closed closed => exact .closed closed
  | opened opened untried failures => exact .opened opened untried failures
  | halfOpen opened elapsed failures => exact .halfOpen opened (elapsed.trans forward) failures

theorem settled (reflects : Reflects threshold trials pause now log c) :
    Reflects threshold trials pause now log (c.settled now) := by
  cases reflects with
  | closed closed => exact .closed closed
  | halfOpen opened elapsed failures => exact .halfOpen opened elapsed failures
  | @opened t opened untried failures =>
    rw [settled_opened]
    split
    · exact .opened opened untried failures
    next elapsed =>
      rw [← untried]
      exact .halfOpen opened (not_lt.mp elapsed) failures

/-- What is read of the phase is what the log says. -/
theorem phase_settled (reflects : Reflects threshold trials pause now log c) :
    (c.settled now).phase = standing threshold trials pause now log := by
  cases reflects with
  | closed closed => simp only [Circuit.settled, standing, closed]
  | halfOpen opened elapsed => simp only [Circuit.settled, standing, opened, if_neg (not_lt.mpr elapsed)]
  | @opened t opened untried failures =>
    rw [settled_opened, standing, opened, Limits.ofNat]
    simp only [untried]
    split <;> rfl

theorem isOpen_settled (reflects : Reflects threshold trials pause now log c) :
    (c.settled now).isOpen = true ↔
      ∃ t, openedAt? threshold trials log = some t ∧ now < t + pause := by
  have phase := reflects.phase_settled
  cases opened : openedAt? threshold trials log with
  | none =>
    rw [standing, opened] at phase
    simp [isOpen, phase]
  | some t =>
    simp only [standing, opened] at phase
    by_cases waits : now < t + pause
    · simp [isOpen, phase, waits]
    · simp [isOpen, phase, waits]

/-- How long the circuit stays open is what the log says. -/
theorem retryAfter (reflects : Reflects threshold trials pause now log c) :
    c.retryAfter now = match openedAt? threshold trials log with
      | some t => if now < t + pause then t + pause - now else 0
      | none => 0 := by
  cases reflects with
  | closed closed => simp only [Circuit.retryAfter, closed]
  | opened opened untried failures => rw [retryAfter_opened, opened]; rfl
  | halfOpen opened elapsed => simp only [Circuit.retryAfter, opened, if_neg (not_lt.mpr elapsed)]

/-- A call is refused as long as the pause lasts, and is told how long that is. -/
theorem enter_eq (reflects : Reflects threshold trials pause now log c) (wait : τ) :
    (c.enter now).1 = some wait ↔ ∃ t, openedAt? threshold trials log = some t ∧
      now < t + pause ∧ wait = t + pause - now := by
  have shutIff := reflects.isOpen_settled
  have left := reflects.settled.retryAfter
  simp only [enter]
  by_cases shut : (c.settled now).isOpen = true
  · obtain ⟨t, opened, waits⟩ := shutIff.mp shut
    rw [if_pos shut, left, opened]
    simp [waits, eq_comm]
  · rw [if_neg shut]
    simp only [reduceCtorEq, false_iff]
    rintro ⟨t, opened, waits, -⟩
    exact shut (shutIff.mpr ⟨t, opened, waits⟩)

theorem retryAfter_eq (reflects : Reflects threshold trials pause now log c) :
    c.retryAfter now = (c.enter now).1.getD 0 := by
  rw [reflects.retryAfter]
  cases told : (c.enter now).1 with
  | some wait =>
    obtain ⟨t, opened, waits, rfl⟩ := (reflects.enter_eq wait).mp told
    simp only [opened, if_pos waits, Option.getD_some]
  | none =>
    split
    next t opened =>
      refine if_neg fun waits => ?_
      have refused := (reflects.enter_eq _).mpr ⟨t, opened, waits, rfl⟩
      rw [told] at refused
      cases refused
    · rfl

/-- A circuit that lets calls through was opened no later than a pause ago. -/
theorem elapsed {t : τ} (reflects : Reflects threshold trials pause now log c)
    (through : c.isOpen = false) (opened : openedAt? threshold trials log = some t) :
    t + pause ≤ now := by
  cases reflects with
  | closed closed => cases closed.symm.trans opened
  | opened => cases through
  | halfOpen opened' elapsed =>
    obtain rfl := Option.some.inj (opened'.symm.trans opened)
    exact elapsed

theorem succeed (closes : 0 < trials) (reflects : Reflects threshold trials pause now log c)
    (through : c.isOpen = false) :
    Reflects threshold trials pause now (⟨now, true⟩ :: log) c.succeed := by
  have row : successesInARow (⟨now, true⟩ :: log) = successesInARow log + 1 :=
    successesInARow_cons _ _
  cases reflects with
  | closed closed =>
    have still : openedAt? threshold trials (⟨now, true⟩ :: log) = none := by
      simp [openedAt?_cons_of_closed closed]
    exact .closed still
  | opened => cases through
  | @halfOpen t opened elapsed failures =>
    have few := successesInARow_lt closes opened
    have after := openedAt?_cons_of_opened (v := ⟨now, true⟩) opened
    simp only [Bool.not_true, Bool.false_eq_true, if_false] at after
    simp only [Circuit.succeed, Limits.ofNat, Number.Scalar.whole_le_whole]
    split
    next enough =>
      rw [if_pos (by omega)] at after
      exact .closed after
    next short =>
      rw [if_neg (by omega)] at after
      rw [← row]
      exact .halfOpen after elapsed failures

theorem fail (opens : 0 < threshold) (reflects : Reflects threshold trials pause now log c)
    (through : c.isOpen = false) :
    Reflects threshold trials pause now (⟨now, false⟩ :: log) (c.fail now) := by
  have row : failuresInARow (⟨now, false⟩ :: log) = failuresInARow log + 1 := failuresInARow_cons _ _
  have untried : successesInARow (⟨now, false⟩ :: log) = 0 := successesInARow_cons _ _
  cases reflects with
  | closed closed =>
    have few := failuresInARow_lt opens closed
    have after := openedAt?_cons_of_closed (v := ⟨now, false⟩) closed
    simp only [Bool.not_false, true_and] at after
    simp only [Circuit.fail, Limits.ofNat, Number.Scalar.whole_le_whole, decide_eq_true_eq]
    split
    next enough =>
      rw [if_pos (by omega)] at after
      exact .opened after untried _
    next short =>
      rw [if_neg (by omega)] at after
      rw [← row]
      exact .closed after
  | opened => cases through
  | halfOpen opened elapsed failures =>
    exact .opened (openedAt?_cons_of_opened opened) untried _

end Reflects

/-! ### Sessions -/

/-- How a call ends that a circuit let through. -/
inductive Outcome where
  | succeeded
  | failed
  /-- The caller gives it up. -/
  | cancelled
  deriving DecidableEq

/-- What may happen besides calls. -/
inductive Idle (τ : Type) [AddCommGroup τ] [LinearOrder τ] where
  /-- The phase is read, or whether calls are let through. -/
  | look
  /-- It is read how long the circuit stays open. -/
  | ask
  /-- Time passes. -/
  | wait (span : {d : τ // 0 ≤ d})

/-- The circuit is read. -/
def Idle.isRead : Idle τ → Bool
  | look | ask => true
  | wait _ => false

/-- What is done with a circuit: calls are made one at a time, and besides them there is what happens
during each and between them. -/
inductive Use (τ : Type) [AddCommGroup τ] [LinearOrder τ] where
  | idle (idle : Idle τ)
  | call (during : List (Idle τ)) (outcome : Outcome)

/-- A circuit in use. -/
structure Session (τ : Type) where
  now : τ
  circuit : Circuit τ
  /-- The successes and failures of calls, the last one first. -/
  log : List (Verdict τ)

/-- The uses without the reads among them. -/
def withoutReads : List (Use τ) → List (Use τ)
  | [] => []
  | .idle i :: rest => if i.isRead then withoutReads rest else .idle i :: withoutReads rest
  | .call during outcome :: rest =>
    .call (during.filter (!·.isRead)) outcome :: withoutReads rest

namespace Session

/-- A circuit of which no use was made. -/
def fresh (limits : Limits τ) (now : τ) : Session τ :=
  ⟨now, .fresh limits, []⟩

/-- The session after something that is no call. -/
def idle (s : Session τ) : Idle τ → Session τ
  | .look => { s with circuit := s.circuit.settled s.now }
  | .ask => s
  | .wait span => { s with now := s.now + span }

/-- The session after a call that was let through has ended. -/
def finish (s : Session τ) : Outcome → Session τ
  | .succeeded => { s with circuit := s.circuit.succeed, log := ⟨s.now, true⟩ :: s.log }
  | .failed => { s with circuit := s.circuit.fail s.now, log := ⟨s.now, false⟩ :: s.log }
  | .cancelled => s

/-- The session after a use, with what the callers were told: a refused one how long to wait, one that
was let through nothing. -/
def use (s : Session τ) : Use τ → List (Option τ) × Session τ
  | .idle i => ([], s.idle i)
  | .call during outcome =>
    let (refused, circuit) := s.circuit.enter s.now
    let s := { s with circuit }
    ([refused], if refused.isSome then s else (during.foldl idle s).finish outcome)

/-- The session after some uses, with what the callers were told. -/
def run (s : Session τ) : List (Use τ) → List (Option τ) × Session τ
  | [] => ([], s)
  | u :: rest =>
    let (told, s) := s.use u
    let (more, s) := s.run rest
    (told ++ more, s)

/-- The session has come from its log. -/
structure Faithful (threshold trials : Nat) (pause : τ) (s : Session τ) : Prop where
  reflects : Reflects threshold trials pause s.now s.log s.circuit
  spaced : Spaced threshold trials pause s.log
  past : ∀ v ∈ s.log, v.time ≤ s.now

section Run

variable {threshold trials : Nat} {pause : τ} {s s' : Session τ} {during : List (Idle τ)}
variable {outcome : Outcome}

theorem use_refused {wait : τ} (refused : (s.circuit.enter s.now).1 = some wait) :
    s.use (.call during outcome) = ([some wait], s.idle .look) := by
  simp only [use, refused, Option.isSome_some, if_true]
  rfl

theorem use_through (told : (s.circuit.enter s.now).1 = none) :
    s.use (.call during outcome) =
      ([none], (during.foldl idle (s.idle .look)).finish outcome) := by
  simp only [use, told, Option.isSome_none, Bool.false_eq_true, if_false]
  rfl

theorem not_open_look (told : (s.circuit.enter s.now).1 = none) :
    (s.idle .look).circuit.isOpen = false := by
  by_contra shut
  have opened : (s.circuit.settled s.now).isOpen = true := Bool.eq_true_of_not_eq_false shut
  simp only [enter, opened, if_true, reduceCtorEq] at told

namespace Faithful

theorem fresh (threshold trials : Nat) (pause start : τ) :
    (fresh (.ofNat threshold trials pause) start).Faithful threshold trials pause :=
  ⟨.closed rfl, trivial, List.forall_mem_nil _⟩

theorem later {later : τ} (faithful : s.Faithful threshold trials pause) (forward : s.now ≤ later) :
    Faithful threshold trials pause { s with now := later } :=
  ⟨faithful.reflects.later forward, faithful.spaced,
    fun v member => (faithful.past v member).trans forward⟩

theorem idle (faithful : s.Faithful threshold trials pause) (i : Idle τ) :
    (s.idle i).Faithful threshold trials pause := by
  cases i with
  | look => exact { faithful with reflects := faithful.reflects.settled }
  | ask => exact faithful
  | wait span => exact faithful.later (le_add_of_nonneg_right span.2)

theorem idles (faithful : s.Faithful threshold trials pause) (through : s.circuit.isOpen = false)
    (during : List (Idle τ)) :
    (during.foldl Session.idle s).Faithful threshold trials pause ∧
      (during.foldl Session.idle s).circuit.isOpen = false := by
  induction during generalizing s with
  | nil => exact ⟨faithful, through⟩
  | cons i rest ih =>
    refine ih (faithful.idle i) ?_
    cases i with
    | look => exact not_open_settled through
    | ask => exact through
    | wait span => exact through

theorem finish (opens : 0 < threshold) (closes : 0 < trials)
    (faithful : s.Faithful threshold trials pause) (through : s.circuit.isOpen = false)
    (outcome : Outcome) : (s.finish outcome).Faithful threshold trials pause := by
  have elapsed := fun t => faithful.reflects.elapsed (t := t) through
  cases outcome with
  | succeeded => exact ⟨faithful.reflects.succeed closes through, ⟨elapsed, faithful.spaced⟩,
      List.forall_mem_cons.mpr ⟨le_refl _, faithful.past⟩⟩
  | failed => exact ⟨faithful.reflects.fail opens through, ⟨elapsed, faithful.spaced⟩,
      List.forall_mem_cons.mpr ⟨le_refl _, faithful.past⟩⟩
  | cancelled => exact faithful

/-- The pause after any opening of the past is the one after the last, if it lasts. -/
theorem opened_of_suffix (faithful : s.Faithful threshold trials pause) {past : List (Verdict τ)}
    (suffix : past <:+ s.log) {t : τ} (opened : openedAt? threshold trials past = some t)
    (waits : s.now < t + pause) : openedAt? threshold trials s.log = some t := by
  obtain ⟨since, log⟩ := suffix
  cases since using List.reverseRecOn with
  | nil => rwa [← log]
  | append_singleton rest v =>
    rw [List.append_assoc, List.singleton_append] at log
    have elapsed := (log ▸ faithful.spaced).elapsed opened
    have ended := faithful.past v (log ▸ List.mem_append_right _ List.mem_cons_self)
    exact absurd waits (not_lt.mpr (elapsed.trans ended))

theorem use (opens : 0 < threshold) (closes : 0 < trials)
    (faithful : s.Faithful threshold trials pause) (u : Use τ) :
    (s.use u).2.Faithful threshold trials pause := by
  cases u with
  | idle i => exact faithful.idle i
  | call during outcome =>
    have looked := faithful.idle .look
    cases told : (s.circuit.enter s.now).1 with
    | some wait =>
      rw [use_refused told]
      exact looked
    | none =>
      rw [use_through told]
      obtain ⟨still, stays⟩ := looked.idles (not_open_look told) during
      exact still.finish opens closes stays outcome

theorem run (opens : 0 < threshold) (closes : 0 < trials)
    (faithful : s.Faithful threshold trials pause) (uses : List (Use τ)) :
    (s.run uses).2.Faithful threshold trials pause := by
  induction uses generalizing s with
  | nil => exact faithful
  | cons u rest ih => exact ih (faithful.use opens closes u)

end Faithful

/-- Without calls the log stays as it is, and time goes on. -/
theorem idles_log (s : Session τ) (during : List (Idle τ)) :
    (during.foldl idle s).log = s.log ∧ s.now ≤ (during.foldl idle s).now := by
  induction during generalizing s with
  | nil => exact ⟨rfl, le_refl _⟩
  | cons i rest ih =>
    obtain ⟨log, forward⟩ := ih (s.idle i)
    cases i with
    | wait span => exact ⟨log, (le_add_of_nonneg_right span.2).trans forward⟩
    | look => exact ⟨log, forward⟩
    | ask => exact ⟨log, forward⟩

/-- A cancelled call leaves no trace but the time that it took. -/
theorem use_cancelled (s : Session τ) (during : List (Idle τ)) :
    (s.use (.call during .cancelled)).2.log = s.log ∧
      s.now ≤ (s.use (.call during .cancelled)).2.now := by
  cases told : (s.circuit.enter s.now).1 with
  | some wait =>
    rw [use_refused told]
    exact ⟨rfl, le_refl _⟩
  | none =>
    rw [use_through told]
    exact idles_log (s.idle .look) during

/-- Two sessions at the same time that have come from the same log. -/
structure Alike (threshold trials : Nat) (pause : τ) (s s' : Session τ) : Prop where
  now : s'.now = s.now
  log : s'.log = s.log
  left : s.Faithful threshold trials pause
  right : s'.Faithful threshold trials pause

namespace Alike

theorem refl (faithful : s.Faithful threshold trials pause) : Alike threshold trials pause s s :=
  ⟨rfl, rfl, faithful, faithful⟩

/-- Their callers are told the same. -/
theorem enter (alike : Alike threshold trials pause s s') :
    (s'.circuit.enter s'.now).1 = (s.circuit.enter s.now).1 := by
  refine Option.ext fun wait => ?_
  rw [alike.left.reflects.enter_eq, alike.right.reflects.enter_eq, alike.now, alike.log]

theorem idle (alike : Alike threshold trials pause s s') (i : Idle τ) :
    Alike threshold trials pause (s.idle i) (s'.idle i) := by
  refine ⟨?_, ?_, alike.left.idle i, alike.right.idle i⟩
  · cases i with
    | wait span => exact congrArg (· + _) alike.now
    | _ => exact alike.now
  · cases i <;> exact alike.log

/-- A read on one side makes no difference. -/
theorem read (alike : Alike threshold trials pause s s') {i : Idle τ} (read : i.isRead = true) :
    Alike threshold trials pause (s.idle i) s' := by
  cases i with
  | look => exact ⟨alike.now, alike.log, alike.left.idle .look, alike.right⟩
  | ask => exact alike
  | wait span => cases read

theorem idles (alike : Alike threshold trials pause s s') (during : List (Idle τ)) :
    Alike threshold trials pause (during.foldl Session.idle s)
      ((during.filter (!·.isRead)).foldl Session.idle s') := by
  induction during generalizing s s' with
  | nil => exact alike
  | cons i rest ih =>
    by_cases read : i.isRead = true
    · rw [List.filter_cons_of_neg (by simp [read])]
      exact ih (alike.read read)
    · rw [List.filter_cons_of_pos (by simp [read])]
      exact ih (alike.idle i)

theorem finish (opens : 0 < threshold) (closes : 0 < trials)
    (alike : Alike threshold trials pause s s') (left : s.circuit.isOpen = false)
    (right : s'.circuit.isOpen = false) (outcome : Outcome) :
    Alike threshold trials pause (s.finish outcome) (s'.finish outcome) := by
  refine ⟨?_, ?_, alike.left.finish opens closes left outcome,
    alike.right.finish opens closes right outcome⟩
  · cases outcome <;> exact alike.now
  · cases outcome with
    | cancelled => exact alike.log
    | _ => simp only [Session.finish, alike.now, alike.log]

/-- Their callers are told the same, also when only on one side there are reads. -/
theorem run (opens : 0 < threshold) (closes : 0 < trials)
    (alike : Alike threshold trials pause s s') (uses : List (Use τ)) :
    (s'.run (withoutReads uses)).1 = (s.run uses).1 := by
  induction uses generalizing s s' with
  | nil => rfl
  | cons u rest ih =>
    cases u with
    | idle i =>
      by_cases read : i.isRead = true
      · simp only [withoutReads, read, if_true]
        exact ih (alike.read read)
      · simp only [withoutReads, read]
        exact ih (alike.idle i)
    | call during outcome =>
      have looked := alike.idle .look
      simp only [withoutReads, Session.run]
      cases told : (s.circuit.enter s.now).1 with
      | some wait =>
        rw [use_refused told, use_refused (alike.enter.trans told)]
        exact congrArg (some wait :: ·) (ih looked)
      | none =>
        have told' := alike.enter.trans told
        have left := (looked.left.idles (not_open_look told) during).2
        have right := (looked.right.idles (not_open_look told') (during.filter (!·.isRead))).2
        rw [use_through told, use_through told']
        exact congrArg (none :: ·)
          (ih ((looked.idles during).finish opens closes left right outcome))

end Alike

/-- However a circuit was used, calls one at a time, it stands as its log says: a call is refused, and
told how long to wait, as long as the pause after an opening lasts. A call that was cancelled changes
no later answer, and reads change none. -/
theorem run_history (opens : 0 < threshold) (closes : 0 < trials) (pause start : τ)
    (uses : List (Use τ)) :
    let s := ((fresh (.ofNat threshold trials pause) start).run uses).2
    (s.circuit.settled s.now).phase = standing threshold trials pause s.now s.log ∧
    (∀ wait, (s.circuit.enter s.now).1 = some wait ↔ ∃ past t, past <:+ s.log ∧
      openedAt? threshold trials past = some t ∧ s.now < t + pause ∧ wait = t + pause - s.now) ∧
    s.circuit.retryAfter s.now = (s.circuit.enter s.now).1.getD 0 ∧
    (∀ during rest, let s' := (s.use (.call during .cancelled)).2
      (s'.run rest).1 = ({ s with now := s'.now }.run rest).1) ∧
    ∀ uses', withoutReads uses' = withoutReads uses →
      ((fresh (.ofNat threshold trials pause) start).run uses').1 =
        ((fresh (.ofNat threshold trials pause) start).run uses).1 := by
  intro s
  have first := Faithful.fresh threshold trials pause start
  have faithful : s.Faithful threshold trials pause := first.run opens closes uses
  refine ⟨faithful.reflects.phase_settled, fun wait => ?_, faithful.reflects.retryAfter_eq, ?_, ?_⟩
  · rw [faithful.reflects.enter_eq]
    constructor
    · rintro ⟨t, opened, waits, told⟩
      exact ⟨s.log, t, List.suffix_refl _, opened, waits, told⟩
    · rintro ⟨past, t, suffix, opened, waits, told⟩
      exact ⟨t, faithful.opened_of_suffix suffix opened waits, waits, told⟩
  · intro during rest s'
    obtain ⟨log, forward⟩ := use_cancelled s during
    have later := faithful.later forward
    have alike : Alike threshold trials pause s' { s with now := s'.now } :=
      ⟨rfl, log.symm, faithful.use opens closes _, later⟩
    rw [← alike.run opens closes rest, (Alike.refl later).run opens closes rest]
  · intro uses' same
    have one := (Alike.refl first).run opens closes uses
    have other := (Alike.refl first).run opens closes uses'
    rw [← other, same, one]

/-- A failed trial opens the circuit anew, whatever was read and given up before. -/
theorem run_history_reopened :
    let uses : List (Use Int) := [.call [] .failed, .call [.wait ⟨1, by decide⟩] .failed, .idle .look,
      .call [] .succeeded, .idle (.wait ⟨10, by decide⟩), .call [] .cancelled,
      .call [.look, .wait ⟨2, by decide⟩] .failed, .idle .ask, .idle (.wait ⟨4, by decide⟩)]
    let run := (fresh (.ofNat 2 1 10) 0).run uses
    run.1 = [none, none, some 10, none, none] ∧
      run.2.log = [⟨13, false⟩, ⟨1, false⟩, ⟨0, false⟩] ∧
      (run.2.circuit.settled 17).phase = .opened 13 ∧
      ∀ wait, (run.2.circuit.enter 17).1 = some wait ↔ ∃ past t, past <:+ run.2.log ∧
        openedAt? 2 1 past = some t ∧ 17 < t + 10 ∧ wait = t + 10 - 17 := by
  intro uses run
  obtain ⟨phase, enter, -⟩ :=
    run_history (show 0 < 2 by decide) (show 0 < 1 by decide) (10 : Int) 0 uses
  exact ⟨rfl, rfl, phase, enter⟩

end Run

end Session

end Time

end CodeAtlas.Circuit
