import CodeAtlas.Index.Transaction
import Mathlib.Tactic.Common

/-!
# What a transaction does

A transaction either does all that its actions say or nothing. What the actions say when the storage
works is `Action.result`; the statements that they come to are `Action.statements`, and a fault
counts only when it meets one of these.

## Main results

`Index.write_cases` says once what a write can do to an index, `Index.write_faulted` what it does
when the storage fails at a statement that it comes to, and `Index.write_unfaulted` that no other
failure matters. Nothing else opens `Index.write`.
-/

namespace CodeAtlas

/-- No fault keeps a transaction from being undone. -/
def Faults.Undoable (faults : Faults) : Prop :=
  ∀ position, faults position .rollback = Option.none

theorem Faults.none_undoable : Faults.none.Undoable :=
  fun _ => rfl

namespace Action

/-- What actions make of tables when the storage works. -/
def result : List Action → Tables → Except Refusal Tables
  | [], t => .ok t
  | .stamp :: rest, t => result rest t
  | .run _ effect :: rest, t =>
    match effect t with
    | .error refusal => .error refusal
    | .ok t => result rest t

/-- The statements that actions come to when the storage works: all up to one that is refused. -/
def statements : List Action → Tables → List Statement
  | [], _ => []
  | .stamp :: rest, t => statements rest t
  | .run statement effect :: rest, t =>
    statement :: match effect t with
      | .error _ => []
      | .ok t => statements rest t

/-- One of the actions takes the time of the write. -/
def takesTime (actions : List Action) : Bool :=
  actions.any fun
    | .stamp => true
    | .run _ _ => false

theorem result_append (first second : List Action) (t : Tables) :
    result (first ++ second) t = (result first t).bind (result second) := by
  induction first generalizing t with
  | nil => rfl
  | cons a rest ih =>
    cases a with
    | stamp => exact ih t
    | run statement effect =>
      simp only [List.cons_append, result]
      cases effect t with
      | error refusal => rfl
      | ok t => exact ih t

/-- Statements that only look change nothing. -/
@[simp] theorem result_look (statement : Statement) (rest : List Action) (t : Tables) :
    result (look statement :: rest) t = result rest t := rfl

@[simp] theorem result_apply (statement : Statement) (effect : Tables → Tables)
    (rest : List Action) (t : Tables) :
    result (apply statement effect :: rest) t = result rest (effect t) := rfl

@[simp] theorem result_stamp (rest : List Action) (t : Tables) :
    result (stamp :: rest) t = result rest t := rfl

@[simp] theorem result_nil (t : Tables) : result [] t = .ok t := rfl

theorem result_bind (statement : Statement) (numbers : List Int) (effect : Tables → Tables)
    (rest : List Action) (t : Tables) :
    result (bind statement numbers effect :: rest) t =
      if numbers.all fits then result rest (effect t) else .error .oversized := by
  simp only [bind, result]
  by_cases all : numbers.all fits = true
  · simp only [if_pos all]
  · simp only [if_neg all]

end Action

namespace Progress

/-- Actions that were all run did what they say. -/
theorem run_complete {faults : Faults} {position : Nat} {actions : List Action} {p q : Progress}
    (complete : run faults position actions p = (none, q)) :
    Action.result actions p.tables = .ok q.tables ∧
      q.stamped = (p.stamped || Action.takesTime actions) := by
  induction actions generalizing position p with
  | nil =>
    simp only [run, Prod.mk.injEq, true_and] at complete
    subst complete
    simp [Action.takesTime]
  | cons a rest ih =>
    cases a with
    | stamp =>
      obtain ⟨result, stamped⟩ := ih complete
      exact ⟨result, by simpa [Action.takesTime] using stamped⟩
    | run statement effect =>
      -- A fault or a refusal would have stopped the actions.
      simp only [run] at complete
      split at complete
      · simp at complete
      · split at complete
        · simp at complete
        next t ran =>
          obtain ⟨result, stamped⟩ := ih complete
          exact ⟨by simpa only [Action.result, ran] using result,
            by simpa [Action.takesTime] using stamped⟩

/-- A fault at a statement that the actions come to stops them: the first such fault is told. -/
theorem run_faulted {faults : Faults} {position : Nat} {actions : List Action} {p : Progress}
    {k : Nat} {statement : Statement}
    (reached : (Action.statements actions p.tables)[k]? = some statement)
    (raised : (faults (position + k) statement).isSome) :
    ∃ j ≤ k, ∃ first, (Action.statements actions p.tables)[j]? = some first ∧
      ∃ reason, faults (position + j) first = some reason ∧
        ∃ q, run faults position actions p = (some (.storage reason), q) := by
  induction actions generalizing position p k with
  | nil => simp [Action.statements] at reached
  | cons a rest ih =>
    cases a with
    | stamp => exact ih (p := { p with stamped := true }) reached raised
    | run now effect =>
      simp only [Action.statements, run] at reached ⊢
      -- The present statement fails, or the fault lies further on.
      cases failing : faults position now with
      | some reason => exact ⟨0, Nat.zero_le k, now, rfl, reason, failing, p, rfl⟩
      | none =>
        cases k with
        | zero =>
          simp only [List.getElem?_cons_zero, Option.some.injEq] at reached
          subst reached
          simp [failing] at raised
        | succ k =>
          rw [List.getElem?_cons_succ] at reached
          cases ran : effect p.tables with
          -- A refused statement is the last, so nothing further on was come to.
          | error refusal => simp [ran] at reached
          | ok t =>
            rw [ran] at reached
            have later : (faults (position + 1 + k) statement).isSome := by
              rwa [Nat.add_right_comm]
            obtain ⟨j, early, first, found, reason, fault, q, stopped⟩ :=
              ih (p := { p with tables := t }) reached later
            refine ⟨j + 1, Nat.succ_le_succ early, first, ?_, reason, ?_, q, stopped⟩
            · simpa only [List.getElem?_cons_succ] using found
            · rwa [Nat.add_right_comm] at fault

/-- Faults that meet none of the statements that the actions come to do nothing. -/
theorem run_unfaulted {faults : Faults} {position : Nat} {actions : List Action} {p : Progress}
    (spared : ∀ k statement, (Action.statements actions p.tables)[k]? = some statement →
      faults (position + k) statement = none) :
    run faults position actions p = run Faults.none position actions p := by
  induction actions generalizing position p with
  | nil => rfl
  | cons a rest ih =>
    cases a with
    | stamp => exact ih (p := { p with stamped := true }) spared
    | run statement effect =>
      have first : faults position statement = none := spared 0 statement rfl
      simp only [run, first, Faults.none]
      cases ran : effect p.tables with
      | error refusal => rfl
      | ok t =>
        refine ih fun k later found => ?_
        rw [Nat.add_assoc, Nat.add_comm 1 k]
        refine spared (k + 1) later ?_
        simpa only [Action.statements, ran, List.getElem?_cons_succ] using found

/-- Without faults actions do what they say, and are stopped only by a refusal of their own. -/
theorem run_calm (position : Nat) (actions : List Action) (p : Progress) :
    match Action.result actions p.tables with
    | .ok t => run Faults.none position actions p =
        (none, ⟨t, p.stamped || Action.takesTime actions⟩)
    | .error refusal => ∃ q, run Faults.none position actions p = (some refusal, q) := by
  induction actions generalizing position p with
  | nil => simp [Action.result, run, Action.takesTime]
  | cons a rest ih =>
    cases a with
    | stamp => simpa [Action.result, run, Action.takesTime] using ih position { p with stamped := true }
    | run statement effect =>
      simp only [Action.result, run, Faults.none]
      cases ran : effect p.tables with
      | error refusal => exact ⟨p, rfl⟩
      | ok t => simpa [Action.takesTime] using ih (position + 1) { p with tables := t }

end Progress

namespace Index

variable {α : Type} {faults : Faults} {operation : String}
  {plan : Tables → Timestamp → List Action × α} {ix : Index}

/-- The clock after a write; it moves when the write took the time. -/
def clockAfter (ix : Index) (moved : Bool) : Int :=
  if moved then ix.clock + tick else ix.clock

/-- The statements of a write: its begin, what its actions come to, and its end. -/
def statementsOf (plan : Tables → Timestamp → List Action × α) (ix : Index) : List Statement :=
  .beginWrite :: Action.statements ((plan ix.tables ix.now).1 ++ [.look .commit]) ix.tables

/-- A write that cannot begin changes nothing. -/
theorem write_unbegun (opened : ix.isOpen = true) (settled : ix.begun = none) {reason : String}
    (starting : faults 0 .beginWrite = some reason) :
    ix.write faults operation plan = (.error (writeFailure operation reason), ix) := by
  simp only [write, opened, starting, giveUp, settled, failureOf, Bool.not_true,
    Bool.false_eq_true, if_false]

/-- Actions that were run up to the end of a write did what they say. -/
theorem run_committed {actions : List Action} {t : Tables} {p : Progress}
    (ran : Progress.run faults 1 (actions ++ [.look .commit]) { tables := t } = (none, p)) :
    Action.result actions t = .ok p.tables ∧ p.stamped = Action.takesTime actions := by
  obtain ⟨result, stamped⟩ := Progress.run_complete ran
  constructor
  -- The end of the write is a statement like the others, and changes nothing.
  · rw [Action.result_append] at result
    cases made : Action.result actions t with
    | error refusal => simp [made, Except.bind] at result
    | ok t => simpa [made, Except.bind] using result
  · simpa [Action.takesTime, Action.look] using stamped

/-- All that a write can do: what its actions say, or nothing but take the time. -/
theorem write_cases (operation : String) (plan : Tables → Timestamp → List Action × α)
    (undoable : faults.Undoable) (opened : ix.isOpen = true) (settled : ix.begun = none) :
    (∃ t, Action.result (plan ix.tables ix.now).1 ix.tables = .ok t ∧
      ix.write faults operation plan = (.ok (plan ix.tables ix.now).2,
        { ix with tables := t, clock := ix.clockAfter (Action.takesTime (plan ix.tables ix.now).1) })) ∨
    ∃ refusal moved, ix.write faults operation plan =
      (.error (failureOf operation refusal), { ix with clock := ix.clockAfter moved }) := by
  -- The cases follow where the write stops: at its begin, at no place, or at an action or its end.
  cases starting : faults 0 .beginWrite with
  | some reason =>
    refine .inr ⟨.storage reason, false, ?_⟩
    rw [write_unbegun opened settled starting]
    rfl
  | none =>
    cases ran : Progress.run faults 1 ((plan ix.tables ix.now).1 ++ [.look .commit])
        { tables := ix.tables } with
    | mk stopped p =>
      cases stopped with
      | none =>
        obtain ⟨result, moved⟩ := run_committed ran
        refine .inl ⟨p.tables, result, ?_⟩
        simp [write, opened, starting, settled, ran, moved, clockAfter]
      | some refusal =>
        refine .inr ⟨refusal, p.stamped, ?_⟩
        simp [write, opened, starting, settled, ran, giveUp, undoable _, clockAfter]

/-- A write that is not refused did what its actions say, whether or not it could have been
undone. -/
theorem write_ok (opened : ix.isOpen = true) (settled : ix.begun = none) {answer : α}
    (done : (ix.write faults operation plan).1 = .ok answer) :
    Action.result (plan ix.tables ix.now).1 ix.tables =
        .ok (ix.write faults operation plan).2.tables ∧
      answer = (plan ix.tables ix.now).2 ∧ (ix.write faults operation plan).2.isOpen = true ∧
      (ix.write faults operation plan).2.begun = none := by
  cases starting : faults 0 .beginWrite with
  | some reason =>
    rw [write_unbegun opened settled starting] at done
    cases done
  | none =>
    cases ran : Progress.run faults 1 ((plan ix.tables ix.now).1 ++ [.look .commit])
        { tables := ix.tables } with
    | mk stopped p =>
      cases stopped with
      | none =>
        obtain ⟨result, -⟩ := run_committed ran
        simp only [write, opened, starting, settled, ran, Bool.not_true, Bool.false_eq_true,
          if_false, Option.isSome_none] at done ⊢
        exact ⟨result, (Except.ok.inj done).symm, trivial, trivial⟩
      | some refusal => simp [write, opened, starting, settled, ran] at done

/-- A write that comes to a statement at which the storage fails is refused and changes nothing but
the clock. The first such failure is told. -/
theorem write_faulted (operation : String) (undoable : faults.Undoable) (opened : ix.isOpen = true)
    (settled : ix.begun = none) {k : Nat} {statement : Statement}
    (reached : (statementsOf plan ix)[k]? = some statement)
    (raised : (faults k statement).isSome) :
    ∃ j ≤ k, ∃ first, (statementsOf plan ix)[j]? = some first ∧
      ∃ reason, faults j first = some reason ∧ ∃ moved, ix.write faults operation plan =
        (.error (writeFailure operation reason), { ix with clock := ix.clockAfter moved }) := by
  cases starting : faults 0 .beginWrite with
  | some reason =>
    refine ⟨0, Nat.zero_le k, .beginWrite, rfl, reason, starting, false, ?_⟩
    rw [write_unbegun opened settled starting]
    rfl
  | none =>
    cases k with
    | zero =>
      -- The begin did not fail.
      simp only [statementsOf, List.getElem?_cons_zero, Option.some.injEq] at reached
      subst reached
      simp [starting] at raised
    | succ k =>
      rw [statementsOf, List.getElem?_cons_succ] at reached
      have later : (faults (1 + k) statement).isSome := by rwa [Nat.add_comm]
      obtain ⟨j, early, first, found, reason, fault, p, stopped⟩ :=
        Progress.run_faulted (p := { tables := ix.tables }) reached later
      refine ⟨j + 1, Nat.succ_le_succ early, first, ?_, reason, ?_, p.stamped, ?_⟩
      · simpa only [statementsOf, List.getElem?_cons_succ] using found
      · rwa [Nat.add_comm] at fault
      · simp [write, opened, starting, settled, stopped, giveUp, undoable _, failureOf, clockAfter]

/-- Faults count only at the statements of a write. -/
theorem write_unfaulted (undoable : faults.Undoable)
    (spared : ∀ k statement, (statementsOf plan ix)[k]? = some statement →
      faults k statement = none) :
    ix.write faults operation plan = ix.write Faults.none operation plan := by
  have begin_ : faults 0 .beginWrite = none := spared 0 _ rfl
  have same : Progress.run faults 1 ((plan ix.tables ix.now).1 ++ [.look .commit])
      { tables := ix.tables } = Progress.run Faults.none 1
        ((plan ix.tables ix.now).1 ++ [.look .commit]) { tables := ix.tables } :=
    Progress.run_unfaulted fun k statement found => by
      rw [Nat.add_comm]
      exact spared (k + 1) statement (by simpa only [statementsOf, List.getElem?_cons_succ])
  -- Giving up depends on the faults only when it cannot be done.
  have given (position : Nat) (refusal : Refusal) (ix : Index) :
      ix.giveUp faults position operation refusal =
        ix.giveUp Faults.none position operation refusal := by
    simp only [giveUp, undoable position, Faults.none]
  simp only [write, begin_, same, given, show Faults.none 0 .beginWrite = none from rfl]

/-- A write when the storage works: what its actions say, or their refusal. -/
theorem write_calm (operation : String) (plan : Tables → Timestamp → List Action × α)
    (opened : ix.isOpen = true) (settled : ix.begun = none) :
    match Action.result (plan ix.tables ix.now).1 ix.tables with
    | .ok t => ix.write Faults.none operation plan = (.ok (plan ix.tables ix.now).2,
        { ix with tables := t, clock := ix.clockAfter (Action.takesTime (plan ix.tables ix.now).1) })
    | .error refusal => ∃ moved, ix.write Faults.none operation plan =
        (.error (failureOf operation refusal), { ix with clock := ix.clockAfter moved }) := by
  have calm := Progress.run_calm 1 ((plan ix.tables ix.now).1 ++ [.look .commit])
    { tables := ix.tables }
  rw [Action.result_append] at calm
  cases made : Action.result (plan ix.tables ix.now).1 ix.tables with
  | ok t =>
    simp only [made, Except.bind, Action.result_look, Action.result_nil] at calm
    simp [write, opened, settled, Faults.none, clockAfter, Action.takesTime, Action.look] at calm ⊢
    simp [calm]
  | error refusal =>
    simp only [made, Except.bind] at calm
    obtain ⟨p, stopped⟩ := calm
    exact ⟨p.stamped, by
      simp [write, opened, settled, show Faults.none 0 .beginWrite = none from rfl,
        Faults.none_undoable _, stopped, giveUp, clockAfter]⟩

end Index

end CodeAtlas
