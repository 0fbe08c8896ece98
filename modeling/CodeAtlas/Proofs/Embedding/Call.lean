import CodeAtlas.Embedding.Embedder
import Mathlib.Tactic.Common

/-!
# The calls of a provider

A call is refused by an open circuit, has no time left, or is made; what is then heard from the
provider decides how it ends. Whichever it is, a call changes the circuit, the state of the provider
and what patience is left, and nothing else.

## Main results

`Embedder.call_shut`, `Embedder.call_untimely` and `Embedder.call_asked` are the ways a call goes;
`Embedder.call_cases` says of any call what it leaves alone and where its ending comes from.
-/

namespace CodeAtlas.Embedder

variable {τ σ : Type}

/-- What becomes of a call for `count` texts that the provider has ended in some way. -/
def heard (e : Embedder τ σ) (now : τ) (count : Nat) (deadline : Float) :
    Ending Failure (List (List Float)) → Ending Failure (List (List Float)) × Embedder τ σ
  | .value vectors =>
    if vectors.length == count then (.value vectors, { e with circuit := e.circuit.succeed })
    else (.raised (wrongCount count vectors.length), { e with circuit := e.circuit.succeed })
  | .raised f => e.callFailed now f
  | .timedOut => e.callFailed now (overdue deadline)
  | .never => e.giveUp now deadline

/-- What a refused call is told. -/
def refusal : Failure :=
  .plain .refused "Circuit 'embedding_provider' is open"

section Time

set_option linter.unusedSectionVars false

variable [Add τ] [Sub τ] [LE τ] [DecidableLE τ] [LT τ] [DecidableLT τ] [OfNat τ 0] {now : τ}

/-- The embedder with its circuit as it stands at a time. -/
def settle (e : Embedder τ σ) (now : τ) : Embedder τ σ :=
  { e with circuit := e.circuit.settled now }

/-- The circuit lets no call through. -/
def Shut (e : Embedder τ σ) (now : τ) : Prop :=
  (e.circuit.settled now).isOpen = true

instance (e : Embedder τ σ) (now : τ) : Decidable (e.Shut now) :=
  inferInstanceAs (Decidable ((e.circuit.settled now).isOpen = true))

variable {e : Embedder τ σ} {texts : List String} {limit : Option Float}

theorem giveUp_patient (patient : e.patience = none) (deadline : Float) :
    e.giveUp now deadline = e.callFailed now (overdue deadline) := by
  cases e
  cases patient
  rfl

theorem call_shut (shut : e.Shut now) :
    e.call now texts limit = (.raised refusal, e.settle now) := by
  have closed : (e.circuit.settled now).isOpen = true := shut
  simp only [call, Circuit.enter, closed, if_true]
  rfl

theorem call_unprovided (through : ¬ e.Shut now) (without : e.provider = none) :
    e.call now texts limit = (e.settle now).callFailed now (.plain .provider "no provider") := by
  have opened : (e.circuit.settled now).isOpen = false := Bool.eq_false_iff.mpr through
  simp only [call, Circuit.enter, opened, Bool.false_eq_true, if_false]
  cases e
  cases without
  rfl

theorem call_untimely {p : Provider σ} (through : ¬ e.Shut now) (given : e.provider = some p)
    (late : e.deadline limit ≤ 0) : e.call now texts limit =
      (e.settle now).callFailed now (overdue (e.deadline limit)) := by
  have opened : (e.circuit.settled now).isOpen = false := Bool.eq_false_iff.mpr through
  simp only [call, Circuit.enter, opened, Bool.false_eq_true, if_false]
  cases e
  cases given
  exact if_pos late

theorem call_asked {p : Provider σ} (through : ¬ e.Shut now) (given : e.provider = some p)
    (timely : ¬ e.deadline limit ≤ 0) : e.call now texts limit =
      { e.settle now with state := (p.answer e.state texts).2 }.heard now texts.length
        (e.deadline limit) (p.answer e.state texts).1 := by
  have opened : (e.circuit.settled now).isOpen = false := Bool.eq_false_iff.mpr through
  simp only [call, Circuit.enter, opened, Bool.false_eq_true, if_false]
  cases e
  cases given
  refine (if_neg timely).trans ?_
  split <;> simp only [heard, *] <;> rfl

/-- How a call for `count` texts may end after what the provider did. -/
inductive Heard (count : Nat) (patience : Option Float) :
    Ending Failure (List (List Float)) → Ending Failure (List (List Float)) → Prop where
  | value {vectors : List (List Float)} (right : vectors.length = count) :
      Heard count patience (.value vectors) (.value vectors)
  | raised (f : Failure) : Heard count patience (.raised f) (.raised f)
  /-- An answer of the wrong length, or none in time. -/
  | failed {ending : Ending Failure (List (List Float))} {f : Failure}
      (calm : ∀ g, ending ≠ .raised g) (foreseen : isForeseen f = true) :
      Heard count patience ending (.raised f)
  /-- The operation that the call was made for is given up first. -/
  | never (impatient : patience ≠ none) : Heard count patience .never .never

/-- What a call comes to. -/
inductive Called (e : Embedder τ σ) (texts : List String) :
    Ending Failure (List (List Float)) × Embedder τ σ → Prop where
  /-- The provider is not asked. -/
  | unasked {f : Failure} (foreseen : isForeseen f = true) (circuit : Circuit τ) :
      Called e texts (.raised f, { e with circuit })
  | asked {p : Provider σ} {ended ending : Ending Failure (List (List Float))}
      (given : e.provider = some p) (answer : (p.answer e.state texts).1 = ended)
      (heard : Heard texts.length e.patience ended ending) (circuit : Circuit τ)
      (patience : Option Float) (patient : e.patience = none → patience = none) :
      Called e texts (ending, { e with circuit, patience, state := (p.answer e.state texts).2 })

theorem call_cases {out : Ending Failure (List (List Float)) × Embedder τ σ}
    (called : e.call now texts limit = out) : e.Called texts out := by
  subst called
  by_cases shut : e.Shut now
  · rw [call_shut shut]
    exact .unasked rfl _
  cases given : e.provider with
  | none =>
    rw [call_unprovided shut given]
    exact .unasked rfl _
  | some p =>
    by_cases late : e.deadline limit ≤ 0
    · rw [call_untimely shut given late]
      exact .unasked rfl _
    rw [call_asked shut given late]
    cases answer : (p.answer e.state texts).1 with
    | value vectors =>
      simp only [heard]
      split
      next right => exact .asked given answer (.value (by simpa using right)) _ _ id
      next => exact .asked given answer (.failed nofun rfl) _ _ id
    | raised f => exact .asked given answer (.raised f) _ _ id
    | timedOut => exact .asked given answer (.failed nofun rfl) _ _ id
    | never =>
      simp only [heard, giveUp, settle]
      split
      next => exact .asked given answer (.failed nofun rfl) _ _ id
      next impatient =>
        have waits : e.patience ≠ none := by
          rw [impatient]
          nofun
        split
        · exact .asked given answer (.never waits) _ _ (absurd · waits)
        · exact .asked given answer (.failed nofun rfl) _ _ (absurd · waits)

theorem patience_call {e' : Embedder τ σ} {ending : Ending Failure (List (List Float))}
    (called : e.call now texts limit = (ending, e')) (patient : e.patience = none) :
    e'.patience = none := by
  cases call_cases called with
  | unasked foreseen circuit => exact patient
  | asked given answer heard circuit patience stays => exact stays patient

/-- A call that fails as nobody foresees does so because the provider does. -/
theorem raised_of_call {e' : Embedder τ σ} {f : Failure}
    (called : e.call now texts limit = (.raised f, e')) (unforeseen : isForeseen f = false) :
    ∃ p, e.provider = some p ∧ (p.answer e.state texts).1 = .raised f := by
  cases call_cases called with
  | unasked foreseen circuit => simp [foreseen] at unforeseen
  | asked given answer heard =>
    cases heard with
    | raised f => exact ⟨_, given, answer⟩
    | failed calm foreseen => simp [foreseen] at unforeseen

theorem impatient_of_call {e' : Embedder τ σ} (called : e.call now texts limit = (.never, e')) :
    e.patience ≠ none := by
  cases call_cases called with
  | asked given answer heard =>
    cases heard with
    | never impatient => exact impatient

theorem call_ne_timedOut {e' : Embedder τ σ} : e.call now texts limit ≠ (.timedOut, e') := by
  intro called
  cases call_cases called with
  | asked given answer heard => cases heard

theorem length_of_call {e' : Embedder τ σ} {vectors : List (List Float)}
    (called : e.call now texts limit = (.value vectors, e')) : vectors.length = texts.length := by
  cases call_cases called with
  | asked given answer heard =>
    cases heard with
    | value right => exact right

end Time

end CodeAtlas.Embedder
