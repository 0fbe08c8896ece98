import CodeAtlas.Proofs.Pattern.Greedy
import CodeAtlas.Proofs.Pattern.Yield
import Mathlib.Data.List.Basic

/-!
# What a pattern spells

Where a pattern is tried only matters for its boundaries, line starts and the like. Leaving these
aside, a pattern spells certain texts, and every way through it passes over one of them. A pattern
that does not look around itself can match wherever a text that it spells is to be read, and with a
boundary in front of it, wherever such a text is to be read behind a boundary.

## Main results

`Pattern.Yields.spells`: what is passed is spelled.
`Pattern.Spells.yields`: what is spelled can be passed, when the pattern does not look around.
`Pattern.Led.exists_yields_iff`: both together for a pattern behind a boundary.
-/

namespace CodeAtlas

namespace Cursor

variable {c d : Cursor} {passed rest : List Char}

theorem passes_behind (stands : c.rest = passed ++ rest) : c.Passes passed (c.behind passed rest) :=
  ⟨stands, rfl, rfl⟩

theorem Passes.eq_behind (passes : c.Passes passed d) : d = c.behind passed d.rest := by
  obtain ⟨before, rest, offset⟩ := d
  obtain ⟨-, rfl, rfl⟩ := passes
  rfl

theorem Passes.eq_of_nil (passes : c.Passes [] d) : d = c := by
  have rest : c.rest = d.rest := passes.rest
  rw [passes.eq_behind, behind, ← rest]
  rfl

end Cursor

namespace Pattern

/-- The texts that a pattern spells, wherever it is tried. -/
def Spells : Pattern → List Char → Prop
  | here, w => w = []
  | one accepts, w => ∃ x, w = [x] ∧ accepts x = true
  | seq first second, w => ∃ u v, w = u ++ v ∧ first.Spells u ∧ second.Spells v
  | either first second, w => first.Spells w ∨ second.Spells w
  | run _ limit accepts, w => (∀ x ∈ w, accepts x = true) ∧ ∀ n ∈ limit, w.length ≤ n
  | many body, w => ∃ rounds : List (List Char), w = rounds.flatten ∧ ∀ u ∈ rounds, body.Spells u
  | capture _ body, w => body.Spells w
  | boundary, w => w = []
  | lineStart, w => w = []
  | textEnd, w => w = []
  | absent _, w => w = []

section

variable {p : Pattern} {c d : Cursor} {new : Captures} {w : List Char}

/-- What a pattern passes over, it spells. -/
theorem Yields.spells (yields : p.Yields c d new) : ∃ w, c.Passes w d ∧ p.Spells w := by
  induction yields with
  | @one accepts before x rest offset accepted => exact ⟨[x], .one .., x, rfl, accepted⟩
  | seq _ _ first second =>
    obtain ⟨u, first, spelled⟩ := first
    obtain ⟨v, second, spelled'⟩ := second
    exact ⟨u ++ v, first.trans second, u, v, rfl, spelled, spelled'⟩
  | left _ ih =>
    obtain ⟨w, passes, spelled⟩ := ih
    exact ⟨w, passes, .inl spelled⟩
  | right _ ih =>
    obtain ⟨w, passes, spelled⟩ := ih
    exact ⟨w, passes, .inr spelled⟩
  | run runs => exact runs
  | done => exact ⟨[], .refl _, [], rfl, by simp⟩
  | round _ _ first second =>
    obtain ⟨u, first, spelled⟩ := first
    obtain ⟨v, second, rounds, rfl, spelled'⟩ := second
    exact ⟨u ++ rounds.flatten, first.trans second, u :: rounds, rfl,
      List.forall_mem_cons.mpr ⟨spelled, spelled'⟩⟩
  | capture _ ih => exact ih
  | _ => exact ⟨[], .refl _, rfl⟩

/-- Nothing in the pattern looks around. -/
def Free : Pattern → Prop
  | seq first second => first.Free ∧ second.Free
  | either first second => first.Free ∧ second.Free
  | many body => body.Free
  | capture _ body => body.Free
  | boundary => False
  | lineStart => False
  | textEnd => False
  | absent _ => False
  | _ => True

/-- A text that is spelled can be passed. -/
theorem Spells.yields (spells : p.Spells w) (free : p.Free) {rest : List Char}
    (stands : c.rest = w ++ rest) : ∃ new, p.Yields c (c.behind w rest) new := by
  induction p generalizing w c rest with
  | here =>
    obtain rfl : w = [] := spells
    obtain ⟨before, text, offset⟩ := c
    obtain rfl : text = rest := stands
    exact ⟨[], .here⟩
  | one accepts =>
    obtain ⟨x, rfl, accepted⟩ := spells
    obtain ⟨before, text, offset⟩ := c
    obtain rfl : text = x :: rest := stands
    exact ⟨[], .one accepted⟩
  | seq first second ihFirst ihSecond =>
    obtain ⟨u, v, rfl, first, second⟩ := spells
    rw [List.append_assoc] at stands
    obtain ⟨new, head⟩ := ihFirst first free.1 stands
    obtain ⟨newer, tail⟩ := ihSecond (c := c.behind u (v ++ rest)) second free.2 rfl
    rw [Cursor.behind_behind] at tail
    exact ⟨newer ++ new, .seq head tail⟩
  | either first second ihFirst ihSecond =>
    rcases spells with spells | spells
    · obtain ⟨new, taken⟩ := ihFirst spells free.1 stands
      exact ⟨new, .left taken⟩
    · obtain ⟨new, taken⟩ := ihSecond spells free.2 stands
      exact ⟨new, .right taken⟩
  | run preference limit accepts =>
    exact ⟨[], .run ⟨w, Cursor.passes_behind stands, spells⟩⟩
  | many body ih =>
    -- The rounds are passed one behind the other, so the body is tried at a new place each time.
    obtain ⟨rounds, rfl, spelled⟩ := spells
    induction rounds generalizing c with
    | nil =>
      obtain ⟨before, text, offset⟩ := c
      obtain rfl : text = rest := stands
      exact ⟨[], .done⟩
    | cons u rounds ihRounds =>
      obtain ⟨here, later⟩ := List.forall_mem_cons.mp spelled
      rw [List.flatten_cons, List.append_assoc] at stands
      obtain ⟨new, head⟩ := ih here free stands
      obtain ⟨newer, tail⟩ := ihRounds (c := c.behind u (rounds.flatten ++ rest)) later rfl
      rw [Cursor.behind_behind] at tail
      exact ⟨newer ++ new, .round head tail⟩
  | capture name body ih =>
    obtain ⟨new, inside⟩ := ih spells free stands
    exact ⟨_, .capture inside⟩
  | boundary => exact free.elim
  | lineStart => exact free.elim
  | textEnd => exact free.elim
  | absent body => exact free.elim

/-- The pattern starts with a boundary and does not look around behind it. -/
def Led : Pattern → Prop
  | boundary => True
  | seq first second => first.Led ∧ second.Free
  | _ => False

/-- A pattern that starts with a boundary can match just where there is one in front of a text that
it spells. -/
theorem Led.exists_yields_iff (led : p.Led) :
    (∃ new, p.Yields c d new) ↔ c.atBoundary = true ∧ ∃ w, c.Passes w d ∧ p.Spells w := by
  constructor
  · rintro ⟨new, yields⟩
    refine ⟨?_, yields.spells⟩
    induction yields with
    | boundary stands => exact stands
    | seq _ _ first _ => exact first led.1
    | _ => exact led.elim
  · rintro ⟨stands, w, passes, spells⟩
    induction p generalizing w d with
    | boundary =>
      obtain rfl : w = [] := spells
      obtain rfl := passes.eq_of_nil
      exact ⟨[], .boundary stands⟩
    | seq first second ihFirst _ =>
      obtain ⟨u, v, rfl, head, tail⟩ := spells
      have stands : c.rest = u ++ (v ++ d.rest) := by rw [passes.rest, List.append_assoc]
      obtain ⟨new, head⟩ := ihFirst led.1 u (Cursor.passes_behind stands) head
      obtain ⟨newer, tail⟩ :=
        tail.yields (c := c.behind u (v ++ d.rest)) led.2 rfl
      rw [Cursor.behind_behind, ← passes.eq_behind] at tail
      exact ⟨newer ++ new, .seq head tail⟩
    | _ => exact led.elim

end

/-! ## The ways to put patterns together -/

section Combinators

variable {w : List Char}

@[simp] theorem spells_text (s : String) : (text s).Spells w ↔ w = s.toList := by
  unfold text
  induction s.toList generalizing w with
  | nil => rfl
  | cons x rest ih => simp [Spells, ih]

@[simp] theorem free_text (s : String) : (text s).Free :=
  (text_induction trivial (fun _ _ rest => ⟨trivial, rest⟩) s).1

theorem spells_oneOf {ps : List Pattern} : (oneOf ps).Spells w ↔ ∃ p ∈ ps, p.Spells w := by
  induction ps with
  | nil => simp [oneOf, Spells]
  | cons p rest ih =>
    cases rest with
    | nil => simp [oneOf]
    | cons q rest => simp [oneOf, Spells, ih]

@[simp] theorem spells_anyText (texts : List String) :
    (anyText texts).Spells w ↔ ∃ s ∈ texts, w = s.toList := by
  simp [anyText, spells_oneOf]

@[simp] theorem free_anyText (texts : List String) : (anyText texts).Free :=
  oneOf_induction trivial (fun _ _ first second => ⟨first, second⟩) (by simp)

end Combinators

end Pattern

end CodeAtlas
