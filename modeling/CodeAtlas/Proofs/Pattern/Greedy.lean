import CodeAtlas.Pattern.Search
import Mathlib.Data.List.Basic

/-!
# Patterns that go as far as they can

What a pattern does with a text that is known piece by piece. A literal takes its text and nothing
else, and a run takes all that it accepts as long as what follows can go on from there. A pattern
that asks for the start of a line is found at most once in a text of one line.

## Main results

`Pattern.match?_text`, `Pattern.match?_run0`, `Pattern.match?_run1`: from one piece to the next.
`Pattern.Anchored.findAll`: the matches in a text of one line.
-/

namespace CodeAtlas

/-- The cursor behind a stretch of text that is followed by `rest`. -/
def Cursor.behind (c : Cursor) (passed rest : List Char) : Cursor :=
  ⟨passed.getLast?.or c.before, rest, c.offset + passed.length⟩

theorem Cursor.behind_cons (c : Cursor) (x : Char) (passed rest text : List Char) :
    c.behind (x :: passed) rest = (⟨some x, text, c.offset + 1⟩ : Cursor).behind passed rest := by
  simp only [behind, List.getLast?_cons, List.length_cons, Cursor.mk.injEq]
  refine ⟨?_, trivial, by omega⟩
  cases passed.getLast? <;> rfl

theorem Cursor.behind_behind (c : Cursor) (first second rest rest' : List Char) :
    (c.behind first rest).behind second rest' = c.behind (first ++ second) rest' := by
  simp [behind, List.getLast?_append, Option.or_assoc, Nat.add_assoc]

namespace Pattern

variable {follow : Follow} {c : Cursor} {captures : Captures} {found : Cursor × Captures}

/-! ## Literals -/

/-- A literal that stands at the cursor is passed. -/
theorem match?_text {s : String} {rest : List Char} (stands : c.rest = s.toList ++ rest) :
    (text s).match? follow c captures = follow (c.behind s.toList rest) captures := by
  unfold text
  generalize s.toList = literal at stands ⊢
  induction literal generalizing c with
  | nil =>
    obtain ⟨before, text, offset⟩ := c
    obtain rfl : text = rest := stands
    rfl
  | cons x xs ih =>
    rw [List.cons_append] at stands
    simp only [List.foldr_cons, match?, stands, beq_self_eq_true, if_true]
    rw [ih rfl, ← Cursor.behind_cons]

/-- A literal that does not stand at the cursor fails. -/
theorem match?_text_eq_none {s : String} (apart : ¬s.toList <+: c.rest) :
    (text s).match? follow c captures = none := by
  unfold text
  generalize s.toList = literal at apart ⊢
  induction literal generalizing c with
  | nil => exact absurd List.nil_prefix apart
  | cons x xs ih =>
    obtain ⟨before, text, offset⟩ := c
    cases text with
    | nil => rfl
    | cons y rest =>
      simp only [List.foldr_cons, match?]
      split
      · next same =>
        obtain rfl := eq_of_beq same
        exact ih fun inside => apart (List.cons_prefix_cons.mpr ⟨rfl, inside⟩)
      · rfl

/-! ## Runs -/

section Runs

variable {accepts : Char → Bool} {passed rest : List Char}

theorem runEnds_eq_cons (accepted : ∀ x ∈ passed, accepts x = true)
    (stops : ∀ x ∈ rest.head?, accepts x = false) (ends : List Cursor) (before : Option Char)
    (offset : Nat) :
    ∃ shorter, runEnds accepts none ends before (passed ++ rest) offset =
      (⟨before, [], offset⟩ : Cursor).behind passed rest :: shorter := by
  induction passed generalizing ends before offset with
  | nil =>
    cases rest with
    | nil => exact ⟨ends, rfl⟩
    | cons x rest => exact ⟨ends, by simp [runEnds, stops x rfl, Cursor.behind]⟩
  | cons x passed ih =>
    obtain ⟨is, accepted⟩ := List.forall_mem_cons.mp accepted
    obtain ⟨shorter, same⟩ := ih accepted (⟨before, x :: (passed ++ rest), offset⟩ :: ends) (some x)
      (offset + 1)
    refine ⟨shorter, ?_⟩
    rw [List.cons_append, runEnds.eq_def]
    simp only [is, if_true, Option.map_none]
    rw [same, Cursor.behind_cons]

/-- A run takes all that it accepts when what follows goes on from there. -/
theorem match?_run0 (stands : c.rest = passed ++ rest) (accepted : ∀ x ∈ passed, accepts x = true)
    (stops : ∀ x ∈ rest.head?, accepts x = false)
    (follows : follow (c.behind passed rest) captures = some found) :
    (run0 accepts).match? follow c captures = some found := by
  obtain ⟨shorter, same⟩ := runEnds_eq_cons accepted stops [] c.before c.offset
  rw [run0, match?, stands, same, List.findSome?_cons]
  simp only [show (⟨c.before, [], c.offset⟩ : Cursor).behind passed rest = c.behind passed rest from rfl,
    follows]

theorem match?_run1 (stands : c.rest = passed ++ rest) (filled : passed ≠ [])
    (accepted : ∀ x ∈ passed, accepts x = true) (stops : ∀ x ∈ rest.head?, accepts x = false)
    (follows : follow (c.behind passed rest) captures = some found) :
    (run1 accepts).match? follow c captures = some found := by
  obtain ⟨x, passed, rfl⟩ := List.exists_cons_of_ne_nil filled
  obtain ⟨is, accepted⟩ := List.forall_mem_cons.mp accepted
  rw [List.cons_append] at stands
  simp only [run1, match?, stands, is, if_true]
  refine match?_run0 rfl accepted stops ?_
  rwa [← Cursor.behind_cons]

/-- A run that accepts nothing at the cursor stays there. -/
theorem match?_run0_here (stops : ∀ x ∈ c.rest.head?, accepts x = false) :
    (run0 accepts).match? follow c captures = follow c captures := by
  obtain ⟨before, text, offset⟩ := c
  cases text with
  | nil => simp [run0, match?, runEnds]
  | cons x text => simp [run0, match?, runEnds, stops x rfl]

/-- A run of at least one character fails where there is none that it accepts. -/
theorem match?_run1_eq_none (stops : ∀ x ∈ c.rest.head?, accepts x = false) :
    (run1 accepts).match? follow c captures = none := by
  obtain ⟨before, text, offset⟩ := c
  cases text with
  | nil => rfl
  | cons x text => simp [run1, match?, stops x rfl]

end Runs

/-! ## Patterns at the start of a line -/

/-- The pattern matches nowhere but at the start of a line. -/
def Anchored (p : Pattern) : Prop :=
  ∀ follow c captures, c.atLineStart = false → p.match? follow c captures = none

theorem anchored_lineStart : lineStart.Anchored := by
  intro follow c captures inside
  simp [match?, inside]

theorem Anchored.seq {first : Pattern} (anchored : first.Anchored) (second : Pattern) :
    (first ++ second).Anchored :=
  fun _ c captures inside => anchored _ c captures inside

section Search

variable {p : Pattern}

theorem Anchored.findAll_go (anchored : p.Anchored) {x : Char} {rest : List Char}
    (line : '\n' ∉ x :: rest) (offset skip : Nat) :
    findAll.go p (some x) offset skip rest = [] := by
  have fails (x : Char) (whole : x ≠ '\n') (rest : List Char) (offset : Nat) :
      p.matchAt? ⟨some x, rest, offset⟩ = none := by
    rw [matchAt?, anchored _ _ _ (by simpa [Cursor.atLineStart] using whole)]
    rfl
  induction rest generalizing x offset skip with
  | nil =>
    have whole : x ≠ '\n' := fun same => line (same ▸ List.mem_cons_self)
    cases skip with
    | zero => rw [findAll.go, fails x whole]; rfl
    | succ skip => rfl
  | cons y rest ih =>
    have whole : x ≠ '\n' := fun same => line (same ▸ List.mem_cons_self)
    have further : '\n' ∉ y :: rest := fun mem => line (List.mem_cons_of_mem _ mem)
    cases skip with
    | zero =>
      rw [findAll.go, fails x whole]
      exact ih further (offset + 1) 0
    | succ skip => exact ih further (offset + 1) skip

/-- In a text of one line there is nothing to find but what stands at its start. -/
theorem Anchored.findAll (anchored : p.Anchored) {s : List Char} (line : '\n' ∉ s) :
    p.findAll s = (p.matchAt? (Cursor.start s)).toList := by
  cases s with
  | nil => rfl
  | cons x rest =>
    rw [Pattern.findAll, findAll.go,
      show (⟨none, x :: rest, 0⟩ : Cursor) = Cursor.start (x :: rest) from rfl]
    cases p.matchAt? (Cursor.start (x :: rest)) with
    | none => exact anchored.findAll_go line 1 0
    | some m => exact congrArg (m :: ·) (anchored.findAll_go line 1 _)

theorem Anchored.findAll_eq_singleton (anchored : p.Anchored) {s : List Char} (line : '\n' ∉ s)
    {stop : Cursor} {captures : Captures}
    (matched : p.match? (fun stop captures => some (stop, captures)) (.start s) [] =
      some (stop, captures)) : p.findAll s = [⟨⟨.start s, stop⟩, captures⟩] := by
  rw [anchored.findAll line, matchAt?, matched]
  rfl

theorem Anchored.findAll_eq_nil (anchored : p.Anchored) {s : List Char} (line : '\n' ∉ s)
    (fails : p.match? (fun stop captures => some (stop, captures)) (.start s) [] = none) :
    p.findAll s = [] := by
  rw [anchored.findAll line, matchAt?, fails]
  rfl

end Search

end Pattern

end CodeAtlas
