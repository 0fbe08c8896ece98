import CodeAtlas.Proofs.Outline.Body
import Mathlib.Order.Bounds.Defs

/-!
# Brackets outside of literals and comments

The scan for a closing bracket reads and counts in one pass. It finds what is found in two: first
the characters of text literals and comments are struck out, then the brackets that are left are
counted up to the first place where as many are closed as are opened.

## Main results

`Extent.closingOffset_level`: the closing bracket is the first place where the brackets are level.

## Proof strategy

What the scan knows of a literal or comment is its mode, and what is struck out is a number of
characters. `Mode.pending` says how many characters a mode still has before it, and `bare_cons` that
this is kept along the text.
-/

namespace CodeAtlas

namespace Extent

/-! ## Reading in two passes -/

/-- The length of a text literal behind its opening quote. It ends with the same quote, a literal in
single or double quotes also with its line, and any with the text. A backslash takes up the
character behind it. -/
def literalLength (quote : Char) : List Char → Nat
  | [] => 0
  | [_] => 1
  | c :: d :: rest =>
    if c = '\\' then literalLength quote rest + 2
    else if c = quote ∨ c = '\n' ∧ quote ≠ '\x60' then 1
    else literalLength quote (d :: rest) + 1

/-- The length of a block comment behind its opening mark, up to the first star before a slash. -/
def blockLength : List Char → Nat
  | [] => 0
  | [_] => 1
  | c :: d :: rest => if c = '*' ∧ d = '/' then 2 else blockLength (d :: rest) + 1

/-- The length of the literal or comment that a text starts with; 0 when it starts with none. -/
def skippedLength : List Char → Nat
  | [] => 0
  | c :: rest =>
    if isTextQuote c = true then literalLength c rest + 1
    else if c = '/' ∧ rest.head? = some '/' then (rest.takeWhile (· != '\n')).length + 1
    else if c = '/' ∧ rest.head? = some '*' then blockLength rest.tail + 2
    else 0

/-- The characters of a text, with `none` in place of those that belong to a literal or comment. -/
def bare (text : List Char) : List (Option Char) :=
  go 0 text
where
  /-- `skip` more characters belong to the last literal or comment. -/
  go : Nat → List Char → List (Option Char)
    | _, [] => []
    | skip + 1, _ :: rest => none :: go skip rest
    | 0, c :: rest =>
      match skippedLength (c :: rest) with
      | 0 => some c :: go 0 rest
      | skip + 1 => none :: go skip rest

/-- From one offset of a content up to and with another there are as many opening as closing
brackets, what belongs to a literal or comment left out. -/
structure Brackets.Level (b : Brackets) (content : List Char) (start stop : Nat) : Prop where
  ordered : start ≤ stop
  inside : stop < content.length
  even : ((bare (content.drop start)).take (stop - start + 1)).count (some b.opener) =
    ((bare (content.drop start)).take (stop - start + 1)).count (some b.closer)

instance {b : Brackets} {content : List Char} {start stop : Nat} :
    Decidable (b.Level content start stop) :=
  decidable_of_iff (start ≤ stop ∧ stop < content.length ∧
    ((bare (content.drop start)).take (stop - start + 1)).count (some b.opener) =
      ((bare (content.drop start)).take (stop - start + 1)).count (some b.closer))
    ⟨fun ⟨ordered, inside, even⟩ => ⟨ordered, inside, even⟩,
      fun ⟨ordered, inside, even⟩ => ⟨ordered, inside, even⟩⟩

/-! ## Modes and what is struck out -/

/-- How many characters of a text belong to what a mode is in. -/
def Mode.pending : Mode → List Char → Nat
  | .code, _ => 0
  | .quoted quote, text => literalLength quote text
  | .escaped quote, text => literalLength quote text.tail + 1
  | .lineComment, text => (text.takeWhile (· != '\n')).length
  | .blockOpen, text => blockLength text.tail + 1
  | .block, text => blockLength text
  | .blockClose, _ => 1

/-- A line comment is left before its newline. -/
def Mode.Expects (mode : Mode) (text : List Char) : Prop :=
  mode = .lineComment → text.head? ≠ some '\n'

/-- How many more brackets are opened than closed. -/
def Brackets.excess (b : Brackets) (read : List (Option Char)) : Int :=
  (read.count (some b.opener) : Int) - read.count (some b.closer)

theorem Brackets.excess_cons (b : Brackets) (x : Option Char) (read : List (Option Char)) :
    b.excess (x :: read) = b.excess [x] + b.excess read := by
  simp only [excess, List.count_cons, List.count_nil]
  omega

theorem Brackets.excess_eq_zero {b : Brackets} {read : List (Option Char)} :
    b.excess read = 0 ↔ read.count (some b.opener) = read.count (some b.closer) := by
  rw [excess]
  omega

/-- Brackets that no literal or comment starts with. -/
structure Brackets.Legible (b : Brackets) : Prop where
  ordinary : b.Ordinary
  closer : isTextQuote b.closer = false

theorem legible_parentheses : parentheses.Legible :=
  ⟨ordinary_parentheses, by decide⟩

theorem legible_braces : braces.Legible :=
  ⟨ordinary_braces, by decide⟩

@[simp] theorem bare_go_nil (skip : Nat) : bare.go skip [] = [] := by
  rw [bare.go]

@[simp] theorem bare_go_succ (skip : Nat) (c : Char) (rest : List Char) :
    bare.go (skip + 1) (c :: rest) = none :: bare.go skip rest := by
  rw [bare.go]

section Step

variable {c : Char} {rest : List Char}

theorem bare_go_zero : bare.go 0 (c :: rest) =
    (if skippedLength (c :: rest) = 0 then some c else none) ::
      bare.go (skippedLength (c :: rest) - 1) rest := by
  rw [bare.go]
  cases skippedLength (c :: rest) <;> simp

/-- The mode behind a character of code tells how much of a literal or comment is still to come. -/
theorem pending_after_code :
    bare.go ((Mode.code.after c rest.head?).pending rest) rest =
      bare.go (skippedLength (c :: rest) - 1) rest := by
  rw [Mode.after, skippedLength]
  simp only [Bool.and_eq_true, beq_iff_eq]
  split
  next quotes => simp [Mode.pending]
  next plain =>
    split
    next line => simp [Mode.pending]
    next noLine =>
      split
      next block => simp [Mode.pending]
      next => simp [Mode.pending]

theorem pending_quoted (quote : Char) :
    bare.go (literalLength quote (c :: rest)) (c :: rest) =
      none :: bare.go (((Mode.quoted quote).after c rest.head?).pending rest) rest := by
  cases rest with
  | nil => simp [literalLength]
  | cons d rest =>
    rw [literalLength, Mode.after]
    simp only [beq_iff_eq, Bool.and_eq_true, bne_iff_ne]
    split
    next escapes => simp [Mode.pending]
    next =>
      by_cases closes : c = quote
      · simp [closes, Mode.pending]
      · by_cases breaks : c = '\n' ∧ quote ≠ '\x60'
        · simp [breaks, Mode.pending]
        · simp [closes, breaks, Mode.pending]

theorem pending_block :
    bare.go (blockLength (c :: rest)) (c :: rest) =
      none :: bare.go ((Mode.block.after c rest.head?).pending rest) rest := by
  cases rest with
  | nil => simp [blockLength]
  | cons d rest =>
    rw [blockLength, Mode.after]
    simp only [List.head?_cons, beq_iff_eq, Bool.and_eq_true, Option.some.injEq]
    split
    next closes => simp [Mode.pending]
    next => simp [Mode.pending]

/-- A character is struck out, unless it is code and starts nothing, and the modes go on by what is
still to be struck out. -/
theorem bare_cons {mode : Mode} (expects : mode.Expects (c :: rest)) :
    bare.go (mode.pending (c :: rest)) (c :: rest) =
      (if mode = .code ∧ skippedLength (c :: rest) = 0 then some c else none) ::
        bare.go ((mode.after c rest.head?).pending rest) rest := by
  cases mode with
  | code => rw [Mode.pending, bare_go_zero, pending_after_code]; simp
  | quoted quote => rw [Mode.pending, pending_quoted]; simp
  | escaped quote => simp [Mode.pending, Mode.after]
  | lineComment =>
    have inside : c ≠ '\n' := fun breaks => expects rfl (by simp [breaks])
    cases rest with
    | nil => simp [Mode.pending, inside]
    | cons d rest =>
      by_cases breaks : d = '\n' <;> simp [Mode.pending, Mode.after, inside, breaks]
  | blockOpen => simp [Mode.pending, Mode.after]
  | block => rw [Mode.pending, pending_block]; simp
  | blockClose => simp [Mode.pending, Mode.after]

/-- A line comment is only entered and gone on with before something else than a newline. -/
theorem expects_after (mode : Mode) : (mode.after c rest.head?).Expects rest := by
  intro enters breaks
  cases mode with
  | code =>
    rw [breaks, Mode.after] at enters
    split at enters <;> simp at enters
  | quoted quote =>
    rw [Mode.after] at enters
    split at enters
    · cases enters
    · split at enters
      · cases enters
      · split at enters <;> cases enters
  | lineComment => simp [breaks, Mode.after] at enters
  | block =>
    rw [Mode.after] at enters
    split at enters <;> cases enters
  | escaped | blockOpen | blockClose => cases enters

end Step

/-! ## Counting -/

section Count

variable {b : Brackets} {mode : Mode} {depth : Int} {c : Char} {rest : List Char}

theorem Brackets.Legible.skippedLength_eq (legible : b.Legible)
    (bracket : c = b.opener ∨ c = b.closer) : skippedLength (c :: rest) = 0 := by
  have plain : isTextQuote c = false ∧ c ≠ '/' := by
    obtain rfl | rfl := bracket
    · exact legible.ordinary.opener
    · exact ⟨legible.closer, legible.ordinary.closer.1⟩
  rw [skippedLength, if_neg (by simp [plain.1]), if_neg (by simp [plain.2]),
    if_neg (by simp [plain.2])]

/-- The scan counts what is not struck out. -/
theorem depthAfter_eq (legible : b.Legible) (mode : Mode) (depth : Int) (c : Char)
    (rest : List Char) :
    b.depthAfter mode depth c =
      depth + b.excess [if mode = .code ∧ skippedLength (c :: rest) = 0 then some c else none] := by
  have differ := legible.ordinary.differ
  by_cases code : mode = .code
  · subst code
    by_cases opens : c = b.opener
    · simp [Brackets.depthAfter, Brackets.excess, opens, differ,
        legible.skippedLength_eq (.inl rfl)]
    · by_cases closes : c = b.closer
      · simp [Brackets.depthAfter, Brackets.excess, closes, differ.symm,
          legible.skippedLength_eq (.inr rfl)]
        omega
      · by_cases starts : skippedLength (c :: rest) = 0 <;>
          simp [Brackets.depthAfter, Brackets.excess, opens, closes, starts]
  · simp [Brackets.depthAfter, Brackets.excess, code]

theorem depthAfter_ge (b : Brackets) (mode : Mode) (depth : Int) (c : Char) :
    depth - 1 ≤ b.depthAfter mode depth c := by
  rw [Brackets.depthAfter]
  split
  · omega
  · split
    · omega
    · split <;> omega

/-- A bracket that closes the last open one is the only way down to level. -/
theorem stops_iff (opened : 0 < depth) :
    (mode == .code && c == b.closer && b.depthAfter mode depth c == 0) = true ↔
      b.depthAfter mode depth c = 0 := by
  simp only [Bool.and_eq_true, beq_iff_eq]
  refine ⟨fun stops => stops.2, fun level => ⟨?_, level⟩⟩
  rw [Brackets.depthAfter] at level
  split at level
  · omega
  next code =>
    split at level
    · omega
    · split at level
      next closes => exact ⟨by simpa using code, by simpa using closes⟩
      · omega

/-- From a depth and over a reading that far the brackets come out level. -/
def Brackets.Meets (b : Brackets) (depth : Int) (read : List (Option Char)) (far : Nat) : Prop :=
  far < read.length ∧ depth + b.excess (read.take (far + 1)) = 0

theorem Brackets.meets_zero {x : Option Char} {read : List (Option Char)} :
    b.Meets depth (x :: read) 0 ↔ depth + b.excess [x] = 0 := by
  simp [Meets]

theorem Brackets.meets_succ {x : Option Char} {read : List (Option Char)} {far : Nat} :
    b.Meets depth (x :: read) (far + 1) ↔ b.Meets (depth + b.excess [x]) read far := by
  rw [Meets, Meets, List.take_succ_cons, excess_cons, List.length_cons, Nat.add_lt_add_iff_right,
    Int.add_assoc]

/-- Where something first holds, once it is known not to hold at once. -/
theorem isLeast_succ {P : Nat → Prop} {n : Nat} (later : ¬ P 0)
    (least : IsLeast {k | P (k + 1)} n) : IsLeast {k | P k} (n + 1) := by
  refine ⟨least.1, fun k holds => ?_⟩
  cases k with
  | zero => exact absurd holds later
  | succ k => exact Nat.succ_le_succ (least.2 holds)

/-- The scan from a positive depth ends where the brackets first are level. -/
theorem go_meets (legible : b.Legible) (offset : Nat) {text : List Char}
    (expects : mode.Expects text) (opened : 0 < depth) :
    (∃ far behind, closing?.go b mode depth offset text = some (offset + far, behind) ∧
        IsLeast {k | b.Meets depth (bare.go (mode.pending text) text) k} far) ∨
      (closing?.go b mode depth offset text = none ∧
        ∀ k, ¬ b.Meets depth (bare.go (mode.pending text) text) k) := by
  induction text generalizing mode depth offset with
  | nil => exact .inr ⟨rfl, fun k meets => by simp [Brackets.Meets] at meets⟩
  | cons c rest ih =>
    have counts := depthAfter_eq legible mode depth c rest
    rw [bare_cons expects, closing?.go]
    -- From here on only what the reading shows of the character matters.
    generalize (if mode = .code ∧ skippedLength (c :: rest) = 0 then some c else none) = x
      at counts ⊢
    by_cases level : b.depthAfter mode depth c = 0
    · rw [if_pos ((stops_iff opened).mpr level)]
      exact .inl ⟨0, rest, rfl, Brackets.meets_zero.mpr (counts ▸ level), fun _ _ => Nat.zero_le _⟩
    · have opened' : 0 < b.depthAfter mode depth c := by
        have := depthAfter_ge b mode depth c
        omega
      rw [if_neg (mt (stops_iff opened).mp level)]
      have later (read : List (Option Char)) : ¬ b.Meets depth (x :: read) 0 :=
        fun meets => level (counts.trans (Brackets.meets_zero.mp meets))
      obtain ⟨far, behind, finds, least⟩ | ⟨misses, never⟩ :=
        ih (offset + 1) (expects_after mode) opened'
      · refine .inl ⟨far + 1, behind, ?_, isLeast_succ (later _) ?_⟩
        · rw [finds, Nat.add_right_comm, Nat.add_assoc]
        · simpa only [Brackets.meets_succ, counts] using least
      · refine .inr ⟨misses, fun k meets => ?_⟩
        cases k with
        | zero => exact later _ meets
        | succ k => exact never k (counts ▸ Brackets.meets_succ.mp meets)

end Count

/-! ## The closing bracket -/

section Closing

variable {b : Brackets} {content rest : List Char} {start : Nat}

theorem bare_opener (legible : b.Legible) :
    bare (b.opener :: rest) = some b.opener :: bare.go 0 rest := by
  rw [bare, bare_go_zero, legible.skippedLength_eq (.inl rfl), if_pos rfl]

@[simp] theorem length_bare_go (skip : Nat) (text : List Char) :
    (bare.go skip text).length = text.length := by
  induction text generalizing skip with
  | nil => simp
  | cons c text ih =>
    cases skip with
    | zero => rw [bare_go_zero, List.length_cons, ih, List.length_cons]
    | succ skip => rw [bare_go_succ, List.length_cons, ih, List.length_cons]

/-- The brackets are level behind the opening one where they come out level from depth one. -/
theorem level_iff (legible : b.Legible) (behind : content.drop start = b.opener :: rest)
    (stop : Nat) :
    b.Level content start stop ↔
      ∃ far, stop = start + 1 + far ∧ b.Meets 1 (bare.go 0 rest) far := by
  have size : content.length - start = rest.length + 1 := by
    rw [← List.length_drop, behind, List.length_cons]
  have first : b.excess [some b.opener] = 1 := by
    simp [Brackets.excess, legible.ordinary.differ]
  constructor
  · rintro ⟨ordered, inside, even⟩
    rw [behind, bare_opener legible, ← Brackets.excess_eq_zero, List.take_succ_cons,
      Brackets.excess_cons, first] at even
    -- The opening bracket alone is not level.
    obtain ⟨far, rfl⟩ : ∃ far, stop = start + 1 + far := by
      refine Nat.exists_eq_add_of_le (Nat.lt_of_le_of_ne ordered fun same => ?_)
      subst same
      simp [Brackets.excess] at even
    refine ⟨far, rfl, ?_, ?_⟩
    · rw [length_bare_go]
      omega
    · rwa [show start + 1 + far - start = far + 1 by omega] at even
  · rintro ⟨far, rfl, inside, even⟩
    rw [length_bare_go] at inside
    refine ⟨by omega, by omega, ?_⟩
    rwa [behind, bare_opener legible, ← Brackets.excess_eq_zero, List.take_succ_cons,
      Brackets.excess_cons, first, show start + 1 + far - start = far + 1 by omega]

/-- The closing bracket of a parenthesis or brace is found at the first offset where the brackets
outside of literals and comments are level; where they never are, the last offset is taken. -/
theorem closingOffset_level (pair : b = parentheses ∨ b = braces)
    (opens : content[start]? = some b.opener) :
    start ≤ closingOffset b content.length start (content.drop start) ∧
      closingOffset b content.length start (content.drop start) < content.length ∧
      (IsLeast {stop | b.Level content start stop}
          (closingOffset b content.length start (content.drop start)) ∨
        (∀ stop, ¬ b.Level content start stop) ∧
          closingOffset b content.length start (content.drop start) = content.length - 1) := by
  have legible : b.Legible := by
    obtain rfl | rfl := pair
    · exact legible_parentheses
    · exact legible_braces
  obtain ⟨inside, at_start⟩ := List.getElem?_eq_some_iff.mp opens
  have behind : content.drop start = b.opener :: content.drop (start + 1) := by
    rw [List.drop_eq_getElem_cons inside, at_start]
  have level := level_iff legible behind
  rw [closingOffset, behind, closing?_cons legible.ordinary]
  have expects : Mode.code.Expects (content.drop (start + 1)) :=
    fun enters => absurd enters (by decide)
  have outcome := go_meets legible (start + 1) expects Int.one_pos
  obtain ⟨far, rest, finds, least⟩ | ⟨misses, never⟩ := outcome
  · have first : b.Level content start (start + 1 + far) := (level _).mpr ⟨far, rfl, least.1⟩
    rw [finds]
    refine ⟨by dsimp; omega, first.inside, .inl ⟨first, fun stop even => ?_⟩⟩
    obtain ⟨k, rfl, meets⟩ := (level stop).mp even
    exact Nat.add_le_add_left (least.2 meets) _
  · rw [misses]
    refine ⟨by dsimp; omega, by dsimp; omega, .inr ⟨fun stop even => ?_, rfl⟩⟩
    obtain ⟨k, rfl, meets⟩ := (level stop).mp even
    exact never k meets

/-- A body with braces in a text, behind an escaped quote, and in comments of both kinds. -/
def bodyText : List Char :=
  "f \x7b'\x7d\\'\x7d' /*\x7d*/ \x7ba\x7d // \x7d\n\x7d;\x7d".toList

theorem closingOffset_level_body :
    bodyText[2]? = some braces.opener ∧ IsLeast {stop | braces.Level bodyText 2 stop} 25 := by
  have opens : bodyText[2]? = some braces.opener := by decide +kernel
  have found : closingOffset braces bodyText.length 2 (bodyText.drop 2) = 25 := by decide +kernel
  obtain ⟨-, -, least | ⟨never, -⟩⟩ := closingOffset_level (.inr rfl) opens
  · exact ⟨opens, found ▸ least⟩
  · exact absurd (by decide +kernel) (never 25)

end Closing

end Extent

end CodeAtlas
