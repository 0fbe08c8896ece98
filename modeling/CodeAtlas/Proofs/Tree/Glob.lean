import CodeAtlas.Tree.Glob
import Mathlib.Data.List.Basic

/-!
# What a glob stands for

The pieces of a glob stand for a text when it can be cut into parts, one for each piece: any text for
a star, and for any other piece one character that the piece accepts. A row of pieces that goes on
after another one therefore stands for the texts of the first with those of the second behind them.

What is written behind a glob is read apart from it, unless it closes a bracket of the glob.

## Main results

`Glob.matchesPieces_iff`: the matcher finds out what the pieces stand for.
`Glob.pieces_append`: what is written behind a glob is read apart from it.
`Glob.matchesText_below_iff`: a glob with a slash and two stars behind it stands for what the glob
stands for, with a slash and any text behind it.
`Glob.matchesText_stars_iff`: two stars between literal texts stand for any text between them.
-/

namespace CodeAtlas

/-- A piece stands for a part of a text. -/
def GlobPiece.StandsFor (piece : GlobPiece) (part : List Char) : Prop :=
  piece = .anyText ∨ ∃ c, part = [c] ∧ piece.accepts c = true

namespace Glob

/-! ## Rows of pieces -/

/-- Pieces one after another stand for a text. -/
def StandFor : List GlobPiece → List Char → Prop
  | [], text => text = []
  | piece :: rest, text =>
    ∃ part after, text = part ++ after ∧ piece.StandsFor part ∧ StandFor rest after

section Rows

variable {ps qs : List GlobPiece} {text : List Char}

theorem anyEnd_iff {p : List Char → Bool} :
    anyEnd p text = true ↔ ∃ passed rest, text = passed ++ rest ∧ p rest = true := by
  constructor
  · intro found
    induction text with
    | nil => exact ⟨[], [], rfl, found⟩
    | cons c text ih =>
      rcases Bool.or_eq_true_iff.mp found with here | later
      · exact ⟨[], c :: text, rfl, here⟩
      · obtain ⟨passed, rest, rfl, holds⟩ := ih later
        exact ⟨c :: passed, rest, rfl, holds⟩
  · rintro ⟨passed, rest, rfl, holds⟩
    induction passed with
    | nil => cases rest <;> simp_all [anyEnd]
    | cons c passed ih => exact Bool.or_eq_true_iff.mpr (.inr ih)

/-- The matcher finds out what pieces stand for. -/
theorem matchesPieces_iff : matchesPieces ps text = true ↔ StandFor ps text := by
  induction ps generalizing text with
  | nil => cases text <;> simp [matchesPieces, StandFor]
  | cons piece ps ih =>
    by_cases star : piece = .anyText
    · subst star
      simp only [matchesPieces, anyEnd_iff, ih, StandFor, GlobPiece.StandsFor, true_or, true_and]
    · cases text with
      | nil => simp [matchesPieces, StandFor, GlobPiece.StandsFor, star]
      | cons c text =>
        simp only [matchesPieces, StandFor, GlobPiece.StandsFor, star, false_or, Bool.and_eq_true, ih]
        constructor
        · rintro ⟨accepted, stands⟩
          exact ⟨[c], text, rfl, ⟨c, rfl, accepted⟩, stands⟩
        · rintro ⟨_, after, cut, ⟨c', rfl, accepted⟩, stands⟩
          obtain ⟨rfl, rfl⟩ := List.cons.inj cut
          exact ⟨accepted, stands⟩

/-- A text is cut where a row of pieces is cut. -/
theorem standFor_append_iff :
    StandFor (ps ++ qs) text ↔ ∃ u w, text = u ++ w ∧ StandFor ps u ∧ StandFor qs w := by
  induction ps generalizing text with
  | nil => simp [StandFor]
  | cons piece ps ih =>
    simp only [List.cons_append, StandFor, ih]
    constructor
    · rintro ⟨part, _, rfl, own, u, w, rfl, first, second⟩
      exact ⟨part ++ u, w, (List.append_assoc part u w).symm, ⟨part, u, rfl, own, first⟩, second⟩
    · rintro ⟨_, w, rfl, ⟨part, u, rfl, own, first⟩, second⟩
      exact ⟨part, u ++ w, List.append_assoc part u w, own, u, w, rfl, first, second⟩

/-- Pieces stand for texts without a character that none of them accepts. -/
theorem StandFor.not_mem {c : Char} (stands : StandFor ps text)
    (refused : ∀ piece ∈ ps, piece.accepts c = false) : c ∉ text := by
  induction ps generalizing text with
  | nil =>
    obtain rfl : text = [] := stands
    exact List.not_mem_nil
  | cons piece ps ih =>
    obtain ⟨here, later⟩ := List.forall_mem_cons.mp refused
    obtain ⟨part, after, rfl, own, stands⟩ := stands
    rw [List.mem_append, not_or]
    refine ⟨?_, ih stands later⟩
    rcases own with rfl | ⟨d, rfl, accepted⟩
    · -- A star accepts every character.
      cases here
    · rintro inside
      rw [List.mem_singleton.mp inside, accepted] at here
      cases here

theorem not_mem_of_matchesText {g : List Char} {c : Char} (matched : matchesText g text = true)
    (refused : ∀ piece ∈ (parse g).pieces, piece.accepts c = false) : c ∉ text :=
  (matchesPieces_iff.mp matched).not_mem refused

end Rows

/-! ## Reading a glob -/

section Reading

variable {after : List Char}

/-- What stands up to the next `]`, behind what has been read, and what follows it. -/
def closing? (read : List Char) : List Char → Option (List Char × List Char)
  | [] => none
  | c :: rest => if c = ']' then some (read, rest) else closing? (read ++ [c]) rest

theorem closing?_eq (read s : List Char) :
    (match s.drop (s.takeWhile (· != ']')).length with
      | _ :: rest => some (read ++ s.takeWhile (· != ']'), rest)
      | [] => none) = closing? read s := by
  induction s generalizing read with
  | nil => rfl
  | cons c s ih =>
    by_cases closes : c = ']'
    · simp [closes, closing?]
    · simp [closes, closing?, ← ih]

/-- Only a `]` at the start, or behind a `!` there, does not close the bracket. -/
theorem bracket?_eq (s : List Char) : bracket? s =
    match s with
    | '!' :: ']' :: rest => closing? ['!', ']'] rest
    | ']' :: rest => closing? [']'] rest
    | _ => closing? [] s := by
  split
  · exact closing?_eq _ _
  · exact closing?_eq _ _
  · next _ not_after not_first =>
    by_cases excludes : ∃ rest, s = '!' :: rest
    · obtain ⟨rest, rfl⟩ := excludes
      have inner : ∀ more, rest = ']' :: more → False := fun more is => not_after more (is ▸ rfl)
      unfold bracket?
      simp only
      exact closing?_eq ['!'] rest
    · have outer : ∀ rest, s = '!' :: rest → False := fun rest is => excludes ⟨rest, is⟩
      unfold bracket?
      simp only
      exact closing?_eq [] s

variable {read s inside rest : List Char}

theorem closing?_eq_none (plain : ']' ∉ s) : closing? read s = none := by
  induction s generalizing read with
  | nil => rfl
  | cons c s ih =>
    obtain ⟨other, plain⟩ := not_or.mp (mt List.mem_cons.mpr plain)
    simp only [closing?, Ne.symm other, if_false, ih plain]

theorem closing?_append (plain : ']' ∉ after) : closing? read (s ++ after) =
    (closing? read s).map fun (inside, rest) => (inside, rest ++ after) := by
  induction s generalizing read with
  | nil => exact closing?_eq_none plain
  | cons c s ih =>
    by_cases closes : c = ']'
    · simp [closes, closing?]
    · simpa only [List.cons_append, closing?, closes, if_false] using ih

theorem length_closing? (closed : closing? read s = some (inside, rest)) :
    rest.length < s.length := by
  induction s generalizing read with
  | nil => cases closed
  | cons c s ih =>
    by_cases closes : c = ']'
    · simp only [closing?, closes, if_true, Option.some.injEq, Prod.mk.injEq] at closed
      simp [closed.2]
    · simp only [closing?, closes, if_false] at closed
      exact Nat.lt_succ_of_lt (ih closed)

/-- A bracket that closes in what stands in front does not hold what stands behind, and one that does
not is not closed by what holds no `]`. -/
theorem bracket?_append (plain : ']' ∉ after) :
    bracket? (s ++ after) = (bracket? s).map fun (inside, rest) => (inside, rest ++ after) := by
  rw [bracket?_eq s]
  split
  · rw [bracket?_eq]
    exact closing?_append plain
  · rw [bracket?_eq]
    exact closing?_append plain
  · next _ not_after not_first =>
    -- What stands behind has no `]`, so the two do not start as `s` does not start.
    rw [bracket?_eq, ← closing?_append plain]
    split
    · next _ rest start =>
      obtain _ | ⟨c, _ | ⟨d, s⟩⟩ := s
      · obtain rfl : after = _ := start
        simp at plain
      · obtain ⟨-, rfl⟩ := List.cons.inj start
        simp at plain
      · simp_all
    · next _ rest start =>
      obtain _ | ⟨c, s⟩ := s
      · obtain rfl : after = _ := start
        simp at plain
      · simp_all
    · rfl

theorem length_bracket? (closed : bracket? s = some (inside, rest)) : rest.length < s.length := by
  rw [bracket?_eq] at closed
  split at closed
  all_goals
    have := length_closing? closed
    grind

theorem piecesOf_eq {fuel fuel' : Nat} (le : s.length ≤ fuel) (le' : s.length ≤ fuel') :
    piecesOf fuel s = piecesOf fuel' s := by
  induction fuel generalizing fuel' s with
  | zero =>
    obtain rfl := List.length_eq_zero_iff.mp (Nat.le_zero.mp le)
    cases fuel' <;> rfl
  | succ fuel ih =>
    cases s with
    | nil => cases fuel' <;> rfl
    | cons c rest =>
      obtain ⟨fuel', rfl⟩ := Nat.exists_eq_succ_of_ne_zero (Nat.ne_zero_of_lt le')
      have here : piecesOf fuel rest = piecesOf fuel' rest :=
        ih (Nat.le_of_succ_le_succ le) (Nat.le_of_succ_le_succ le')
      simp only [piecesOf, here]
      split
      · rfl
      · split
        · rfl
        · split
          · cases closed : bracket? rest with
            | none => rfl
            | some cut =>
              have shorter := length_bracket? closed
              simp only [List.length_cons] at le le'
              have behind : piecesOf fuel cut.2 = piecesOf fuel' cut.2 := ih (by omega) (by omega)
              simp only [behind]
          · rfl

theorem pieces_cons (c : Char) (rest : List Char) : (parse (c :: rest)).pieces =
    if c = '*' then .anyText :: (parse rest).pieces
    else if c = '?' then .anyChar :: (parse rest).pieces
    else if c = '[' then
      match bracket? rest with
      | some (inside, after) => setOf inside :: (parse after).pieces
      | none => .char c :: (parse rest).pieces
    else .char c :: (parse rest).pieces := by
  simp only [parse, List.length_cons, piecesOf, beq_iff_eq]
  cases closed : bracket? rest with
  | none => rfl
  | some cut =>
    have shorter := length_bracket? closed
    simp only [piecesOf_eq (s := cut.2) (Nat.le_of_lt shorter) (Nat.le_refl _)]

/-- What is written behind a glob is read apart from it, unless it closes a bracket. -/
theorem pieces_append (g : List Char) (plain : ']' ∉ after) :
    (parse (g ++ after)).pieces = (parse g).pieces ++ (parse after).pieces := by
  -- On the length, since a bracket is one piece however much stands in it.
  induction length : g.length using Nat.strongRecOn generalizing g with
  | _ n ih =>
    cases g with
    | nil => rfl
    | cons c rest =>
      have shorter : rest.length < n := by rw [← length]; exact Nat.lt_succ_self _
      rw [List.cons_append, pieces_cons, pieces_cons, ih _ shorter rest rfl, bracket?_append plain]
      cases closed : bracket? rest with
      | none => split_ifs <;> rfl
      | some cut =>
        have before := ih _ (Nat.lt_trans (length_bracket? closed) shorter) cut.2 rfl
        simp only [Option.map_some, before]
        split_ifs <;> rfl

end Reading

/-! ## Below a glob -/

/-- A glob with a slash and two stars behind it stands for what the glob stands for, with a slash and
any text behind it. -/
theorem matchesText_below_iff {g text : List Char} : matchesText (g ++ "/**".toList) text = true ↔
    ∃ u w, text = u ++ '/' :: w ∧ matchesText g u = true := by
  have below : (parse "/**".toList).pieces = [.char '/', .anyText, .anyText] := rfl
  rw [matchesText, accepts, pieces_append g (by decide), below, matchesPieces_iff,
    standFor_append_iff]
  simp only [matchesText, accepts, matchesPieces_iff]
  constructor
  · rintro ⟨u, _, rfl, stands, part, w, rfl, ⟨⟨⟩⟩ | ⟨c, rfl, accepted⟩, -⟩
    obtain rfl : '/' = c := by simpa [GlobPiece.accepts] using accepted
    exact ⟨u, w, rfl, stands⟩
  · rintro ⟨u, w, rfl, stands⟩
    exact ⟨u, _, rfl, stands, ['/'], w, rfl, .inr ⟨'/', rfl, rfl⟩, w, [], (List.append_nil w).symm,
      .inl rfl, [], [], rfl, .inl rfl, rfl⟩

/-! ## Literal texts -/

/-- No character of the text is a wildcard in a glob. -/
def Literal (text : List Char) : Prop :=
  ∀ c ∈ text, c ≠ '*' ∧ c ≠ '?' ∧ c ≠ '['

instance : DecidablePred Literal := fun text =>
  List.decidableBAll (fun c => c ≠ '*' ∧ c ≠ '?' ∧ c ≠ '[') text

section Literals

variable {s s' text : List Char}

/-- A literal text is read character by character. -/
theorem pieces_literal_append (literal : Literal s) (after : List Char) :
    (parse (s ++ after)).pieces = s.map .char ++ (parse after).pieces := by
  induction s with
  | nil => rfl
  | cons c s ih =>
    obtain ⟨⟨star, mark, bracket⟩, literal⟩ := List.forall_mem_cons.mp literal
    rw [List.cons_append, pieces_cons, if_neg star, if_neg mark, if_neg bracket, ih literal]
    rfl

theorem pieces_literal (literal : Literal s) : (parse s).pieces = s.map .char := by
  have read := pieces_literal_append literal []
  rw [List.append_nil] at read
  exact read.trans (List.append_nil _)

theorem standFor_chars_iff : StandFor (s.map .char) text ↔ text = s := by
  induction s generalizing text with
  | nil => rfl
  | cons c s ih =>
    simp only [List.map_cons, StandFor, GlobPiece.StandsFor, ih]
    constructor
    · rintro ⟨part, _, rfl, ⟨⟨⟩⟩ | ⟨d, rfl, accepted⟩, rfl⟩
      obtain rfl : c = d := by simpa [GlobPiece.accepts] using accepted
      rfl
    · rintro rfl
      exact ⟨[c], s, rfl, .inr ⟨c, rfl, by simp [GlobPiece.accepts]⟩, rfl⟩

/-- A literal text stands for itself alone. -/
theorem matchesText_literal_iff (literal : Literal s) : matchesText s text = true ↔ text = s := by
  rw [matchesText, accepts, pieces_literal literal, matchesPieces_iff, standFor_chars_iff]

theorem standFor_stars : StandFor [.anyText, .anyText] text :=
  ⟨text, [], (List.append_nil text).symm, .inl rfl, [], [], rfl, .inl rfl, rfl⟩

/-- Two stars between literal texts stand for any text between them. -/
theorem matchesText_stars_iff (literal : Literal s) (literal' : Literal s') :
    matchesText (s ++ '*' :: '*' :: s') text = true ↔ ∃ m, text = s ++ (m ++ s') := by
  have stars : (parse ('*' :: '*' :: s')).pieces = [.anyText, .anyText] ++ s'.map .char := by
    rw [pieces_cons, if_pos rfl, pieces_cons, if_pos rfl, pieces_literal literal']
    rfl
  rw [matchesText, accepts, pieces_literal_append literal, stars, matchesPieces_iff,
    standFor_append_iff]
  simp only [standFor_append_iff, standFor_chars_iff]
  constructor
  · rintro ⟨_, _, rfl, rfl, m, _, rfl, -, rfl⟩
    exact ⟨m, rfl⟩
  · rintro ⟨m, rfl⟩
    exact ⟨s, m ++ s', rfl, rfl, m, s', rfl, standFor_stars, rfl⟩

end Literals

end Glob

end CodeAtlas
