import CodeAtlas.Proofs.Text.Line

/-!
# Offsets and columns

A place in a text is told by an offset, or by a line and a column in it. The starts of the lines
lead from the one to the other. There are as many as there are lines, in ascending order, so a
search by halves finds the last start that is not behind an offset, and what stands at the offset
stands on that line, as many characters behind the start as the offset is; a newline stands behind
the last character of its line.

## Main results

`Text.countByHalves_eq`: a search by halves counts the offsets that are not behind one.
`Text.lineStarts_locate`: the starts and the lines of every text, and the place of every offset.

## Proof strategy

A character in front of a text moves the starts of its lines by one and leaves the lines, but for
the first: a newline gives it a line of its own, any other character makes it longer. So the line
and the start that belong to an offset are found by induction on the text.
-/

namespace CodeAtlas.Text

/-! ## Searching by halves -/

/-- How many of some ascending offsets are not behind the given one, when they are at least `low`
and at most `high`. -/
def countByHalves (starts : List Nat) (offset low high : Nat) : Nat :=
  if low < high then
    let middle := (low + high) / 2
    match starts[middle]? with
    | some start =>
      if offset < start then countByHalves starts offset low middle
      else countByHalves starts offset (middle + 1) high
    -- There is no entry at `middle` only where `high` is beyond the last.
    | none => low
  else low
termination_by high - low

section Ascending

variable {starts : List Nat} {offset : Nat}

/-- The offsets that are counted come first. -/
theorem getElem_le_iff (ascending : starts.Pairwise (· < ·)) {place : Nat}
    (inside : place < starts.length) : starts[place] ≤ offset ↔ place < lineOf starts offset := by
  induction starts generalizing place with
  | nil => exact absurd inside (Nat.not_lt_zero _)
  | cons start starts ih =>
    obtain ⟨behind, ascending⟩ := List.pairwise_cons.mp ascending
    by_cases counts : start ≤ offset
    · have count : lineOf (start :: starts) offset = lineOf starts offset + 1 :=
        List.countP_cons_of_pos (by simpa using counts)
      rw [count]
      cases place with
      | zero => exact iff_of_true counts (Nat.succ_pos _)
      | succ place =>
        rw [List.getElem_cons_succ, ih ascending, Nat.succ_lt_succ_iff]
    · -- What follows is behind the first, so none of it is counted.
      have none_ : lineOf (start :: starts) offset = 0 := by
        rw [lineOf, List.countP_eq_zero]
        intro other member
        have ge : start ≤ other := by
          rcases List.mem_cons.mp member with rfl | member
          · exact Nat.le_refl _
          · exact Nat.le_of_lt (behind other member)
        simp only [decide_eq_true_eq]
        omega
      have ge : start ≤ (start :: starts)[place] := by
        rcases List.mem_cons.mp (List.getElem_mem inside) with same | member
        · exact Nat.le_of_eq same.symm
        · exact Nat.le_of_lt (behind _ member)
      omega

/-- What is left of the search always encloses the count. -/
theorem countByHalves_enclosed (ascending : starts.Pairwise (· < ·)) {low high : Nat}
    (above : low ≤ lineOf starts offset) (below : lineOf starts offset ≤ high)
    (within : high ≤ starts.length) :
    countByHalves starts offset low high = lineOf starts offset := by
  fun_induction countByHalves starts offset low high with
  | case1 low high open_ middle start found behind ih =>
    -- The entry in the middle is behind the offset, so the count is not beyond it.
    obtain ⟨inside, rfl⟩ := List.getElem?_eq_some_iff.mp found
    have uncounted : ¬ middle < lineOf starts offset :=
      mt (getElem_le_iff ascending inside).mpr (Nat.not_le_of_gt behind)
    exact ih above (Nat.not_lt.mp uncounted) (Nat.le_of_lt inside)
  | case2 low high open_ middle start found before ih =>
    obtain ⟨inside, rfl⟩ := List.getElem?_eq_some_iff.mp found
    exact ih ((getElem_le_iff ascending inside).mp (Nat.not_lt.mp before)) below within
  | case3 low high open_ middle missing =>
    have outside := List.getElem?_eq_none_iff.mp missing
    have : middle = (low + high) / 2 := rfl
    omega
  | case4 low high closed => omega

/-- A search by halves counts the offsets that are not behind the given one. -/
theorem countByHalves_eq (ascending : starts.Pairwise (· < ·)) (offset : Nat) :
    countByHalves starts offset 0 starts.length = lineOf starts offset :=
  countByHalves_enclosed ascending (Nat.zero_le _) List.countP_le_length (Nat.le_refl _)

end Ascending

/-! ## The starts of lines -/

theorem lineStarts_go_succ (text : List Char) (first : Nat) :
    lineStarts.go (first + 1) text = (lineStarts.go first text).map (· + 1) := by
  induction text generalizing first with
  | nil => rfl
  | cons c text ih =>
    simp only [lineStarts.go, ih]
    split <;> rfl

theorem lineStarts_newline (text : List Char) :
    lineStarts ('\n' :: text) = 0 :: (lineStarts text).map (· + 1) := by
  have moved := lineStarts_go_succ text 1
  simp [lineStarts, lineStarts.go, moved]

theorem lineStarts_cons {c : Char} (whole : c ≠ '\n') (text : List Char) :
    lineStarts (c :: text) = 0 :: (lineStarts text).tail.map (· + 1) := by
  have moved := lineStarts_go_succ text 1
  simp [lineStarts, lineStarts.go, whole, moved]

/-- There are as many starts as lines. -/
theorem length_lineStarts (text : List Char) :
    (lineStarts text).length = (lines text).length := by
  rw [length_lines]
  induction text with
  | nil => rfl
  | cons c text ih =>
    by_cases newline : c = '\n'
    · subst newline
      simp [lineStarts_newline, ih]
    · simp [lineStarts_cons newline, List.count_cons_of_ne newline, ih]

theorem pairwise_lineStarts (text : List Char) : (lineStarts text).Pairwise (· < ·) := by
  -- Behind the start at 0 stand starts of the rest, each moved by one.
  have moved {starts : List Nat} (ascending : starts.Pairwise (· < ·)) :
      (0 :: starts.map (· + 1)).Pairwise (· < ·) := by
    refine List.pairwise_cons.mpr ⟨by simp, List.pairwise_map.mpr ?_⟩
    exact ascending.imp Nat.succ_lt_succ
  induction text with
  | nil => exact List.pairwise_singleton _ _
  | cons c text ih =>
    by_cases newline : c = '\n'
    · rw [newline, lineStarts_newline]
      exact moved ih
    · rw [lineStarts_cons newline]
      exact moved ih.tail

/-! ## Places -/

/-- A line of a text, counted from 1, with the character that stands at an offset. -/
structure StandsOn (text : List Char) (offset line : Nat) : Prop where
  /-- As many lines end in front of the offset as newlines stand there. -/
  count : line = 1 + (text.take offset).count '\n'
  pos : 1 ≤ line
  le : line ≤ (lines text).length
  /-- The column of the offset is that of the character, or of the newline behind the line. -/
  column : ∃ start piece, (lineStarts text)[line - 1]? = some start ∧
    (lines text)[line - 1]? = some piece ∧ start ≤ offset ∧
      ((∃ c, piece[offset - start]? = some c ∧ text[offset]? = some c) ∨
        offset - start = piece.length ∧ text[offset]? = some '\n')

/-- Behind some newlines stands the character of the line that follows them, or its newline. -/
theorem exists_column {text : List Char} {offset : Nat} (inside : offset < text.length) :
    ∃ start piece, (lineStarts text)[(text.take offset).count '\n']? = some start ∧
      (lines text)[(text.take offset).count '\n']? = some piece ∧ start ≤ offset ∧
        (piece ++ ['\n'])[offset - start]? = text[offset]? := by
  induction text generalizing offset with
  | nil => exact absurd inside (Nat.not_lt_zero _)
  | cons c text ih =>
    obtain ⟨first, others, split_⟩ := List.exists_cons_of_ne_nil (lines_ne_nil text)
    cases offset with
    | zero =>
      by_cases newline : c = '\n'
      · subst newline
        exact ⟨0, [], rfl, by simp [lines_newline], Nat.le_refl _, rfl⟩
      · exact ⟨0, c :: first, rfl, by simp [lines_cons newline, split_], Nat.le_refl _, rfl⟩
    | succ offset =>
      obtain ⟨start, piece, begins, stands, le, column⟩ :=
        ih (Nat.lt_of_succ_lt_succ inside)
      rw [List.take_succ_cons, List.getElem?_cons_succ]
      by_cases newline : c = '\n'
      · -- The lines of the rest come after an empty one.
        subst newline
        rw [List.count_cons_self, lineStarts_newline, lines_newline]
        refine ⟨start + 1, piece, ?_, ?_, Nat.succ_le_succ le, ?_⟩
        · simp [begins]
        · simpa using stands
        · rwa [Nat.succ_sub_succ]
      · rw [List.count_cons_of_ne newline, lineStarts_cons newline, lines_cons newline]
        cases count : (text.take offset).count '\n' with
        | zero =>
          -- On the first line, which the character makes longer.
          rw [count, split_] at stands
          rw [count] at begins
          cases stands
          cases begins
          exact ⟨0, c :: first, rfl, by simp [split_], Nat.zero_le _, column⟩
        | succ count' =>
          rw [count] at begins stands
          refine ⟨start + 1, piece, ?_, ?_, Nat.succ_le_succ le, ?_⟩
          · simpa using begins
          · simpa [List.getElem?_modifyHead] using stands
          · rwa [Nat.succ_sub_succ]

/-- The line of an offset has the character at the offset. -/
theorem standsOn_lineOf {text : List Char} {offset : Nat} (inside : offset < text.length) :
    StandsOn text offset (lineOf (lineStarts text) offset) where
  count := by rw [lineOf_lineStarts, Nat.add_comm]
  pos := lineOf_pos
  le := lineOf_le
  column := by
    obtain ⟨start, piece, begins, stands, le, column⟩ := exists_column inside
    rw [lineOf_lineStarts, Nat.add_sub_cancel]
    refine ⟨start, piece, begins, stands, le, ?_⟩
    rw [List.getElem?_eq_getElem inside] at column ⊢
    rcases Nat.lt_or_ge (offset - start) piece.length with within | beyond
    · rw [List.getElem?_append_left within] at column
      exact .inl ⟨_, column, rfl⟩
    · -- Behind the line there is nothing but its newline.
      rw [List.getElem?_append_right beyond, List.getElem?_singleton] at column
      split at column
      next last => exact .inr ⟨by omega, column.symm⟩
      next => cases column

/-- Offsets and lines agree. The starts of the lines of a text are ascending, one for each line.
Every offset of the text is found by halves to be on the line of what stands there. -/
theorem lineStarts_locate (text : List Char) :
    (lineStarts text).Pairwise (· < ·) ∧ (lineStarts text).length = (lines text).length ∧
      ∀ offset < text.length,
        countByHalves (lineStarts text) offset 0 (lineStarts text).length =
            lineOf (lineStarts text) offset ∧
          StandsOn text offset (lineOf (lineStarts text) offset) := by
  refine ⟨pairwise_lineStarts text, length_lineStarts text, fun offset inside => ?_⟩
  exact ⟨countByHalves_eq (pairwise_lineStarts text) offset, standsOn_lineOf inside⟩

/-- A newline that is all there is of its line. -/
theorem lineStarts_locate_emptyLine :
    let text := "a\n\nb".toList
    lineStarts text = [0, 2, 3] ∧ lines text = [['a'], [], ['b']] ∧ 2 < text.length ∧
      countByHalves (lineStarts text) 2 0 3 = 2 ∧ StandsOn text 2 2 := by
  intro text
  have inside : 2 < text.length := by decide
  obtain ⟨found, stands⟩ := (lineStarts_locate text).2.2 2 inside
  exact ⟨rfl, rfl, inside, found, stands⟩

end CodeAtlas.Text
