import CodeAtlas.Pattern.Basic
import CodeAtlas.Text.CharClass
import CodeAtlas.Text.Basic
import Mathlib.Data.List.Basic

/-!
# Blanks, lines and names of a text

There are few blanks, so what is to hold of every blank is checked on a list of their code points.

A text has one line more than it has newlines, and as many line starts. The line of an offset is one
more than the number of newlines in front of it, so it never falls as the offset grows, it never
leaves the text, and what stands at an offset without a newline stands on that line.

Lines one after another make up a passage of a text: what stands between the newline in front of the
first and the newline behind the last. Where it stands is fixed by counting newlines, so a text has
just one passage from a line to another.

Names without a separator can be got back from what joining them gives: all of them by splitting, the
last one as what stands behind the last separator. A separator that stands at neither end is not
taken off.

## Main results

`Text.forall_blank`: what holds of the listed blanks holds of all.
`Text.lineOf_le`, `Text.lineOf_pos`: the line of an offset is a line of the text.
`Text.exists_line`: what stands at an offset is part of its line.
`Text.isPassage_lines`: joining some lines of a text gives their passage.
`Text.IsPassage.unique`: there is no other.
`Text.splitOn_joinWith`: splitting takes joined names apart.
-/

namespace CodeAtlas.Text

/-! ## Blanks -/

section

variable {c : Char}

/-- The code points of the blanks. -/
def blanks : List Nat :=
  List.range' 0x09 5 ++ List.range' 0x1c 5 ++ List.range' 0x2000 11 ++
    [0x85, 0xa0, 0x1680, 0x2028, 0x2029, 0x202f, 0x205f, 0x3000]

theorem toNat_mem_blanks (blank : isBlank c = true) : c.toNat ∈ blanks := by
  simp only [isBlank, Bool.or_eq_true, Bool.and_eq_true, decide_eq_true_eq, beq_iff_eq,
    UInt32.le_iff_toNat_le, ← UInt32.toNat_inj, UInt32.reduceToNat] at blank
  simp only [blanks, List.mem_append, List.mem_range'_1, List.mem_cons, List.not_mem_nil, or_false]
  have : c.val.toNat = c.toNat := rfl
  omega

theorem forall_blank {P : Char → Prop} (table : ∀ v ∈ blanks, P (Char.ofNat v))
    (blank : isBlank c = true) : P c := by
  have holds := table _ (toNat_mem_blanks blank)
  rwa [Char.ofNat_toNat] at holds

/-- A word character is no blank. -/
theorem isBlank_of_isWordChar (word : isWordChar c = true) : isBlank c = false := by
  cases blank : isBlank c with
  | false => rfl
  | true =>
    have wordless : isWordChar c = false :=
      forall_blank (P := fun c => isWordChar c = false) (by decide +kernel) blank
    rw [wordless] at word
    contradiction

/-- Blanks have no case. -/
theorem foldCase_of_isBlank (blank : isBlank c = true) : Pattern.foldCase c = c :=
  forall_blank (P := fun c => Pattern.foldCase c = c) (by decide) blank

end

/-! ## Pieces -/

section Pieces

variable (isSep : Char → Bool)

theorem splitBy_eq_splitOnP (text : List Char) : splitBy isSep text = text.splitOnP isSep := by
  suffices all : ∀ piece, splitBy.go isSep piece text = text.splitOnPPrepend isSep piece from all []
  induction text with
  | nil => exact fun _ => rfl
  | cons c rest ih =>
    intro piece
    rw [splitBy.go, List.splitOnPPrepend, ih, ih]

theorem splitBy_cons (c : Char) (rest : List Char) : splitBy isSep (c :: rest) =
    if isSep c = true then [] :: splitBy isSep rest
    else (splitBy isSep rest).modifyHead (c :: ·) := by
  simp only [splitBy_eq_splitOnP, List.splitOnP_cons_eq_if_modifyHead]

theorem length_splitBy (text : List Char) :
    (splitBy isSep text).length = text.countP isSep + 1 := by
  induction text with
  | nil => rfl
  | cons c rest ih =>
    rw [splitBy_cons]
    split <;> simp_all

theorem splitBy_ne_nil (text : List Char) : splitBy isSep text ≠ [] := by
  intro none
  simpa [none] using length_splitBy isSep text

/-- A text of nothing but separators has no piece but empty ones. -/
theorem forall_splitBy_eq_nil_iff (text : List Char) :
    (∀ piece ∈ splitBy isSep text, piece = []) ↔ ∀ c ∈ text, isSep c = true := by
  induction text with
  | nil => simp [splitBy, splitBy.go]
  | cons c rest ih =>
    rw [splitBy_cons]
    split
    · next is => simp [is, ih]
    · next other =>
      cases pieces : splitBy isSep rest with
      | nil => exact absurd pieces (splitBy_ne_nil isSep rest)
      | cons first others => simp [other]

/-- The pieces are made of what is no separator. -/
theorem of_mem_splitBy {text piece : List Char} (mem : piece ∈ splitBy isSep text) :
    ∀ c ∈ piece, c ∈ text ∧ isSep c = false := by
  induction text generalizing piece with
  | nil =>
    obtain rfl := List.mem_singleton.mp mem
    exact fun _ mem => absurd mem List.not_mem_nil
  | cons d text ih =>
    have later {piece : List Char} (mem : piece ∈ splitBy isSep text) :
        ∀ c ∈ piece, c ∈ d :: text ∧ isSep c = false :=
      fun c inside => (ih mem c inside).imp_left (List.mem_cons_of_mem d)
    rw [splitBy_cons] at mem
    split at mem
    · rcases List.mem_cons.mp mem with rfl | mem
      · exact fun _ mem => absurd mem List.not_mem_nil
      · exact later mem
    · next other =>
      obtain ⟨first, others, pieces⟩ := List.exists_cons_of_ne_nil (splitBy_ne_nil isSep text)
      rw [pieces, List.modifyHead_cons] at mem
      rw [pieces] at later
      rcases List.mem_cons.mp mem with rfl | mem
      · rw [List.forall_mem_cons]
        exact ⟨⟨List.mem_cons_self, by simpa using other⟩, later List.mem_cons_self⟩
      · exact later (List.mem_cons_of_mem first mem)

variable {isSep}

theorem splitBy_append_cons (before after : List Char) {sep : Char} (separates : isSep sep = true) :
    splitBy isSep (before ++ sep :: after) = splitBy isSep before ++ splitBy isSep after := by
  simp only [splitBy_eq_splitOnP, List.splitOnP_append_cons before after separates]

theorem splitBy_eq_singleton {text : List Char} (whole : ∀ c ∈ text, isSep c = false) :
    splitBy isSep text = [text] := by
  rw [splitBy_eq_splitOnP, List.splitOnP_eq_singleton whole]

end Pieces

theorem words_eq_nil_iff {text : List Char} : words text = [] ↔ isBlankText text = true := by
  rw [words, List.filter_eq_nil_iff, isBlankText, List.all_eq_true, ← forall_splitBy_eq_nil_iff]
  simp

/-! ## Lines -/

theorem length_lines (text : List Char) : (lines text).length = text.count '\n' + 1 :=
  length_splitBy _ text

theorem lines_newline (text : List Char) : lines ('\n' :: text) = [] :: lines text :=
  splitBy_cons (· == '\n') '\n' text

theorem lines_cons {c : Char} (whole : c ≠ '\n') (text : List Char) :
    lines (c :: text) = (lines text).modifyHead (c :: ·) :=
  (splitBy_cons (· == '\n') c text).trans (if_neg (by simpa using whole))

/-- The first line of a text starts as the text does. -/
theorem exists_head_lines {part : List Char} (whole : '\n' ∉ part) (after : List Char) :
    ∃ rest, (lines (part ++ after)).head? = some (part ++ rest) := by
  induction part with
  | nil =>
    obtain ⟨first, rest, pieces⟩ := List.exists_cons_of_ne_nil (splitBy_ne_nil (· == '\n') after)
    exact ⟨first, congrArg List.head? pieces⟩
  | cons c part ih =>
    obtain ⟨apart, whole⟩ := not_or.mp (mt List.mem_cons.mpr whole)
    obtain ⟨rest, head⟩ := ih whole
    exact ⟨rest, by simp [lines_cons (Ne.symm apart), head]⟩

/-- What stands behind some newlines, with none inside, is part of the line behind them. -/
theorem exists_line {part : List Char} (before after : List Char) (whole : '\n' ∉ part) :
    ∃ line, (lines (before ++ (part ++ after)))[before.count '\n']? = some line ∧
      part <:+: line := by
  induction before with
  | nil =>
    obtain ⟨rest, head⟩ := exists_head_lines whole after
    rw [List.head?_eq_getElem?] at head
    exact ⟨part ++ rest, head, [], rest, rfl⟩
  | cons c before ih =>
    obtain ⟨line, there, inside⟩ := ih
    by_cases newline : c = '\n'
    · subst newline
      rw [List.cons_append, lines_newline, List.count_cons_self, List.getElem?_cons_succ]
      exact ⟨line, there, inside⟩
    · rw [List.cons_append, lines_cons newline, List.count_cons_of_ne newline,
        List.getElem?_modifyHead, there]
      split
      · exact ⟨c :: line, rfl, inside.trans (List.infix_cons List.infix_rfl)⟩
      · exact ⟨line, rfl, inside⟩

/-! ## Offsets -/

theorem countP_lineStarts_go (text : List Char) (first offset : Nat) :
    (lineStarts.go first text).countP (fun (start : Nat) => decide ((start : Int) ≤ offset)) =
      (text.take (offset + 1 - first)).count '\n' := by
  induction text generalizing first with
  | nil => simp [lineStarts.go]
  | cons c rest ih =>
    rw [lineStarts.go]
    by_cases inside : first ≤ offset
    · have more : offset + 1 - first = (offset + 1 - (first + 1)) + 1 := by omega
      rw [more, List.take_succ_cons, List.count_cons, ← ih]
      split <;> simp_all
    · have none : offset + 1 - first = 0 := by omega
      have rest := ih (first + 1)
      rw [show offset + 1 - (first + 1) = 0 by omega] at rest
      rw [none]
      split <;> simp_all

/-- One more than the newlines in front of the offset. -/
theorem lineOf_lineStarts (text : List Char) (offset : Nat) :
    lineOf (lineStarts text) offset = (text.take offset).count '\n' + 1 := by
  rw [lineOf, lineStarts, List.countP_cons_of_pos (by simp), countP_lineStarts_go,
    Nat.add_sub_cancel]

theorem lineOf_length (front back : List Char) :
    lineOf (lineStarts (front ++ back)) front.length = front.count '\n' + 1 := by
  rw [lineOf_lineStarts, List.take_left]

section Offset

variable {text : List Char} {offset offset' : Nat}

theorem lineOf_pos : 1 ≤ lineOf (lineStarts text) offset := by
  rw [lineOf_lineStarts]
  exact Nat.le_add_left _ _

theorem lineOf_le : lineOf (lineStarts text) offset ≤ (lines text).length := by
  rw [lineOf_lineStarts, length_lines]
  exact Nat.succ_le_succ ((List.take_sublist _ _).count_le _)

theorem lineOf_mono (le : offset ≤ offset') :
    lineOf (lineStarts text) offset ≤ lineOf (lineStarts text) offset' := by
  rw [lineOf_lineStarts, lineOf_lineStarts]
  exact Nat.succ_le_succ ((List.take_sublist_take_left le).count_le _)

end Offset

/-! ## Joining lines -/

section Join

variable {sep piece : List Char} {pieces pieces' : List (List Char)}

theorem joinWith_cons (filled : pieces ≠ []) :
    joinWith sep (piece :: pieces) = piece ++ (sep ++ joinWith sep pieces) := by
  obtain ⟨second, rest, rfl⟩ := List.exists_cons_of_ne_nil filled
  rw [joinWith, List.append_assoc]

theorem joinWith_append (filled : pieces ≠ []) (filled' : pieces' ≠ []) :
    joinWith sep (pieces ++ pieces') = joinWith sep pieces ++ (sep ++ joinWith sep pieces') := by
  induction pieces with
  | nil => exact absurd rfl filled
  | cons piece pieces ih =>
    rcases List.eq_nil_or_concat pieces with rfl | ⟨_, _, rfl⟩
    · exact joinWith_cons filled'
    · rw [List.cons_append, joinWith_cons (by simp), joinWith_cons (by simp), ih (by simp)]
      simp only [List.append_assoc]

end Join

theorem lines_ne_nil (text : List Char) : lines text ≠ [] :=
  splitBy_ne_nil _ text

/-- Joining its lines gives the text. -/
theorem joinWith_lines (text : List Char) : joinWith ['\n'] (lines text) = text := by
  induction text with
  | nil => rfl
  | cons c text ih =>
    by_cases newline : c = '\n'
    · subst newline
      rw [lines_newline, joinWith_cons (lines_ne_nil text), ih]
      rfl
    · obtain ⟨line, rest, split⟩ := List.exists_cons_of_ne_nil (lines_ne_nil text)
      rw [lines_cons newline, split, List.modifyHead_cons]
      rw [split] at ih
      cases rest with
      | nil => exact congrArg (c :: ·) ih
      | cons second rest =>
        rw [joinWith_cons (by simp), List.cons_append]
        rw [joinWith_cons (by simp)] at ih
        rw [ih]

/-- No line has a newline. -/
theorem newline_not_mem_line {text line : List Char} (mem : line ∈ lines text) : '\n' ∉ line :=
  fun inside => by simpa using (of_mem_splitBy (· == '\n') mem '\n' inside).2

theorem count_joinWith {pieces : List (List Char)} (filled : pieces ≠ [])
    (whole : ∀ piece ∈ pieces, '\n' ∉ piece) :
    (joinWith ['\n'] pieces).count '\n' + 1 = pieces.length := by
  induction pieces with
  | nil => exact absurd rfl filled
  | cons piece pieces ih =>
    obtain ⟨here, later⟩ := List.forall_mem_cons.mp whole
    cases pieces with
    | nil => simp [joinWith, List.count_eq_zero.mpr here]
    | cons second pieces =>
      rw [joinWith_cons (by simp), List.count_append, List.count_append,
        List.count_eq_zero.mpr here, List.length_cons, ← ih (by simp) later]
      simp
      omega

/-! ## Passages -/

variable {content passage passage' : List Char} {first last : Int}

/-- The passage of a text from a line to another, counted from 1: it starts behind a newline and
ends in front of one, or where the text does. -/
structure IsPassage (content : List Char) (first last : Int) (passage : List Char) : Prop where
  split : ∃ before after, content = before ++ (passage ++ after) ∧
    (∀ c ∈ before.getLast?, c = '\n') ∧ (∀ c ∈ after.head?, c = '\n') ∧
    (before.count '\n' : Int) = first - 1 ∧ (passage.count '\n' : Int) = last - first

section Around

variable {pieces : List (List Char)} (others : List (List Char))

/-- Lines in front of others end in a newline each. -/
theorem exists_before (filled : pieces ≠ []) (whole : ∀ piece ∈ others, '\n' ∉ piece) :
    ∃ before, joinWith ['\n'] (others ++ pieces) = before ++ joinWith ['\n'] pieces ∧
      (∀ c ∈ before.getLast?, c = '\n') ∧ before.count '\n' = others.length := by
  rcases List.eq_nil_or_concat others with rfl | ⟨_, _, isConcat⟩
  · exact ⟨[], rfl, by simp, rfl⟩
  · have filled' : others ≠ [] := by simp [isConcat]
    refine ⟨joinWith ['\n'] others ++ ['\n'], ?_, by simp, ?_⟩
    · rw [joinWith_append filled' filled, List.append_assoc]
    · rw [List.count_append, ← count_joinWith filled' whole]
      rfl

/-- Lines behind others start with a newline each. -/
theorem exists_after (filled : pieces ≠ []) :
    ∃ after, joinWith ['\n'] (pieces ++ others) = joinWith ['\n'] pieces ++ after ∧
      ∀ c ∈ after.head?, c = '\n' := by
  cases others with
  | nil => exact ⟨[], by simp, by simp⟩
  | cons other others =>
    refine ⟨['\n'] ++ joinWith ['\n'] (other :: others), joinWith_append filled (by simp), ?_⟩
    simp

end Around

/-- Joining some lines of a text gives their passage. -/
theorem isPassage_lines {first last : Nat} (pos : 1 ≤ first) (ordered : first ≤ last)
    (bound : last ≤ (lines content).length) :
    IsPassage content first last
      (joinWith ['\n'] (((lines content).take last).drop (first - 1))) := by
  have whole : ∀ line ∈ lines content, '\n' ∉ line := fun _ => newline_not_mem_line
  have size : ((lines content).take last).length = last := List.length_take_of_le bound
  have filled : ((lines content).take last).drop (first - 1) ≠ [] := by
    apply List.ne_nil_of_length_pos
    rw [List.length_drop, size]
    omega
  have cut := List.take_append_drop (first - 1) ((lines content).take last)
  rw [List.take_take, Nat.min_eq_left (by omega)] at cut
  obtain ⟨before, joined, ends, count⟩ := exists_before ((lines content).take (first - 1)) filled
    fun line mem => whole line (List.mem_of_mem_take mem)
  have filled' : (lines content).take last ≠ [] := by
    apply List.ne_nil_of_length_pos
    omega
  obtain ⟨after, joined', starts⟩ := exists_after ((lines content).drop last) filled'
  rw [List.take_append_drop, joinWith_lines, ← cut, joined, List.append_assoc] at joined'
  refine ⟨before, after, joined', ends, starts, ?_, ?_⟩
  · rw [count, List.length_take_of_le (by omega)]
    omega
  · have counted := count_joinWith filled fun line mem =>
      whole line (List.mem_of_mem_take (List.mem_of_mem_drop mem))
    rw [List.length_drop, size] at counted
    omega

/-- A longer start of a text that ends in a newline has more of them. -/
theorem eq_nil_of_count {x t : List Char} (ends : ∀ c ∈ (x ++ t).getLast?, c = '\n')
    (same : (x ++ t).count '\n' = x.count '\n') : t = [] := by
  rcases List.eq_nil_or_concat t with rfl | ⟨t, c, rfl⟩
  · rfl
  · rw [List.concat_eq_append, ← List.append_assoc, List.getLast?_concat] at ends
    obtain rfl := ends c rfl
    rw [List.concat_eq_append, List.count_append, List.count_append, List.count_singleton_self]
      at same
    omega

/-- Two starts of a text that end in a newline are the same when they have as many of them. -/
theorem eq_of_count {x y x' y' : List Char} (whole : x ++ y = x' ++ y')
    (ends : ∀ c ∈ x.getLast?, c = '\n') (ends' : ∀ c ∈ x'.getLast?, c = '\n')
    (same : x.count '\n' = x'.count '\n') : x = x' := by
  rcases List.append_eq_append_iff.mp whole with ⟨t, rfl, -⟩ | ⟨t, rfl, -⟩
  · rw [eq_nil_of_count ends' same.symm, List.append_nil]
  · rw [eq_nil_of_count ends same, List.append_nil]

/-- A text has just one passage from a line to another. -/
theorem IsPassage.unique (is : IsPassage content first last passage)
    (is' : IsPassage content first last passage') : passage = passage' := by
  obtain ⟨before, after, whole, ends, starts, counted, size⟩ := is.split
  obtain ⟨before', after', whole', ends', starts', counted', size'⟩ := is'.split
  have sameFront : before.count '\n' = before'.count '\n' := by omega
  have sameSize : passage.count '\n' = passage'.count '\n' := by omega
  -- Both start behind the same newline, and both end in front of the same one.
  obtain rfl : before = before' := eq_of_count (whole.symm.trans whole') ends ends' sameFront
  have rest := List.append_cancel_left (whole.symm.trans whole')
  have ended {t passage after : List Char} (starts : ∀ c ∈ (t ++ after).head?, c = '\n')
      (same : (passage ++ t).count '\n' = passage.count '\n') : t = [] := by
    cases t with
    | nil => rfl
    | cons c t =>
      obtain rfl := starts c rfl
      rw [List.count_append, List.count_cons_self] at same
      omega
  rcases List.append_eq_append_iff.mp rest with ⟨t, rfl, rfl⟩ | ⟨t, rfl, rfl⟩
  · rw [ended starts sameSize.symm, List.append_nil]
  · rw [ended starts' sameSize, List.append_nil]

/-! ## Names joined by a separator -/

section Names

variable {sep : Char} {names : List (List Char)} {text : List Char}

/-! ### All names -/

theorem joinWith_eq_intercalate (sep : List Char) (pieces : List (List Char)) :
    joinWith sep pieces = sep.intercalate pieces := by
  induction pieces with
  | nil => rfl
  | cons piece pieces ih =>
    cases pieces with
    | nil => simp [joinWith]
    | cons second rest => rw [joinWith, List.intercalate_cons_cons, ih]

/-- Joined names tell what they are. -/
theorem joinWith_inj {names' : List (List Char)} (whole : ∀ name ∈ names, sep ∉ name)
    (whole' : ∀ name ∈ names', sep ∉ name) (filled : names ≠ []) (filled' : names' ≠ []) :
    joinWith [sep] names = joinWith [sep] names' ↔ names = names' := by
  refine ⟨fun same => ?_, congrArg _⟩
  rw [joinWith_eq_intercalate, joinWith_eq_intercalate] at same
  rw [← List.splitOn_intercalate sep whole filled, same,
    List.splitOn_intercalate sep whole' filled']

/-- Splitting takes joined names apart. -/
theorem splitOn_joinWith (whole : ∀ name ∈ names, sep ∉ name) (filled : names ≠ []) :
    splitOn sep (joinWith [sep] names) = names := by
  rw [splitOn, splitBy_eq_splitOnP, joinWith_eq_intercalate]
  exact List.splitOn_intercalate sep whole filled

/-- Every name but the first has a separator in front of it. -/
theorem joinWith_cons_eq_flatMap (first : List Char) (names : List (List Char)) :
    joinWith [sep] (first :: names) = first ++ names.flatMap (sep :: ·) := by
  induction names generalizing first with
  | nil => simp [joinWith]
  | cons second names ih => rw [joinWith, ih, List.flatMap_cons, List.append_assoc]; rfl

theorem joinWith_ne_nil (named : ∀ name ∈ names, name ≠ []) (filled : names ≠ []) :
    joinWith [sep] names ≠ [] := by
  obtain ⟨first, rest, rfl⟩ := List.exists_cons_of_ne_nil filled
  have first_filled : first ≠ [] := named first List.mem_cons_self
  cases rest <;> simp [joinWith, first_filled]

/-- What stands in front of a separator, and behind it, are joined names. -/
theorem joinWith_eq_append_cons_iff (whole : ∀ name ∈ names, sep ∉ name) (filled : names ≠ [])
    {u w : List Char} : joinWith [sep] names = u ++ sep :: w ↔
      ∃ front back, front ≠ [] ∧ back ≠ [] ∧ names = front ++ back ∧
        u = joinWith [sep] front ∧ w = joinWith [sep] back := by
  constructor
  · intro cut
    have parts : names = List.splitOn sep u ++ List.splitOn sep w := by
      rw [← List.splitOn_append_cons_self, ← cut, joinWith_eq_intercalate,
        List.splitOn_intercalate sep whole filled]
    exact ⟨_, _, List.splitOn_ne_nil sep u, List.splitOn_ne_nil sep w, parts,
      by rw [joinWith_eq_intercalate, List.intercalate_splitOn],
      by rw [joinWith_eq_intercalate, List.intercalate_splitOn]⟩
  · rintro ⟨front, back, front_filled, back_filled, rfl, rfl, rfl⟩
    rw [joinWith_append front_filled back_filled]
    rfl

/-! ### The last name -/

private theorem takeWhile_behind (plain : sep ∉ text) (before : List Char) :
    (text.reverse ++ before).takeWhile (· != sep) = text.reverse ++ before.takeWhile (· != sep) := by
  refine List.takeWhile_append_of_pos fun c mem => ?_
  rw [bne_iff_ne]
  rintro rfl
  exact plain (List.mem_reverse.mp mem)

theorem afterLast_append_cons (before : List Char) (plain : sep ∉ text) :
    afterLast sep (before ++ sep :: text) = text := by
  simp [afterLast, takeWhile_behind plain]

theorem afterLast_eq_self (plain : sep ∉ text) : afterLast sep text = text := by
  have stands := takeWhile_behind plain []
  rw [List.append_nil] at stands
  simp [afterLast, stands]

theorem afterLast_joinWith {name : List Char} (plain : sep ∉ name) :
    afterLast sep (joinWith [sep] (names ++ [name])) = name := by
  by_cases filled : names = []
  · subst filled
    exact afterLast_eq_self plain
  · rw [joinWith_append filled (by simp)]
    exact afterLast_append_cons _ plain

/-! ### Separators at the ends -/

theorem dropTrailing_eq_self (other : text.getLast? ≠ some sep) : dropTrailing sep text = text := by
  rcases List.eq_nil_or_concat text with rfl | ⟨before, c, rfl⟩
  · rfl
  · have kept : c ≠ sep := by simpa using other
    simp [dropTrailing, kept]

theorem dropTrailing_append_singleton (other : text.getLast? ≠ some sep) :
    dropTrailing sep (text ++ [sep]) = text := by
  have same := dropTrailing_eq_self other
  rw [dropTrailing] at same ⊢
  simpa using same

theorem dropLeading_eq_self (other : text.head? ≠ some sep) : dropLeading sep text = text := by
  cases text with
  | nil => rfl
  | cons c rest =>
    have kept : c ≠ sep := by simpa using other
    simp [dropLeading, kept]

end Names

end CodeAtlas.Text
