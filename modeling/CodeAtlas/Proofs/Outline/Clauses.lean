import CodeAtlas.Proofs.Embedding.Normal
import CodeAtlas.Proofs.Outline.Distinct
import CodeAtlas.Proofs.Outline.Name
import CodeAtlas.Proofs.Pattern.Greedy
import CodeAtlas.Proofs.Pattern.Yield
import CodeAtlas.Proofs.Text.Line
import Mathlib

/-!
# Lists of names read back

A clause of an import or an export is a name, or a name with another one that it is bound to. Clauses
are listed with commas between them, perhaps with one more at the end, perhaps in brackets, and with
blanks and line breaks wherever there is room. Such a list is split into its names again, each once,
in the order of first occurrence.

One clause is misread. A word `type` in front of a name marks the import of a type and is dropped, so
a name `type` that is bound to another name is taken for that mark, and what is left is no name.

## Main results

`Names.split_listed`: what a list of clauses is split into.
`Names.split_listed_type`: the clause that is lost.

## Proof strategy

A text between two commas or brackets comes down to its words. `Names.readings` collects the words of
every such text, it can be computed along the way in which a list is written, and splitting reads the
names off it.
-/

namespace CodeAtlas

open Text Pattern Grammar

/-! ## Words -/

namespace Text

variable {gap text : List Char}

theorem words_append_cons (before after : List Char) {b : Char} (blank : isBlank b = true) :
    words (before ++ b :: after) = words before ++ words after := by
  rw [words, splitBy_append_cons before after blank, List.filter_append]
  rfl

theorem words_eq_singleton (filled : text ≠ []) (plain : ∀ c ∈ text, isBlank c = false) :
    words text = [text] := by
  simp [words, splitBy_eq_singleton plain, filled]

theorem words_gap_append (blank : isBlankText gap = true) (text : List Char) :
    words (gap ++ text) = words text := by
  induction gap with
  | nil => rfl
  | cons b gap ih =>
    rw [isBlankText, List.all_cons, Bool.and_eq_true] at blank
    exact (words_append_cons [] (gap ++ text) blank.1).trans (ih blank.2)

theorem words_append_gap (blank : isBlankText gap = true) (filled : gap ≠ [])
    (text after : List Char) : words (text ++ (gap ++ after)) = words text ++ words after := by
  obtain ⟨b, gap, rfl⟩ := List.exists_cons_of_ne_nil filled
  rw [isBlankText, List.all_cons, Bool.and_eq_true] at blank
  rw [List.cons_append, words_append_cons text _ blank.1, words_gap_append blank.2]

theorem words_append_blank (blank : isBlankText gap = true) (text : List Char) :
    words (text ++ gap) = words text := by
  cases gap with
  | nil => rw [List.append_nil]
  | cons b gap =>
    have ended := words_append_gap blank (List.cons_ne_nil b gap) text []
    rw [List.append_nil] at ended
    exact ended.trans (List.append_nil _)

theorem find?_go_eq_none {first : Char} (part : List Char) (absent : first ∉ text) (offset : Nat) :
    find?.go (first :: part) offset text = none := by
  induction text generalizing offset with
  | nil => rfl
  | cons c text ih =>
    have other : (first == c) = false :=
      beq_false_of_ne fun same => absent (same ▸ List.mem_cons_self)
    rw [find?.go, List.isPrefixOf, other]
    exact ih (fun mem => absent (List.mem_cons_of_mem c mem)) (offset + 1)

/-- A text without the first character of another one does not hold that one. -/
theorem find?_eq_none {first : Char} (part : List Char) (absent : first ∉ text) :
    find? (first :: part) text = none :=
  find?_go_eq_none part absent 0

/-- The first occurrence of a text is behind what does not have its first character. -/
theorem find?_append {first : Char} {part before after : List Char} (absent : first ∉ before)
    (stands : first :: part <+: after) :
    find? (first :: part) (before ++ after) = some before.length := by
  suffices all : ∀ offset, find?.go (first :: part) offset (before ++ after) =
      some (offset + before.length) by
    rw [find?, all 0, Nat.zero_add]
  induction before with
  | nil =>
    intro offset
    cases after with
    | nil => cases List.prefix_nil.mp stands
    | cons c after => exact if_pos (List.isPrefixOf_iff_prefix.mpr stands)
  | cons c before ih =>
    intro offset
    have other : (first == c) = false :=
      beq_false_of_ne fun same => absent (same ▸ List.mem_cons_self)
    rw [List.cons_append, find?.go, List.isPrefixOf, other, List.length_cons]
    refine (ih (fun mem => absent (List.mem_cons_of_mem c mem)) (offset + 1)).trans ?_
    rw [Nat.add_right_comm, Nat.add_assoc]

theorem trim_of_forall (plain : ∀ c ∈ text, isBlank c = false) : trim text = text :=
  Feature.trim_of_plain (fun c mem => plain c (List.mem_of_mem_head? mem))
    fun c mem => plain c (List.mem_of_mem_getLast? mem)

end Text

namespace Names

/-! ## What a list is split into -/

section Split

variable {text : List Char}

/-- Without the marks of a comment there is no comment to drop. -/
theorem comment_replaceAll (unmarked : ∀ c ∈ text, c ≠ '#' ∧ c ≠ '/') :
    comment.replaceAll (fun _ => []) text = text := by
  -- A comment starts with one of two marks, and neither stands at any place.
  have fails {c : Cursor} (unmarked : ∀ x ∈ c.rest.head?, x ≠ '#' ∧ x ≠ '/') :
      comment.matchAt? c = none := by
    have apart {mark : String} (first : ∀ x ∈ c.rest.head?, mark.toList.head? ≠ some x)
        (filled : mark.toList ≠ []) : ¬mark.toList <+: c.rest := by
      rintro ⟨after, split⟩
      obtain ⟨x, rest, is⟩ := List.exists_cons_of_ne_nil filled
      refine first x ?_ (by rw [is]; rfl)
      rw [← split, is]
      rfl
    simp only [comment, append_eq_seq, matchAt?, match?]
    rw [match?_text_eq_none (apart (fun x mem same => ?_) (by decide)),
      match?_text_eq_none (apart (fun x mem same => ?_) (by decide))]
    · rfl
    · exact (unmarked x mem).2 (Option.some.inj same).symm
    · exact (unmarked x mem).1 (Option.some.inj same).symm
  suffices all : ∀ (before : Option Char) (offset : Nat),
      replaceAll.go comment (fun _ => []) before offset 0 text = text from all none 0
  induction text with
  | nil =>
    intro before offset
    rw [replaceAll.go, fails (by simp)]
    rfl
  | cons x text ih =>
    obtain ⟨is, unmarked⟩ := List.forall_mem_cons.mp unmarked
    intro before offset
    rw [replaceAll.go, fails (by simpa using is)]
    exact congrArg (x :: ·) (ih unmarked (some x) (offset + 1))

def isMark (c : Char) : Bool :=
  isBracket c || c == ','

/-- The words of every text between two marks, where there are any. -/
def readings (text : List Char) : List (List (List Char)) :=
  ((splitBy isMark text).map words).filter (!·.isEmpty)

theorem readings_append_cons (before after : List Char) {mark : Char} (marks : isMark mark = true) :
    readings (before ++ mark :: after) = readings before ++ readings after := by
  rw [readings, splitBy_append_cons before after marks, List.map_append, List.filter_append]
  rfl

theorem readings_eq_singleton (unmarked : ∀ c ∈ text, isMark c = false) (filled : words text ≠ []) :
    readings text = [words text] := by
  simp [readings, splitBy_eq_singleton unmarked, filled]

/-- Brackets count as commas. -/
theorem splitOn_map_bracket (text : List Char) :
    splitOn ',' (text.map fun c => if isBracket c then ',' else c) = splitBy isMark text := by
  suffices all : ∀ piece, splitBy.go (· == ',') piece
      (text.map fun c => if isBracket c then ',' else c) = splitBy.go isMark piece text from all []
  induction text with
  | nil => exact fun _ => rfl
  | cons c text ih =>
    intro piece
    rw [List.map_cons, splitBy.go, splitBy.go, isMark, ih, ih]
    cases isBracket c <;> simp

theorem joinWith_words_eq_nil {ws : List (List Char)} (filled : [] ∉ ws) :
    joinWith [' '] ws = [] ↔ ws = [] := by
  match ws with
  | [] => simp [joinWith]
  | [w] => simpa [joinWith, eq_comm] using filled
  | w :: w' :: ws => simp [joinWith]

/-- A list is split into the names that the words between its marks stand for. -/
theorem split_eq (unmarked : ∀ c ∈ text, c ≠ '#' ∧ c ≠ '/')
    (plain : ∀ ws ∈ readings text, (joinWith [' '] ws).head? ≠ some '*') (keepAlias : Bool) :
    split text keepAlias = distinct ((((readings text).map fun ws =>
      clauseName keepAlias (joinWith [' '] ws)).filter ident.matchesAll).map String.ofList) := by
  -- The texts that are dropped as empty are those without a word.
  have kept : (((splitBy isMark text).map fun part => joinWith [' '] (words part)).filter
      fun clause => !clause.isEmpty && clause.head? != some '*') =
        (readings text).map (joinWith [' ']) := by
    rw [readings, List.filter_map, List.filter_map, List.map_map]
    refine congrArg _ (List.filter_congr fun part mem => ?_)
    have filled : [] ∉ words part := fun mem => by simpa using List.of_mem_filter mem
    rw [Bool.eq_iff_iff, Function.comp_apply, Function.comp_apply]
    simp only [Bool.and_eq_true, Bool.not_eq_true', List.isEmpty_eq_false_iff, bne_iff_ne, ne_eq,
      joinWith_words_eq_nil filled, and_iff_left_iff_imp]
    refine fun shown => plain _ (List.mem_filter.mpr ⟨List.mem_map_of_mem mem, ?_⟩)
    simpa using shown
  simp only [split, comment_replaceAll unmarked, splitOn_map_bracket, kept, List.map_map]
  rfl

end Split

/-! ## Clauses -/

/-- A character of an identifier. -/
def isNameChar (c : Char) : Bool :=
  c.isAlphanum || c == '_' || c == '$'

/-- ASCII letters, digits, underscores and dollars, and no digit first. -/
structure IsIdentifier (w : List Char) : Prop where
  chars : ∀ c ∈ w, isNameChar c = true
  start : ∃ c ∈ w.head?, c.isDigit = false

abbrev Identifier :=
  { name : String // IsIdentifier name.toList }

/-- A clause of a list: a name, perhaps with the one that it is bound to. -/
structure Clause where
  name : Identifier
  bound? : Option Identifier

/-- Nothing but blanks and line breaks. -/
abbrev Gap :=
  { gap : List Char // isBlankText gap = true }

namespace Clause

/-- The name that a clause binds, or else the one that it takes. -/
def kept (keepAlias : Bool) (c : Clause) : String :=
  if keepAlias then c.bound?.getD c.name else c.name

/-- A name `type` that is bound to another name. -/
def renamesType (c : Clause) : Bool :=
  c.name.val == "type" && c.bound?.isSome

def words (c : Clause) : List (List Char) :=
  match c.bound? with
  | none => [c.name.val.toList]
  | some bound => [c.name.val.toList, "as".toList, bound.val.toList]

inductive Written : Clause → List Char → Prop
  | plain (name : Identifier) (before after : Gap) :
    Written ⟨name, none⟩ (before ++ (name.val.toList ++ after))
  | renamed (name bound : Identifier) (before inner inner' after : Gap) (filled : inner.val ≠ [])
    (filled' : inner'.val ≠ []) :
    Written ⟨name, some bound⟩ (before ++ (name.val.toList ++ (inner ++ ("as".toList ++
      (inner' ++ (bound.val.toList ++ after))))))

end Clause

/-- How some clauses are written one after another, with commas between them and perhaps behind. -/
inductive Written : List Clause → List Char → Prop
  | nothing (gap : Gap) : Written [] gap
  | last {c : Clause} {text : List Char} (clause : c.Written text) : Written [c] text
  | more {c : Clause} {cs : List Clause} {text rest : List Char} (clause : c.Written text)
    (others : Written cs rest) : Written (c :: cs) (text ++ ',' :: rest)
  | trailing {cs : List Clause} {text : List Char} (written : Written cs text) (gap : Gap) :
    Written cs (text ++ ',' :: gap)

/-- How a list of clauses is written: bare or in brackets. -/
inductive Listed (cs : List Clause) : List Char → Prop
  | bare {text : List Char} (written : Written cs text) : Listed cs text
  | wrapped {text : List Char} (written : Written cs text) (before after : Gap) (opener closer : Char)
    (brackets : (opener, closer) ∈ [('(', ')'), ('\x7b', '\x7d')]) :
    Listed cs (before ++ opener :: (text ++ closer :: after))

/-! ### Characters -/

theorem val_lt_of_isAlphanum {c : Char} (alphanum : c.isAlphanum = true) : c.val < 0x80 := by
  simp only [Char.isAlphanum, Char.isAlpha, Char.isUpper, Char.isLower, Char.isDigit,
    Bool.or_eq_true, Bool.and_eq_true, decide_eq_true_eq, UInt32.le_iff_toNat_le,
    UInt32.lt_iff_toNat_lt, ge_iff_le, Char.reduceVal, UInt32.reduceToNat] at alphanum ⊢
  omega

theorem isWordChar_of_isAlphanum {c : Char} (alphanum : c.isAlphanum = true) :
    isWordChar c = true := by
  rw [isWordChar, isLetterOrNumber, if_pos (val_lt_of_isAlphanum alphanum), alphanum, Bool.true_or]

theorem isIdentChar_of_isNameChar {c : Char} (char : isNameChar c = true) : isIdentChar c = true := by
  rw [isNameChar, Bool.or_eq_true, Bool.or_eq_true] at char
  rw [isIdentChar, Bool.or_eq_true]
  obtain (alphanum | underscore) | dollar := char
  · exact .inl (isWordChar_of_isAlphanum alphanum)
  · rw [eq_of_beq underscore]
    exact .inl (by decide)
  · exact .inr dollar

/-- A character that no identifier has. -/
theorem ne_of_isNameChar {c d : Char} (char : isNameChar c = true) (other : isIdentChar d = false) :
    c ≠ d := by
  rintro rfl
  rw [isIdentChar_of_isNameChar char] at other
  cases other

theorem isIdentStart_of_isNameChar {c : Char} (char : isNameChar c = true)
    (start : c.isDigit = false) : isIdentStart c = true := by
  rw [isNameChar, Char.isAlphanum, start, Bool.or_false] at char
  rw [isIdentStart]
  cases alpha : c.isAlpha with
  | false =>
    rw [alpha, Bool.false_or] at char
    rw [Bool.and_false, Bool.false_or, char]
  | true =>
    have ascii : c.val < 0x80 := val_lt_of_isAlphanum (by rw [Char.isAlphanum, alpha, Bool.true_or])
    simp [ascii]

namespace IsIdentifier

variable {w : List Char} (is : IsIdentifier w)

include is

theorem filled : w ≠ [] := by
  obtain ⟨c, first, -⟩ := is.start
  rintro rfl
  cases first

theorem plain : ∀ c ∈ w, isBlank c = false :=
  fun c mem => isBlank_of_isIdentChar (isIdentChar_of_isNameChar (is.chars c mem))

end IsIdentifier

/-! ### The words of a list -/

section Readings

variable {c : Clause} {cs : List Clause} {text : List Char}

theorem words_written (written : c.Written text) : Text.words text = c.words := by
  cases written with
  | plain name before after =>
    rw [words_gap_append before.property, words_append_blank after.property,
      words_eq_singleton name.property.filled name.property.plain]
    rfl
  | renamed name bound before inner inner' after filled filled' =>
    rw [words_gap_append before.property, words_append_gap inner.property filled,
      words_append_gap inner'.property filled', words_append_blank after.property,
      words_eq_singleton name.property.filled name.property.plain,
      show Text.words "as".toList = ["as".toList] by decide,
      words_eq_singleton bound.property.filled bound.property.plain]
    rfl

theorem Clause.words_ne_nil (c : Clause) : c.words ≠ [] := by
  obtain ⟨name, _ | bound⟩ := c <;> simp [Clause.words]

/-- What a list consists of between its marks. -/
def isInner (c : Char) : Bool :=
  isNameChar c || isBlank c

theorem isInner_of_gap (gap : Gap) : ∀ x ∈ gap.val, isInner x = true :=
  fun x mem => by rw [isInner, List.all_eq_true.mp gap.property x mem, Bool.or_true]

theorem isInner_of_written (written : c.Written text) : ∀ x ∈ text, isInner x = true := by
  have ofName (name : Identifier) : ∀ x ∈ name.val.toList, isInner x = true := fun x mem => by
    rw [isInner, name.property.chars x mem, Bool.true_or]
  cases written with
  | plain name before after =>
    simp only [List.forall_mem_append]
    exact ⟨isInner_of_gap before, ofName name, isInner_of_gap after⟩
  | renamed name bound before inner inner' after =>
    simp only [List.forall_mem_append]
    exact ⟨isInner_of_gap before, ofName name, isInner_of_gap inner, List.all_eq_true.mp rfl,
      isInner_of_gap inner', ofName bound, isInner_of_gap after⟩

/-- Neither a mark nor the start of a comment. -/
theorem isMark_of_isInner {x : Char} (inner : isInner x = true) :
    isMark x = false ∧ x ≠ '#' ∧ x ≠ '/' := by
  rcases Bool.or_eq_true _ _ |>.mp inner with char | blank
  · have other {d : Char} (other : isIdentChar d = false) : (x == d) = false :=
      beq_false_of_ne (ne_of_isNameChar char other)
    refine ⟨?_, ne_of_isNameChar char (by decide), ne_of_isNameChar char (by decide)⟩
    rw [isMark, isBracket, other (by decide), other (by decide), other (by decide),
      other (by decide), other (by decide)]
    rfl
  · exact forall_blank (P := fun x => isMark x = false ∧ x ≠ '#' ∧ x ≠ '/') (by decide) blank

theorem readings_clause (written : c.Written text) : readings text = [c.words] := by
  have read := words_written written
  rw [readings_eq_singleton (fun x mem => (isMark_of_isInner (isInner_of_written written x mem)).1)
    (read ▸ c.words_ne_nil), read]

theorem readings_gap (gap : Gap) : readings gap = [] := by
  have unmarked : ∀ x ∈ gap.val, isMark x = false := fun x mem =>
    (isMark_of_isInner (isInner_of_gap gap x mem)).1
  simp [readings, splitBy_eq_singleton unmarked, words_eq_nil_iff.mpr gap.property]

theorem readings_written (written : Written cs text) : readings text = cs.map Clause.words := by
  induction written with
  | nothing gap => exact readings_gap gap
  | last clause => exact readings_clause clause
  | more clause others ih =>
    rw [readings_append_cons _ _ (by decide), readings_clause clause, ih]
    rfl
  | trailing written gap ih =>
    rw [readings_append_cons _ _ (by decide), ih, readings_gap, List.append_nil]

theorem readings_listed (listed : Listed cs text) : readings text = cs.map Clause.words := by
  cases listed with
  | bare written => exact readings_written written
  | @wrapped inside written before after opener closer brackets =>
    have marks : isMark opener = true ∧ isMark closer = true := by
      simp only [List.mem_cons, Prod.mk.injEq, List.not_mem_nil, or_false] at brackets
      obtain ⟨rfl, rfl⟩ | ⟨rfl, rfl⟩ := brackets <;> decide
    rw [readings_append_cons _ _ marks.1, readings_append_cons _ _ marks.2,
      readings_written written, readings_gap, readings_gap, List.nil_append, List.append_nil]

theorem uncommented_written (written : Written cs text) : ∀ x ∈ text, x ≠ '#' ∧ x ≠ '/' := by
  induction written with
  | nothing gap => exact fun x mem => (isMark_of_isInner (isInner_of_gap gap x mem)).2
  | last clause => exact fun x mem => (isMark_of_isInner (isInner_of_written clause x mem)).2
  | more clause others ih =>
    rw [List.forall_mem_append, List.forall_mem_cons]
    exact ⟨fun x mem => (isMark_of_isInner (isInner_of_written clause x mem)).2, by decide, ih⟩
  | trailing written gap ih =>
    rw [List.forall_mem_append, List.forall_mem_cons]
    exact ⟨ih, by decide, fun x mem => (isMark_of_isInner (isInner_of_gap gap x mem)).2⟩

theorem uncommented_listed (listed : Listed cs text) : ∀ x ∈ text, x ≠ '#' ∧ x ≠ '/' := by
  cases listed with
  | bare written => exact uncommented_written written
  | @wrapped inside written before after opener closer brackets =>
    have apart : (opener ≠ '#' ∧ opener ≠ '/') ∧ closer ≠ '#' ∧ closer ≠ '/' := by
      simp only [List.mem_cons, Prod.mk.injEq, List.not_mem_nil, or_false] at brackets
      obtain ⟨rfl, rfl⟩ | ⟨rfl, rfl⟩ := brackets <;> decide
    have ofGap (gap : Gap) : ∀ x ∈ gap.val, x ≠ '#' ∧ x ≠ '/' :=
      fun x mem => (isMark_of_isInner (isInner_of_gap gap x mem)).2
    simp only [List.forall_mem_append, List.forall_mem_cons]
    exact ⟨ofGap before, apart.1, uncommented_written written, apart.2, ofGap after⟩

end Readings

/-! ### The name of a clause -/

section ClauseName

variable {w bound : List Char}

/-- A text starts with no other word than its first. -/
theorem eq_of_prefix_word {mark rest : List Char} (plain : ' ' ∉ w) (whole : ' ' ∉ mark)
    (starts : mark ++ [' '] <+: w ++ ' ' :: rest) : mark = w := by
  have first {v : List Char} (whole : ' ' ∉ v) (after : List Char) :
      (v ++ ' ' :: after).takeWhile (· != ' ') = v := by
    have other : ∀ c ∈ v, (c != ' ') = true := fun c mem => by
      rw [bne_iff_ne]
      rintro rfl
      exact whole mem
    rw [List.takeWhile_append_of_pos other]
    simp
  obtain ⟨after, split⟩ := starts
  rw [List.append_assoc, List.singleton_append] at split
  rw [← first whole after, split, first plain]

theorem clauseName_plain (keepAlias : Bool) (plain : ∀ c ∈ w, isBlank c = false) :
    clauseName keepAlias w = w := by
  have spaceless : ' ' ∉ w := fun mem => absurd (plain ' ' mem) (by decide)
  have unmarked : dropStart? "type ".toList w = none := by
    refine if_neg fun starts => spaceless ?_
    exact (List.isPrefixOf_iff_prefix.mp starts).subset (by decide)
  have single : cut? " as ".toList w = none := by
    rw [cut?, show " as ".toList = ' ' :: "as ".toList from rfl,
      find?_eq_none _ spaceless]
    rfl
  rw [clauseName, unmarked, Option.getD_none]
  simp only [single]
  exact trim_of_forall plain

/-- A renamed clause stands for one of its names, unless the first is taken for a mark. -/
theorem clauseName_renamed (keepAlias : Bool) (plain : ∀ c ∈ w, isBlank c = false)
    (plain' : ∀ c ∈ bound, isBlank c = false) (unmarked : w ≠ "type".toList) :
    clauseName keepAlias (w ++ ' ' :: ("as".toList ++ ' ' :: bound)) =
      if keepAlias then bound else w := by
  have spaceless : ' ' ∉ w := fun mem => absurd (plain ' ' mem) (by decide)
  have unmarked : dropStart? "type ".toList (w ++ ' ' :: ("as".toList ++ ' ' :: bound)) = none := by
    refine if_neg fun starts => unmarked ?_
    exact (eq_of_prefix_word spaceless (by decide) (List.isPrefixOf_iff_prefix.mp starts)).symm
  have cut : cut? " as ".toList (w ++ ' ' :: ("as".toList ++ ' ' :: bound)) = some (w, bound) := by
    rw [cut?, show " as ".toList = ' ' :: "as ".toList from rfl,
      find?_append spaceless ⟨bound, by simp⟩]
    simp [List.drop_append]
  rw [clauseName, unmarked, Option.getD_none]
  simp only [cut]
  cases keepAlias
  · exact trim_of_forall plain
  · exact trim_of_forall plain'

/-- When the first word is taken for a mark, what is left has a space in it. -/
theorem clauseName_type (keepAlias : Bool) (filled : bound ≠ [])
    (plain : ∀ c ∈ bound, isBlank c = false) :
    clauseName keepAlias ("type".toList ++ ' ' :: ("as".toList ++ ' ' :: bound)) =
      "as".toList ++ ' ' :: bound := by
  have spaceless : ' ' ∉ bound := fun mem => absurd (plain ' ' mem) (by decide)
  -- Nothing is cut off, since the space before `as` went with the mark.
  have single : cut? " as ".toList ("as".toList ++ ' ' :: bound) = none := by
    have apart : ['a', 's', ' '].isPrefixOf bound = false := by
      refine Bool.eq_false_iff.mpr fun starts => spaceless ?_
      exact (List.isPrefixOf_iff_prefix.mp starts).subset (by simp)
    rw [cut?, show " as ".toList = [' ', 'a', 's', ' '] from rfl,
      show "as".toList = ['a', 's'] from rfl]
    simp [Text.find?, Text.find?.go, List.isPrefixOf, find?_go_eq_none _ spaceless, apart]
  have marked : dropStart? "type ".toList ("type".toList ++ ' ' :: ("as".toList ++ ' ' :: bound)) =
      some ("as".toList ++ ' ' :: bound) := by
    simp [dropStart?]
  have ends : ("as".toList ++ ' ' :: bound).getLast? = bound.getLast? := by
    rw [List.getLast?_append_of_ne_nil _ (by simp), List.getLast?_cons,
      List.getLast?_eq_some_getLast filled]
    rfl
  rw [clauseName, marked, Option.getD_some]
  simp only [single]
  refine Feature.trim_of_plain (fun c first => ?_) fun c last => ?_
  · obtain rfl : 'a' = c := by simpa using first
    decide
  · exact plain c (List.mem_of_mem_getLast? (ends ▸ last))

theorem matchesAll_ident {x : Char} {rest : List Char} :
    ident.matchesAll (x :: rest) = (isIdentStart x && rest.all isIdentChar) := by
  rw [matchesAll, ident, append_eq_seq, match?, match?]
  simp only [Cursor.start]
  cases starts : isIdentStart x with
  | false => rfl
  | true =>
    rw [if_pos rfl, Bool.true_and, Bool.eq_iff_iff, List.all_eq_true]
    constructor
    · intro matched
      obtain ⟨found, matched⟩ := Option.isSome_iff_exists.mp matched
      obtain ⟨d, new, yields, ends⟩ := exists_yields matched
      obtain ⟨passed, passes, accepted⟩ :=
        yields.within (Q := fun c => isIdentChar c = true) fun c accepted => accepted
      -- The match ends where the text does.
      have ended : d.rest = [] := by
        by_contra left
        simp [left] at ends
      have whole : rest = passed := by simpa [ended] using passes.rest
      exact whole ▸ accepted
    · intro accepted
      rw [match?_run0 (rest.append_nil).symm accepted (by simp) rfl]
      rfl

theorem matchesAll_of_isIdentifier (is : IsIdentifier w) : ident.matchesAll w = true := by
  obtain ⟨c, first, start⟩ := is.start
  obtain ⟨rest, rfl⟩ := List.head?_eq_some_iff.mp first
  rw [matchesAll_ident, isIdentStart_of_isNameChar (is.chars c List.mem_cons_self) start,
    Bool.true_and, List.all_eq_true]
  exact fun d mem => isIdentChar_of_isNameChar (is.chars d (List.mem_cons_of_mem c mem))

variable {c : Clause} (keepAlias : Bool)

theorem isIdentifier_kept : IsIdentifier (c.kept keepAlias).toList := by
  obtain ⟨name, _ | bound⟩ := c <;> cases keepAlias
  · exact name.property
  · exact name.property
  · exact name.property
  · exact bound.property

theorem clauseName_words (unmarked : c.renamesType = false) :
    clauseName keepAlias (joinWith [' '] c.words) = (c.kept keepAlias).toList := by
  obtain ⟨name, _ | bound⟩ := c
  · exact (clauseName_plain keepAlias name.property.plain).trans (by cases keepAlias <;> rfl)
  · have other : name.val.toList ≠ "type".toList := fun same => by
      simp [Clause.renamesType, String.toList_inj.mp same] at unmarked
    have text : joinWith [' '] (Clause.words ⟨name, some bound⟩) =
        name.val.toList ++ ' ' :: ("as".toList ++ ' ' :: bound.val.toList) := by
      simp [joinWith, Clause.words]
    rw [text, clauseName_renamed keepAlias name.property.plain bound.property.plain other]
    cases keepAlias <;> rfl

/-- What is read off the words of a clause that renames `type` is no identifier. -/
theorem matchesAll_clauseName_type (marked : c.renamesType = true) :
    ident.matchesAll (clauseName keepAlias (joinWith [' '] c.words)) = false := by
  obtain ⟨name, _ | bound⟩ := c
  · simp [Clause.renamesType] at marked
  · have same : name.val = "type" := by simpa [Clause.renamesType] using marked
    have text : joinWith [' '] (Clause.words ⟨name, some bound⟩) =
        "type".toList ++ ' ' :: ("as".toList ++ ' ' :: bound.val.toList) := by
      simp [joinWith, Clause.words, same]
    rw [text, clauseName_type keepAlias bound.property.filled bound.property.plain,
      show "as".toList = 'a' :: ['s'] from rfl, List.cons_append, matchesAll_ident]
    simp [show isIdentChar ' ' = false by decide]

/-- Of the names read off some clauses all are kept but those of clauses that rename `type`. -/
theorem filter_clauseName (cs : List Clause) :
    (((cs.map Clause.words).map fun ws => clauseName keepAlias (joinWith [' '] ws)).filter
      ident.matchesAll).map String.ofList =
        (cs.filter fun c => !c.renamesType).map (Clause.kept keepAlias) := by
  induction cs with
  | nil => rfl
  | cons c cs ih =>
    rw [List.map_cons, List.map_cons]
    cases marked : c.renamesType with
    | true =>
      rw [List.filter_cons_of_neg (by simp [matchesAll_clauseName_type keepAlias marked]), ih,
        List.filter_cons_of_neg (by simp [marked])]
    | false =>
      rw [clauseName_words keepAlias marked,
        List.filter_cons_of_pos (matchesAll_of_isIdentifier (isIdentifier_kept keepAlias)),
        List.map_cons, String.ofList_toList, ih, List.filter_cons_of_pos (by simp [marked]),
        List.map_cons]

end ClauseName

/-! ## Reading a list -/

/-- A list of clauses, however it is written, is split into the names of its clauses, each once, in
the order of first occurrence. Clauses that rename `type` are lost. -/
theorem split_listed {cs : List Clause} {text : List Char} (listed : Listed cs text)
    (keepAlias : Bool) :
    FirstOccurrences ((cs.filter fun c => !c.renamesType).map (Clause.kept keepAlias))
      (split text keepAlias) := by
  have named : ∀ ws ∈ readings text, (joinWith [' '] ws).head? ≠ some '*' := by
    rw [readings_listed listed, List.forall_mem_map]
    intro c _ star
    -- A clause starts as its name does, and no name starts with a star.
    have first : (joinWith [' '] c.words).head? = c.name.val.toList.head? := by
      obtain ⟨x, rest, is⟩ := List.exists_cons_of_ne_nil c.name.property.filled
      obtain ⟨name, _ | bound⟩ := c <;> simp_all [joinWith, Clause.words]
    have mem := List.mem_of_mem_head? (first ▸ star)
    exact ne_of_isNameChar (c.name.property.chars _ mem) (by decide) rfl
  rw [split_eq (uncommented_listed listed) named keepAlias, readings_listed listed,
    filter_clauseName]
  exact firstOccurrences_distinct _

/-- In braces, over two lines and with a comma at the end: a name comes back that is bound to another
one and stands alone behind that, and so does a name `type`. -/
theorem split_listed_braces :
    let a : Identifier := ⟨"a", List.all_eq_true.mp rfl, 'a', rfl, rfl⟩
    let b : Identifier := ⟨"$b1", List.all_eq_true.mp rfl, '$', rfl, rfl⟩
    let type : Identifier := ⟨"type", List.all_eq_true.mp rfl, 't', rfl, rfl⟩
    let cs : List Clause := [⟨a, some b⟩, ⟨type, none⟩, ⟨a, none⟩]
    let text := "\x7b a as\t$b1,\ntype , a, \x7d".toList
    Listed cs text ∧ FirstOccurrences ["a", "type", "a"] (split text false) ∧
      FirstOccurrences ["$b1", "type", "a"] (split text true) := by
  intro a b type cs text
  have written : Written cs " a as\t$b1,\ntype , a, ".toList := by
    refine Eq.mp (congrArg (Written cs) ?_) (.more
      (.renamed a b ⟨[' '], by decide⟩ ⟨[' '], by decide⟩ ⟨['\t'], by decide⟩ ⟨[], rfl⟩
        (by simp) (by simp))
      (.more (.plain type ⟨['\n'], by decide⟩ ⟨[' '], by decide⟩)
        (.trailing (.last (.plain a ⟨[' '], by decide⟩ ⟨[], rfl⟩)) ⟨[' '], by decide⟩)))
    simp [a, b, type]
  have listed : Listed cs text := by
    refine Eq.mp (congrArg (Listed cs) ?_) (.wrapped written ⟨[], rfl⟩ ⟨[], rfl⟩
      '\x7b' '\x7d' (by decide))
    simp [text]
  exact ⟨listed, split_listed listed false, split_listed listed true⟩

/-- A name `type` that is bound to another name does not come back, nor does the other name. -/
theorem split_listed_type :
    let type : Identifier := ⟨"type", List.all_eq_true.mp rfl, 't', rfl, rfl⟩
    let y : Identifier := ⟨"y", List.all_eq_true.mp rfl, 'y', rfl, rfl⟩
    let cs : List Clause := [⟨type, some y⟩]
    Listed cs "type as y".toList ∧ ∀ keepAlias,
      split "type as y".toList keepAlias = [] ∧
        ¬ FirstOccurrences (cs.map (Clause.kept keepAlias)) (split "type as y".toList keepAlias) := by
  intro type y cs
  have listed : Listed cs "type as y".toList := by
    refine Eq.mp (congrArg (Listed cs) ?_) (.bare (.last
      (.renamed type y ⟨[], rfl⟩ ⟨[' '], by decide⟩ ⟨[' '], by decide⟩ ⟨[], rfl⟩ (by simp)
        (by simp))))
    simp [type, y]
  refine ⟨listed, fun keepAlias => ?_⟩
  have lost : split "type as y".toList keepAlias = [] := by
    cases keepAlias
    · decide +kernel
    · decide +kernel
  refine ⟨lost, fun first => ?_⟩
  rw [lost] at first
  have there : cs.map (Clause.kept keepAlias) = [(Clause.kept keepAlias ⟨type, some y⟩)] := rfl
  exact absurd ((first.mem _).mpr (there ▸ List.mem_cons_self)) (by simp)

end Names

end CodeAtlas
