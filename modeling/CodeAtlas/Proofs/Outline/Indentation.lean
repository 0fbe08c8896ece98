import CodeAtlas.Proofs.Outline.Body
import CodeAtlas.Proofs.Outline.Brackets
import CodeAtlas.Proofs.Pattern.Greedy
import CodeAtlas.Proofs.Pattern.Spelling

/-!
# Bodies by indentation

A body by indentation is what is indented deeper than the line where its declaration starts. It
begins behind the header, which may go over several lines as long as brackets are open, and blank
lines neither end it nor belong to its end.

## Main results

`Outline.analyze_blocks`: every function and class of such a language ends where its block does.

## Proof strategy

The scan for the header and the walk over the lines are each described by what they look for, in one
induction. A declaration is reported once for its name and line, and no line has two matches of a
pattern that stands at the start of a line and on one line (`Anchored.eq_of_line`), so what is
reported is what was matched.
-/

namespace CodeAtlas

open Text

namespace Extent

/-! ## Indentation -/

/-- The length of the blanks a line starts with, tabs expanded to multiples of four. -/
def indentation (line : List Char) : Nat :=
  (expandTabs 4 (line.takeWhile isBlank)).length

/-- Expanding tabs makes blanks of blanks. -/
theorem takeWhile_expandTabs_go (width column : Nat) (line : List Char) :
    (expandTabs.go width column line).takeWhile isBlank =
      expandTabs.go width column (line.takeWhile isBlank) := by
  induction line generalizing column with
  | nil => rfl
  | cons c line ih =>
    by_cases tab : c = '\t'
    · subst tab
      rw [List.takeWhile_cons_of_pos (by decide), expandTabs.go, expandTabs.go]
      simp only [beq_self_eq_true, if_true]
      rw [List.takeWhile_append_of_pos, ih]
      intro d mem
      rw [List.eq_of_mem_replicate mem]
      decide
    · by_cases blank : isBlank c = true
      · rw [List.takeWhile_cons_of_pos blank]
        simp [expandTabs.go, tab, blank, ih]
      · rw [List.takeWhile_cons_of_neg blank]
        simp [expandTabs.go, tab, blank]

theorem indentWidth_eq (line : List Char) : indentWidth line = indentation line := by
  have whole := congrArg List.length
    (List.takeWhile_append_dropWhile (p := isBlank) (l := expandTabs 4 line))
  rw [List.length_append] at whole
  have blanks : indentation line = ((expandTabs 4 line).takeWhile isBlank).length :=
    congrArg List.length (takeWhile_expandTabs_go 4 0 line).symm
  rw [blanks]
  exact Nat.sub_eq_of_eq_add whole.symm

/-! ## The header -/

/-- The number of open brackets behind a character; a closing bracket too many counts as none. -/
def nest (depth : Nat) (c : Char) : Nat :=
  if c ∈ ['(', '[', '\x7b'] then depth + 1
  else if c ∈ [')', ']', '\x7d'] then depth - 1
  else depth

/-- A colon outside of brackets, of which `depth` are open in front of the text. -/
structure OuterColon (depth : Nat) (text : List Char) (place : Nat) : Prop where
  colon : text[place]? = some ':'
  outside : (text.take place).foldl nest depth = 0

/-- The line where the header of a declaration ends whose name ends at an offset: the line of the
first colon outside of brackets, or of the last character when there is none. -/
def IsHeaderLine (content : List Char) (stop header : Nat) : Prop :=
  (∃ place, IsLeast {i | OuterColon 0 (content.drop stop) i} place ∧
      header = lineOf (lineStarts content) (stop + place)) ∨
    (∀ i, ¬ OuterColon 0 (content.drop stop) i) ∧
      header = lineOf (lineStarts content) (content.length - 1 : Nat)

section Header

variable {depth place : Nat} {c : Char} {rest : List Char}

theorem outerColon_zero : OuterColon depth (c :: rest) 0 ↔ c = ':' ∧ depth = 0 :=
  ⟨fun ⟨colon, outside⟩ => ⟨Option.some.inj colon, outside⟩,
    fun ⟨colon, outside⟩ => ⟨congrArg some colon, outside⟩⟩

theorem outerColon_succ :
    OuterColon depth (c :: rest) (place + 1) ↔ OuterColon (nest depth c) rest place :=
  ⟨fun ⟨colon, outside⟩ => ⟨colon, outside⟩, fun ⟨colon, outside⟩ => ⟨colon, outside⟩⟩

theorem headerEnd?_go_cons (offset : Nat) : headerEnd?.go depth offset (c :: rest) =
    if c = ':' ∧ depth = 0 then some offset
    else headerEnd?.go (nest depth c) (offset + 1) rest := by
  rw [headerEnd?.go, nest]
  by_cases colon : c = ':'
  · subst colon
    simp
  · simp only [Bool.or_eq_true, beq_iff_eq, or_assoc, Bool.and_eq_true, colon, false_and, if_false,
      List.mem_cons, List.not_mem_nil, or_false]
    split
    · rfl
    · split <;> rfl

/-- The scan finds the first colon outside of brackets. -/
theorem headerEnd?_go_outer (depth offset : Nat) (text : List Char) :
    (∃ place, headerEnd?.go depth offset text = some (offset + place) ∧
        IsLeast {i | OuterColon depth text i} place) ∨
      (headerEnd?.go depth offset text = none ∧ ∀ i, ¬ OuterColon depth text i) := by
  induction text generalizing depth offset with
  | nil => exact .inr ⟨rfl, fun i found => by simpa using found.colon⟩
  | cons c rest ih =>
    rw [headerEnd?_go_cons]
    by_cases here : c = ':' ∧ depth = 0
    · rw [if_pos here]
      exact .inl ⟨0, rfl, outerColon_zero.mpr here, fun _ _ => Nat.zero_le _⟩
    · rw [if_neg here]
      have later : ¬ OuterColon depth (c :: rest) 0 := mt outerColon_zero.mp here
      obtain ⟨place, finds, least⟩ | ⟨misses, never⟩ := ih (nest depth c) (offset + 1)
      · refine .inl ⟨place + 1, ?_, isLeast_succ later ?_⟩
        · rw [finds, Nat.add_right_comm, Nat.add_assoc]
        · simpa only [outerColon_succ] using least
      · refine .inr ⟨misses, fun i found => ?_⟩
        cases i with
        | zero => exact later found
        | succ i => exact never i (outerColon_succ.mp found)

end Header

/-! ## The block -/

/-- A line of a content that is not blank, by its number from 1. -/
structure FilledLine (content : List Char) (number : Nat) (line : List Char) : Prop where
  there : (lines content)[number - 1]? = some line
  filled : isBlankText line = false

/-- The lines of a block behind its header are the longest run that is indented deeper than `base`;
blank lines do not count. -/
structure IsBlock (content : List Char) (base header last : Nat) : Prop where
  ordered : header ≤ last
  deeper : ∀ number line, header < number → number ≤ last → FilledLine content number line →
    base < indentation line
  filled : (∃ line, FilledLine content last line) ∨ last = header
  ended : ∀ number line, last < number → FilledLine content number line →
    (∀ n between, last < n → n < number → ¬ FilledLine content n between) →
    indentation line ≤ base

/-- The walk over the lines from behind line `number` comes to the end of a block when the filled
lines up to there, the last of which is `last`, are deeper than the base. -/
theorem indentedRun_isBlock {content : List Char} {base header last number : Nat}
    {rest : List (List Char)} (lines_rest : (lines content).drop number = rest)
    (ordered : header ≤ last) (le : last ≤ number)
    (deeper : ∀ n line, header < n → n ≤ last → FilledLine content n line → base < indentation line)
    (filled : (∃ line, FilledLine content last line) ∨ last = header)
    (blank : ∀ n line, last < n → n ≤ number → ¬ FilledLine content n line) :
    IsBlock content base header (indentedRun base last number rest) := by
  induction rest generalizing last number with
  | nil =>
    refine ⟨ordered, deeper, filled, fun n line behind is _ => absurd is (blank n line behind ?_)⟩
    have inside := (List.getElem?_eq_some_iff.mp is.there).1
    have whole := List.drop_eq_nil_iff.mp lines_rest
    omega
  | cons line rest ih =>
    -- The line at hand is the next after line `number`.
    have there : (lines content)[number]? = some line := by
      rw [← Nat.add_zero number, ← List.getElem?_drop, lines_rest]
      rfl
    have lines_rest : (lines content).drop (number + 1) = rest := by
      rw [← List.drop_drop, lines_rest]
      rfl
    have here {other : List Char} (is : FilledLine content (number + 1) other) : other = line :=
      Option.some.inj (is.there.symm.trans there)
    rw [indentedRun]
    split
    next isBlank =>
      refine ih lines_rest ordered (by omega) deeper filled fun n other behind upTo is => ?_
      rcases Nat.le_or_eq_of_le_succ upTo with upTo | rfl
      · exact blank n other behind upTo is
      · rw [← here is, is.filled] at isBlank
        exact absurd isBlank Bool.false_ne_true
    next isFilled =>
      have is : FilledLine content (number + 1) line := ⟨there, by simpa using isFilled⟩
      rw [indentWidth_eq]
      split
      next shallow =>
        refine ⟨ordered, deeper, filled, fun n other behind is' first => ?_⟩
        rcases Nat.lt_trichotomy n (number + 1) with before | rfl | after
        · exact absurd is' (blank n other behind (by omega))
        · rwa [here is']
        · exact absurd is (first _ line (by omega) after)
      next deep =>
        refine ih lines_rest (by omega) (Nat.le_refl _) (fun n other behind upTo is' => ?_)
          (.inl ⟨line, is⟩) fun n other behind upTo => by omega
        by_cases before : n ≤ last
        · exact deeper n other behind before is'
        · rcases Nat.le_or_eq_of_le_succ upTo with upTo | rfl
          · exact absurd is' (blank n other (by omega) upTo)
          · rw [here is']
            omega

end Extent

/-! ## One match on a line -/

namespace Pattern

variable {p : Pattern} {text : List Char} {m m' : Match} {name : String}

theorem inline_text {s : String} (line : '\n' ∉ s.toList) : (Pattern.text s).Inline := by
  unfold Pattern.text
  generalize s.toList = word at line
  induction word with
  | nil => trivial
  | cons c word ih =>
    obtain ⟨other, line⟩ := not_or.mp (mt List.mem_cons.mpr line)
    exact ⟨by simpa [Inline] using other, ih line⟩

theorem lineOf_passes {c : Cursor} {passed : List Char}
    (passes : (Cursor.start text).Passes passed c) :
    lineOf (lineStarts text) c.offset = passed.count '\n' + 1 := by
  have whole : text = passed ++ c.rest := passes.rest
  rw [passes.offset, Cursor.start, Nat.zero_add, whole, lineOf_length]

/-- A match of a pattern at the start of a line has a newline before it, or nothing. -/
theorem Anchored.exists_start (anchored : p.Anchored) (mem : m ∈ p.findAll text) :
    ∃ passed, (Cursor.start text).Passes passed m.span.start ∧
      ∀ c ∈ passed.getLast?, c = '\n' := by
  obtain ⟨passed, passes⟩ := (findAll_places mem).start
  have stands : m.span.start.atLineStart = true := by
    by_contra inside
    have matched := matchAt?_of_mem_findAll mem
    rw [matchAt?, anchored _ _ _ (by simpa using inside)] at matched
    cases matched
  refine ⟨passed, passes, fun c last => ?_⟩
  rw [Cursor.atLineStart, passes.before, last] at stands
  simpa using stands

/-- A search for a pattern at the start of a line finds one match on a line. -/
theorem Anchored.eq_of_line (anchored : p.Anchored) (mem : m ∈ p.findAll text)
    (mem' : m' ∈ p.findAll text)
    (line : lineOf (lineStarts text) m.span.start.offset =
      lineOf (lineStarts text) m'.span.start.offset) : m = m' := by
  obtain ⟨passed, passes, ends⟩ := anchored.exists_start mem
  obtain ⟨passed', passes', ends'⟩ := anchored.exists_start mem'
  rw [lineOf_passes passes, lineOf_passes passes'] at line
  have whole : passed ++ m.span.start.rest = passed' ++ m'.span.start.rest :=
    passes.rest.symm.trans passes'.rest
  obtain rfl : passed = passed' := eq_of_count whole ends ends' (by omega)
  have place : m.span.start = m'.span.start := by
    rw [passes.eq_behind, passes'.eq_behind, List.append_cancel_left whole]
  -- At one place the pattern has one match.
  have matched := matchAt?_of_mem_findAll mem
  rw [place, matchAt?_of_mem_findAll mem'] at matched
  exact (Option.some.inj matched).symm

/-- What a match on one line has recorded stands on the line where the match starts. -/
theorem Places.line_eq {span : Span} (places : p.Places text m) (inline : p.Inline)
    (under : m.group? name = some span) :
    lineOf (lineStarts text) span.start.offset = lineOf (lineStarts text) m.span.start.offset := by
  obtain ⟨before, after, split, -⟩ := List.lookup_eq_some_iff.mp under
  obtain ⟨passed, start⟩ := places.start
  have recorded : (name, span) ∈ m.captures := by simp [split]
  obtain ⟨more, passes, clean⟩ := places.yields.inline_start inline recorded
  rw [lineOf_passes (start.trans passes), lineOf_passes start, List.count_append,
    List.count_eq_zero.mpr clean, Nat.add_zero]

end Pattern

namespace Outline

open Extent Pattern

/-! ## What is reported -/

/-- The line is the last of the block that belongs to a declaration: the block behind the header,
deeper than the line where the declaration starts. -/
def Declared.EndsAt (content : List Char) (d : Declared) (last : Int) : Prop :=
  ∃ line header final, (lines content)[d.line - 1]? = some line ∧
    IsHeaderLine content d.stop.offset header ∧ last = (final : Nat) ∧
    IsBlock content (indentation line) header final

/-- Spans with a name, a first and a last line are those of some declarations: there is one for each
name and line that is declared, there are no others, and each ends where every declaration of its
name and line does. -/
structure SpansBlocks (content : List Char) (found : List Declared)
    (spans : List (String × Int × Int)) : Prop where
  reported : ∀ d ∈ found, ∃ last, (d.name, (d.line : Int), last) ∈ spans
  declared : ∀ span ∈ spans, ∃ d ∈ found, span.1 = d.name ∧ span.2.1 = d.line
  blocks : ∀ d ∈ found, ∀ last, (d.name, (d.line : Int), last) ∈ spans → d.EndsAt content last

section Blocks

variable {content : List Char} {p : Pattern} {patterns : List Pattern} {d e : Declared}

/-- The text behind the name of a declaration is the content from there on. -/
theorem rest_of_matched (declare : ∀ p ∈ patterns, p.Declares)
    (found : d ∈ matched patterns (.of content)) :
    d.stop.rest = content.drop d.stop.offset ∧ d.Placed content := by
  obtain ⟨p, ofPattern, m, ofMatch, span, under, rfl⟩ := mem_matched_iff.mp found
  have places : p.Places content m := findAll_places ofMatch
  refine ⟨?_, placed_of_places (declare p ofPattern) places under⟩
  obtain ⟨before, part, split, -, -, -, -, stopAt⟩ :=
    exists_parts_of_places (declare p ofPattern) places under
  dsimp only
  rw [stopAt, ← List.length_append]
  conv_rhs => rw [split, ← List.append_assoc, List.drop_left]

/-- No line has two declarations of a pattern at the start of a line and on one line. -/
theorem eq_of_matched (anchored : p.Anchored) (inline : p.Inline)
    (found : d ∈ matched [p] (.of content)) (found' : e ∈ matched [p] (.of content))
    (line : d.line = e.line) : d = e := by
  obtain ⟨_, is, m, ofMatch, span, under, rfl⟩ := mem_matched_iff.mp found
  obtain ⟨_, is', m', ofMatch', span', under', rfl⟩ := mem_matched_iff.mp found'
  obtain rfl := List.mem_singleton.mp is
  obtain rfl := List.mem_singleton.mp is'
  have start : lineOf (lineStarts content) m.span.start.offset =
      lineOf (lineStarts content) m'.span.start.offset :=
    ((findAll_places ofMatch).line_eq inline under).symm.trans
      (line.trans ((findAll_places ofMatch').line_eq inline under'))
  obtain rfl := anchored.eq_of_line ofMatch ofMatch' start
  obtain rfl := Option.some.inj (under.symm.trans under')
  rfl

/-- The last line by indentation is the last of the block. -/
theorem endsAt_indentEnd (rest : d.stop.rest = content.drop d.stop.offset)
    (placed : d.Placed content) :
    d.EndsAt content (indentEnd (.of content) d.stop d.line : Nat) := by
  have inside : d.line - 1 < (lines content).length := by
    have := placed.line_pos
    have := placed.line_le
    omega
  have header : IsHeaderLine content d.stop.offset ((Source.of content).lineAt
      ((headerEnd? d.stop.offset d.stop.rest).getD ((Source.of content).size - 1))) := by
    rw [headerEnd?, rest]
    obtain ⟨place, finds, least⟩ | ⟨misses, never⟩ :=
      headerEnd?_go_outer 0 d.stop.offset (content.drop d.stop.offset)
    · rw [finds]
      exact .inl ⟨place, least, rfl⟩
    · rw [misses]
      exact .inr ⟨never, rfl⟩
  refine ⟨(lines content)[d.line - 1], _, _, List.getElem?_eq_getElem inside, header, rfl, ?_⟩
  have base : (Source.of content).lines.getD (d.line - 1) [] = (lines content)[d.line - 1] :=
    (List.getElem_eq_getD []).symm
  rw [indentEnd, base, indentWidth_eq]
  refine indentedRun_isBlock rfl (Nat.le_refl _) (Nat.le_refl _) ?_ (.inr rfl) ?_
  · intro n line behind upTo
    omega
  · intro n line behind upTo
    omega

theorem spansBlocks_of_declared (declares : p.Declares) (anchored : p.Anchored) (inline : p.Inline)
    {skipped : List String} {spans : List (String × Int × Int)}
    (reported : ∀ span, span ∈ spans ↔ ∃ d ∈ declared [p] (.of content), d.name ∉ skipped ∧
      span = (d.name, (d.line : Int), (indentEnd (.of content) d.stop d.line : Int))) :
    SpansBlocks content ((matched [p] (.of content)).filter (·.name ∉ skipped)) spans where
  reported d mem := by
    obtain ⟨found, named⟩ := List.mem_filter.mp mem
    obtain ⟨e, kept, name, line⟩ := exists_declared found
    rw [name, line]
    exact ⟨_, (reported _).mpr ⟨e, kept, by simpa [name] using named, rfl⟩⟩
  declared span mem := by
    obtain ⟨d, kept, named, rfl⟩ := (reported span).mp mem
    refine ⟨d, List.mem_filter.mpr ⟨mem_matched_of_mem_declared kept, ?_⟩, rfl, rfl⟩
    simpa using named
  blocks d mem last is := by
    obtain ⟨e, kept, -, same⟩ := (reported _).mp is
    simp only [Prod.mk.injEq, Int.natCast_inj] at same
    obtain ⟨-, line, rfl⟩ := same
    -- The declaration that is kept is the only one on its line.
    obtain rfl : d = e := eq_of_matched anchored inline (List.mem_of_mem_filter mem)
      (mem_matched_of_mem_declared kept) line
    obtain ⟨rest, placed⟩ := rest_of_matched (by simpa using declares) (List.mem_of_mem_filter mem)
    exact endsAt_indentEnd rest placed

end Blocks

/-! ## Python -/

section Python

open Grammar

/-- The pattern of a function. -/
def indentedDef : Pattern :=
  lineStart ++ gap0 ++ optional (text "async" ++ gap1) ++ text "def" ++ gap1 ++
    capture "name" word1 ++ gap0 ++ text "("

/-- The pattern of a class. -/
def indentedClass : Pattern :=
  lineStart ++ gap0 ++ text "class" ++ gap1 ++ capture "name" word1

theorem python_functions : python.functions = [indentedDef] := rfl

theorem python_classes : python.classes = [indentedClass] := rfl

theorem anchored_indentedDef : indentedDef.Anchored :=
  ((((((anchored_lineStart.seq _).seq _).seq _).seq _).seq _).seq _).seq _

theorem anchored_indentedClass : indentedClass.Anchored :=
  (((anchored_lineStart.seq _).seq _).seq _).seq _

theorem inline_indentedDef : indentedDef.Inline := by
  simp [indentedDef, inline_text, Inline, gap0, gap1, word1, run0, run1, Pattern.optional,
    isGap]

theorem inline_indentedClass : indentedClass.Inline := by
  simp [indentedClass, inline_text, Inline, gap0, gap1, word1, run0, run1, isGap]

theorem classes_analyze {config : OutlineConfig} {path content : String}
    (outlined : (Grammar.ofLanguage (Language.ofPath path)).isEmpty = false) :
    (analyze config path content).classes =
      classesOf (Grammar.ofLanguage (Language.ofPath path)) (.of content.toList)
        (analyze config path content).functions := by
  rw [analyze, if_neg (by rw [outlined]; exact Bool.false_ne_true)]
  rfl

theorem mem_classesOf_iff {g : Grammar} {s : Source} {functions : List FunctionSpan}
    {c : ClassSpan} : c ∈ classesOf g s functions ↔ ∃ d ∈ declared g.classes s,
      c = ⟨d.name, d.line, lastLine g s d.stop d.line, (functions.filter fun f =>
        (d.line : Int) < f.startLine && f.startLine ≤ (lastLine g s d.stop d.line : Int)).map
          (·.name)⟩ := by
  simp only [classesOf, List.mem_mergeSort, List.mem_map, eq_comm (a := c)]

/-- In Python every function and every class ends on the last line of its block. -/
theorem analyze_blocks {config : OutlineConfig} {path content : String}
    (python : Language.ofPath path = .python) :
    SpansBlocks content.toList
        ((matched Grammar.python.functions (.of content.toList)).filter
          (·.name ∉ Grammar.controlKeywords))
        ((analyze config path content).functions.map fun f => (f.name, f.startLine, f.endLine)) ∧
      SpansBlocks content.toList (matched Grammar.python.classes (.of content.toList))
        ((analyze config path content).classes.map fun c => (c.name, c.startLine, c.endLine)) := by
  have outlined : (Grammar.ofLanguage (Language.ofPath path)).isEmpty = false := by
    rw [python]
    decide
  constructor
  · rw [python_functions]
    refine spansBlocks_of_declared (Grammar.functions_declare .python _ List.mem_cons_self)
      anchored_indentedDef inline_indentedDef fun span => ?_
    rw [functions_analyze outlined, python, List.mem_map]
    constructor
    · rintro ⟨f, mem, rfl⟩
      obtain ⟨d, kept, free, rfl⟩ := mem_functionsOf_iff.mp mem
      exact ⟨d, kept, free, rfl⟩
    · rintro ⟨d, kept, free, rfl⟩
      exact ⟨_, mem_functionsOf_iff.mpr ⟨d, kept, free, rfl⟩, rfl⟩
  · -- No class is left out for its name.
    have whole : (matched [indentedClass] (.of content.toList)).filter
        (·.name ∉ ([] : List String)) = matched [indentedClass] (.of content.toList) :=
      List.filter_eq_self.mpr (by simp)
    rw [python_classes, ← whole]
    refine spansBlocks_of_declared (Grammar.classes_declare .python _ List.mem_cons_self)
      anchored_indentedClass inline_indentedClass fun span => ?_
    rw [classes_analyze outlined, python, List.mem_map]
    constructor
    · rintro ⟨c, mem, rfl⟩
      obtain ⟨d, kept, rfl⟩ := mem_classesOf_iff.mp mem
      exact ⟨d, kept, List.not_mem_nil, rfl⟩
    · rintro ⟨d, kept, -, rfl⟩
      exact ⟨_, mem_classesOf_iff.mpr ⟨d, kept, rfl⟩, rfl⟩

/-- A class with a function whose header goes over two lines and holds a colon in brackets. -/
def nestedText : String :=
  "class A:\n\tdef f(self,\n  a=[lambda: 1]):\n\n\t\treturn a\n\n  # end\nx = 1\n"

/-- The function ends before the comment, which is not as deep, and the class with it. -/
theorem analyze_blocks_nested :
    (∃ d ∈ matched Grammar.python.functions (.of nestedText.toList),
      d.name = "f" ∧ d.line = 2 ∧ d.EndsAt nestedText.toList 5) ∧
    ∃ d ∈ matched Grammar.python.classes (.of nestedText.toList),
      d.name = "A" ∧ d.line = 1 ∧ d.EndsAt nestedText.toList 7 := by
  obtain ⟨functions, classes⟩ := @analyze_blocks {} "a.py" nestedText (by decide +kernel)
  constructor
  · obtain ⟨d, found, name, line⟩ : ∃ d ∈ (matched Grammar.python.functions
        (.of nestedText.toList)).filter (·.name ∉ Grammar.controlKeywords),
        d.name = "f" ∧ d.line = 2 := by decide +kernel
    refine ⟨d, List.mem_of_mem_filter found, name, line, functions.blocks d found 5 ?_⟩
    rw [name, line, functions_analyze (by decide +kernel)]
    decide +kernel
  · obtain ⟨d, found, name, line⟩ : ∃ d ∈ matched Grammar.python.classes (.of nestedText.toList),
        d.name = "A" ∧ d.line = 1 := by decide +kernel
    refine ⟨d, found, name, line, classes.blocks d found 7 ?_⟩
    rw [name, line, classes_analyze (by decide +kernel), functions_analyze (by decide +kernel)]
    decide +kernel

end Python

end Outline

end CodeAtlas
