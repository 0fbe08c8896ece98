import CodeAtlas.Outline.Analysis
import CodeAtlas.Outline.Comments
import CodeAtlas.Outline.Extent
import CodeAtlas.Outline.Names
import CodeAtlas.Outline.Signals
import CodeAtlas.Proofs.Pattern.Yield
import CodeAtlas.Proofs.Text.Line

/-!
# Declarations of an outline

The name of a declaration is a part of the content, not empty and without a newline, and the line it
is reported on is the line where that part stands.

The scans that look for the end of a declaration only go forward. Whatever they run into, be it a
bracket that is never closed, a text or a comment that is never ended or nothing at all, they come to
rest at an offset that is not before the name, so the last line is a line of the content and not
before the first.

The analysis takes it for granted that a match has recorded what it is about to read. That is so for
every pattern of every language, whatever the content: a declaration records its name, which is not
empty and stays on one line, an import records a module, some modules or a block of them, a to-do
its marker and its description, and a route its path.

## Main results

`Extent.lastLine_bounds`: the last line of a declaration by its name.
`Grammar.functions_declare`, `Grammar.classes_declare`, `Grammar.interfaces_declare`,
`Grammar.imports_record`, `Signals.endpoints_record`: one for each table of patterns.
`Outline.declared_placed`: every declaration that the patterns find.
`Outline.Declared.Placed.exists_line`: its line contains its name.

## Proof strategy

Each scan has a lemma that says how its offset stands to the text that is left. They are put together
along the branches of `braceEnd` and `indentEnd`; what remains is that lines grow with offsets.
-/

namespace CodeAtlas.Extent

/-! ## Where a declaration ends -/

open Text

/-! ### The scans -/

theorem closing?_go_eq_some {b : Brackets} {mode : Mode} {depth : Int} {offset close : Nat}
    {text rest : List Char} (closed : closing?.go b mode depth offset text = some (close, rest)) :
    offset ≤ close ∧ close + 1 + rest.length = offset + text.length := by
  induction text generalizing mode depth offset with
  | nil => simp [closing?.go] at closed
  | cons c text ih =>
    rw [closing?.go] at closed
    split at closed
    · obtain ⟨rfl, rfl⟩ := Prod.mk.inj (Option.some.inj closed)
      simp only [List.length_cons]
      omega
    · have := ih closed
      simp only [List.length_cons]
      omega

theorem closing?_eq_some {b : Brackets} {offset close : Nat} {text rest : List Char}
    (closed : closing? b offset text = some (close, rest)) :
    offset ≤ close ∧ close + 1 + rest.length = offset + text.length :=
  closing?_go_eq_some closed

/-- A bracket that is never closed ends with the content, which is no sooner. -/
theorem le_closingOffset (b : Brackets) {size offset : Nat} (text : List Char)
    (inside : offset < size) : offset ≤ closingOffset b size offset text := by
  unfold closingOffset
  split
  · next closed => exact (closing?_eq_some closed).1
  · omega

/-- Skipping parameters moves forward in one and the same content. -/
theorem afterParameters_forward (offset : Nat) (text : List Char) :
    offset ≤ (afterParameters offset text).1 ∧
      (afterParameters offset text).1 + (afterParameters offset text).2.length =
        offset + text.length := by
  have split_ := congrArg List.length (List.takeWhile_append_dropWhile (p := (· != '(')) (l := text))
  rw [List.length_append] at split_
  rw [afterParameters.eq_def]
  cases tail : text.dropWhile (· != '(') with
  | nil => exact ⟨Nat.le_refl _, rfl⟩
  | cons c rest =>
    rw [tail] at split_
    simp only
    split
    · split
      · next closed =>
        have := closing?_eq_some closed
        constructor <;> dsimp only <;> omega
      · exact ⟨Nat.le_add_right _ _, rfl⟩
    · exact ⟨Nat.le_refl _, rfl⟩

theorem headerEnd?_go_eq_some {depth offset stop : Nat} {text : List Char}
    (found : headerEnd?.go depth offset text = some stop) : offset ≤ stop := by
  induction text generalizing depth offset with
  | nil => simp [headerEnd?.go] at found
  | cons c text ih =>
    rw [headerEnd?.go] at found
    split at found
    · exact Nat.le_of_succ_le (ih found)
    · split at found
      · exact Nat.le_of_succ_le (ih found)
      · split at found
        · exact Nat.le_of_eq (Option.some.inj found)
        · exact Nat.le_of_succ_le (ih found)

theorem indentedRun_bounds (base : Nat) {last number : Nat} (lines : List (List Char))
    (le : last ≤ number) :
    last ≤ indentedRun base last number lines ∧
      indentedRun base last number lines ≤ number + lines.length := by
  induction lines generalizing last number with
  | nil => exact ⟨Nat.le_refl _, le⟩
  | cons line lines ih =>
    rw [indentedRun, List.length_cons]
    split
    · have := @ih last (number + 1) (by omega)
      omega
    · split
      · omega
      · have := @ih (number + 1) (number + 1) (Nat.le_refl _)
        omega

/-! ### The last line -/

/-- A name starts at an offset of a content and ends at a cursor behind it. -/
structure Names (content : List Char) (start : Nat) (name : Cursor) : Prop where
  forward : start < name.offset
  whole : name.offset + name.rest.length = content.length

section LastLine

variable {content : List Char} {start : Nat} {name : Cursor}

theorem lineAt_le (content : List Char) (offset : Nat) :
    (Source.of content).lineAt offset ≤ (Source.of content).lines.length :=
  lineOf_le

theorem lineAt_mono (content : List Char) {offset : Nat} (le : start ≤ offset) :
    (Source.of content).lineAt start ≤ (Source.of content).lineAt offset :=
  lineOf_mono le

variable (names : Names content start name)

include names

theorem braceEnd_bounds :
    (Source.of content).lineAt start ≤
        braceEnd (Source.of content) name ((Source.of content).lineAt start) ∧
      braceEnd (Source.of content) name ((Source.of content).lineAt start) ≤
        (Source.of content).lines.length := by
  have later {offset : Nat} (le : name.offset ≤ offset) :
      (Source.of content).lineAt start ≤ (Source.of content).lineAt offset ∧
        (Source.of content).lineAt offset ≤ (Source.of content).lines.length :=
    ⟨lineAt_mono content (Nat.le_trans (Nat.le_of_lt names.forward) le), lineAt_le content _⟩
  obtain ⟨forward, whole⟩ := afterParameters_forward name.offset name.rest
  rw [names.whole] at whole
  unfold braceEnd
  generalize afterParameters name.offset name.rest = place at forward whole ⊢
  obtain ⟨offset, text⟩ := place
  simp only at forward whole ⊢
  have closed {j : Nat} (brace : text.findIdx? (· == '\x7b') = some j) :
      (Source.of content).lineAt start ≤
          braceEnd.closeLine (Source.of content) offset text j ∧
        braceEnd.closeLine (Source.of content) offset text j ≤
          (Source.of content).lines.length := by
    obtain ⟨inside, -⟩ := List.findIdx?_eq_some_iff_getElem.mp brace
    have := le_closingOffset ⟨'\x7b', '\x7d'⟩ (text.drop j)
      (show offset + j < (Source.of content).size by simp only [Source.of]; omega)
    exact later (by omega)
  split
  · exact ⟨Nat.le_refl _, lineAt_le content _⟩
  · exact later (by omega)
  · next brace _ => exact closed brace
  · next brace _ =>
    split
    · exact later (by omega)
    · exact closed brace

theorem indentEnd_bounds :
    (Source.of content).lineAt start ≤
        indentEnd (Source.of content) name ((Source.of content).lineAt start) ∧
      indentEnd (Source.of content) name ((Source.of content).lineAt start) ≤
        (Source.of content).lines.length := by
  have header : start ≤ (headerEnd? name.offset name.rest).getD ((Source.of content).size - 1) := by
    cases found : headerEnd? name.offset name.rest with
    | some stop => exact Nat.le_trans (Nat.le_of_lt names.forward) (headerEnd?_go_eq_some found)
    | none =>
      have := names.forward
      have := names.whole
      simp only [Option.getD_none, Source.of]
      omega
  have first := lineAt_mono content header
  unfold indentEnd
  simp only
  generalize (headerEnd? name.offset name.rest).getD ((Source.of content).size - 1) = stop at *
  have last := lineAt_le content stop
  have run := indentedRun_bounds
    (indentWidth ((Source.of content).lines.getD ((Source.of content).lineAt start - 1) []))
    ((Source.of content).lines.drop ((Source.of content).lineAt stop))
    (Nat.le_refl ((Source.of content).lineAt stop))
  rw [List.length_drop] at run
  omega

/-- The last line of a declaration is not before its first line and not behind the content. -/
theorem lastLine_bounds (g : Grammar) :
    (Source.of content).lineAt start ≤
        lastLine g (Source.of content) name ((Source.of content).lineAt start) ∧
      lastLine g (Source.of content) name ((Source.of content).lineAt start) ≤
        (Source.of content).lines.length := by
  unfold lastLine
  split
  · exact indentEnd_bounds names
  · exact braceEnd_bounds names

end LastLine

end CodeAtlas.Extent

namespace CodeAtlas

/-! ## What the patterns of a language record -/

open Pattern

/-- A pattern records a name, and the name is not empty and on one line. -/
@[mk_iff]
structure Pattern.Declares (p : Pattern) : Prop where
  records : p.Records "name"
  confines : p.Confines "name" fun body => body.Inline ∧ body.Advances

/-- A pattern records what an import stands for. -/
@[mk_iff]
inductive Pattern.Imports (p : Pattern) : Prop where
  | modules (records : p.Records "modules") (confines : p.Confines "modules" Advances)
  | block (records : p.Records "block")
  | module (records : p.Records "module")

namespace Grammar

/-! ### The pieces of the patterns -/

section Pieces

@[simp] theorem isWordChar_newline : Text.isWordChar '\n' = false := by decide

@[simp] theorem isIdentStart_newline : isIdentStart '\n' = false := by decide

@[simp] theorem isIdentChar_newline : isIdentChar '\n' = false := by decide

end Pieces

attribute [local simp] gap0 gap1 blank0 blank1 word1 ident quoted indented modifiers annotation
  bracedNames flatParameters declarator pythonModule publicName receiver Pattern.run0 Pattern.run1
  Pattern.few0 Pattern.few1 Pattern.optional Pattern.oneOf Inline Advances Records Confines
  ofLanguage python javascript typescript php java go unknown scriptFunctions
  scriptClass scriptImports

theorem functions_declare (language : Language) :
    ∀ p ∈ (ofLanguage language).functions, p.Declares := by
  cases language <;> simp [declares_iff]

theorem classes_declare (language : Language) :
    ∀ p ∈ (ofLanguage language).classes, p.Declares := by
  cases language <;> simp [declares_iff]

theorem interfaces_declare (language : Language) :
    ∀ p ∈ (ofLanguage language).interfaces, p.Declares := by
  cases language <;> simp [declares_iff]

theorem imports_record (language : Language) :
    ∀ p ∈ (ofLanguage language).imports, p.Imports := by
  cases language <;> simp [imports_iff]

theorem endpoints_record (language : Language) :
    ∀ p ∈ Signals.endpointPatterns language, p.Records "path" := by
  cases language <;> simp [Signals.endpointPatterns, Signals.quotedPath, Signals.routerCall]

theorem todo_records : Comments.todo.Records "marker" ∧ Comments.todo.Records "description" := by
  simp [Comments.todo]

theorem doubleQuoted_records : Names.doubleQuoted.Records "content" := by
  simp [Names.doubleQuoted]

end Grammar

end CodeAtlas

namespace CodeAtlas.Outline

/-! ## Where a declaration stands -/

open Text

/-- A declaration by a name that stands in a content. -/
structure Declared.Placed (content : List Char) (d : Declared) : Prop where
  /-- What stands before, the name, and what stands behind. -/
  split : ∃ before part after, content = before ++ (part ++ after) ∧
    d.name = String.ofList part ∧ '\n' ∉ part ∧
    d.line = (Extent.Source.of content).lineAt before.length ∧
    Extent.Names content before.length d.stop

section

variable {content : List Char} {patterns : List Pattern} {d : Declared}

theorem mem_of_mem_foldl_note {found seen : List Declared}
    (mem : d ∈ found.foldl declared.note seen) : d ∈ found ∨ d ∈ seen := by
  induction found generalizing seen with
  | nil => exact .inr mem
  | cons e found ih =>
    rcases ih mem with mem | mem
    · exact .inl (List.mem_cons_of_mem _ mem)
    · unfold declared.note at mem
      split at mem
      · exact .inr mem
      · rcases List.mem_cons.mp mem with rfl | mem
        · exact .inl List.mem_cons_self
        · exact .inr mem

/-- The parts of a content around the name that a match of a declaring pattern has recorded. -/
theorem exists_parts_of_places {p : Pattern} {m : Match} {span : Span} (declares : p.Declares)
    (places : p.Places content m) (under : m.group? "name" = some span) :
    ∃ before part, content = before ++ (part ++ span.stop.rest) ∧ span.text = part ∧
      '\n' ∉ part ∧ part ≠ [] ∧ span.start.offset = before.length ∧
      span.stop.offset = before.length + part.length := by
  obtain ⟨before, body, inner, start, ⟨inline, advances⟩, yields⟩ :=
    places.confined declares.confines under
  obtain ⟨part, passes, whole⟩ := yields.inline inline
  have startAt : span.start.offset = before.length := start.offset.trans (Nat.zero_add _)
  refine ⟨before, part, ?_, passes.text_eq, whole, ?_, startAt, startAt ▸ passes.offset⟩
  · rw [← passes.rest]
    exact start.rest
  · rintro rfl
    have longer := yields.advances advances
    rw [passes.offset] at longer
    exact absurd longer (Nat.lt_irrefl _)

/-- Where a match of a declaring pattern has recorded the name. -/
theorem placed_of_places {p : Pattern} {m : Match} {span : Span} (declares : p.Declares)
    (places : p.Places content m) (under : m.group? "name" = some span) :
    Declared.Placed content ⟨String.ofList span.text, span.stop,
      (Extent.Source.of content).lineAt span.start.offset⟩ := by
  obtain ⟨before, part, split, text, whole, filled, startAt, stopAt⟩ :=
    exists_parts_of_places declares places under
  refine ⟨before, part, span.stop.rest, split, congrArg String.ofList text, whole, ?_, ?_, ?_⟩
  · rw [startAt]
  · have longer := List.length_pos_of_ne_nil filled
    dsimp only
    omega
  · have size := congrArg List.length split
    simp only [List.length_append] at size
    dsimp only
    omega

theorem declared_placed (declare : ∀ p ∈ patterns, p.Declares)
    (mem : d ∈ declared patterns (Extent.Source.of content)) : d.Placed content := by
  rw [declared, List.mem_reverse] at mem
  rcases mem_of_mem_foldl_note mem with mem | mem
  · obtain ⟨p, ofPattern, mem⟩ := List.mem_flatMap.mp mem
    obtain ⟨m, ofMatch, found⟩ := List.mem_filterMap.mp mem
    obtain ⟨span, under, rfl⟩ := Option.map_eq_some_iff.mp found
    exact placed_of_places (declare p ofPattern) (Pattern.findAll_places ofMatch) under
  · simp at mem

end

namespace Declared.Placed

variable {content : List Char} {d : Declared} (placed : d.Placed content)

include placed

theorem line_pos : 1 ≤ d.line := by
  obtain ⟨before, part, after, -, -, -, line, -⟩ := placed.split
  rw [line]
  exact lineOf_pos

theorem line_le : d.line ≤ (lines content).length := by
  obtain ⟨before, part, after, -, -, -, line, -⟩ := placed.split
  rw [line]
  exact lineOf_le

/-- The line of a declaration contains its name. -/
theorem exists_line : ∃ line, (lines content)[d.line - 1]? = some line ∧
    d.name.toList <:+: line := by
  obtain ⟨before, part, after, rfl, name, whole, line, -⟩ := placed.split
  obtain ⟨text, there, inside⟩ := Text.exists_line before after whole
  refine ⟨text, ?_, by rwa [name, String.toList_ofList]⟩
  rw [line, Extent.Source.lineAt, Extent.Source.of, lineOf_lineStarts, List.take_left,
    Nat.add_sub_cancel]
  exact there

/-- The last line of a declaration is a line of the content and not before its first. -/
theorem lastLine_bounds (g : Grammar) :
    d.line ≤ Extent.lastLine g (Extent.Source.of content) d.stop d.line ∧
      Extent.lastLine g (Extent.Source.of content) d.stop d.line ≤ (lines content).length := by
  obtain ⟨before, part, after, -, -, -, line, names⟩ := placed.split
  rw [line]
  exact Extent.lastLine_bounds names g

end Declared.Placed

end CodeAtlas.Outline
