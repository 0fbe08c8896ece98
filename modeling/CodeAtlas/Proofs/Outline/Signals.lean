import CodeAtlas.Outline.Chunk
import CodeAtlas.Outline.Complexity
import CodeAtlas.Outline.Signals
import CodeAtlas.Proofs.Outline.Lines
import CodeAtlas.Proofs.Outline.Name
import CodeAtlas.Proofs.Pattern.Places
import CodeAtlas.Proofs.Pattern.Word
import CodeAtlas.Proofs.Text.Line
import Mathlib

/-!
# The signals of a chunk

The signals of a chunk are looked for in the start of a passage of the file, as long as a chunk may
be. A text that occurs there also occurs in the file, and so does a call that logs or recovers, which
ends with its bracket. A whole word need not: when the bound falls inside a longer word, what is left
of it may be a word that counts.

The complexity of a text is one more than the number of places where a run of word characters starts
that is a branching word as a whole. Runs do not reach over a newline, so the branching words of two
texts with a newline between them are those of the one and those of the other; and a function, which
is made of lines of its file, is no more complex than the file.

## Main results

`ChunkDraft.ofOutline_signals`: the signals of the chunks of a file are signals of the file, but for
a word that is cut.
`Complexity.cyclomaticOf_counts`: the complexity of texts, of joined texts, and of functions.

## Proof strategy

What a chunk is made of stands behind a line end, so nothing that counts starts earlier in the file.
Of the patterns for diagnostic signals those for calls keep apart and end with a character that comes
nowhere else, and the others are whole words, of which a text that goes on loses at most the last.
-/

namespace CodeAtlas

open Text Pattern

/-! ## Occurrences -/

namespace Text

theorem occursIn_iff {part text : List Char} : occursIn part text = true ↔ part <:+: text := by
  have go (offset : Nat) : (find?.go part offset text).isSome = true ↔ part <:+: text := by
    induction text generalizing offset with
    | nil =>
      rw [find?.go]
      cases part <;> simp
    | cons c text ih =>
      rw [find?.go, List.infix_cons_iff, ← List.isPrefixOf_iff_prefix]
      split
      · next starts => simp [starts]
      · next later => simp [later, ih]
  exact go 0

end Text

namespace Signals

variable {part content : List Char} {least : Int} {name : String}

theorem mem_design_iff : name ∈ (design content least).map (·.pattern) ↔
    ∃ texts, (name, texts) ∈ designIndicators ∧ least ≤ texts.countP (occurs content) := by
  simp only [design, List.mem_map, List.mem_filterMap]
  constructor
  · rintro ⟨signal, ⟨⟨name, texts⟩, mem, found⟩, rfl⟩
    split at found
    · next enough =>
      cases found
      exact ⟨texts, mem, enough⟩
    · cases found
  · rintro ⟨texts, mem, enough⟩
    exact ⟨_, ⟨(name, texts), mem, if_pos enough⟩, rfl⟩

theorem mem_design_of_infix (inside : part <:+: content)
    (mem : name ∈ (design part least).map (·.pattern)) :
    name ∈ (design content least).map (·.pattern) := by
  obtain ⟨texts, listed, enough⟩ := mem_design_iff.mp mem
  have more : texts.countP (occurs part) ≤ texts.countP (occurs content) := by
    refine List.countP_mono_left fun text _ occurs => ?_
    exact occursIn_iff.mpr ((occursIn_iff.mp occurs).trans inside)
  exact mem_design_iff.mpr ⟨texts, listed, enough.trans (by exact_mod_cast more)⟩

/-- How often some patterns are found together. -/
def hits (patterns : List Pattern) (content : List Char) : Nat :=
  (patterns.map (·.count content)).sum

theorem mem_diagnostic_iff : name ∈ (diagnostic content least).map (·.pattern) ↔
    ∃ patterns, (name, patterns) ∈ diagnosticIndicators ∧ least ≤ hits patterns content := by
  have total (patterns : List Pattern) :
      patterns.foldr (fun pattern n => pattern.count content + n) 0 = hits patterns content := by
    rw [hits, List.sum, List.foldr_map]
  simp only [diagnostic, total, List.mem_map, List.mem_filterMap]
  constructor
  · rintro ⟨signal, ⟨⟨name, patterns⟩, mem, found⟩, rfl⟩
    split at found
    · next enough =>
      cases found
      exact ⟨patterns, mem, enough⟩
    · cases found
  · rintro ⟨patterns, mem, enough⟩
    exact ⟨_, ⟨(name, patterns), mem, if_pos enough⟩, rfl⟩

/-! ## The patterns for diagnostic signals -/

/-- The words that tell of the handling of errors. -/
def handlingWords : List String :=
  ["try", "catch", "except", "finally", "throw", "raise"]

/-- The start of a call: a text and word characters. -/
structure Calls (s : String) (p : Pattern) : Prop where
  led : p.Led
  spells : ∀ w, p.Spells w → ∃ v, w = s.toList ++ v ∧ ∀ c ∈ v, isWordChar c = true

theorem calls_text (s : String) : Calls s (boundary ++ text s) where
  led := ⟨trivial, free_text s⟩
  spells w spelled := ⟨[], by simpa [Spells] using spelled, by simp⟩

theorem Calls.word {s : String} {p q : Pattern} (calls : Calls s p) (free : q.Free)
    (within : q.Within fun c => isWordChar c = true) : Calls s (p ++ q) where
  led := ⟨calls.led, free⟩
  spells := by
    rintro _ ⟨u, v, rfl, spelled, word⟩
    obtain ⟨u, rfl, chars⟩ := calls.spells u spelled
    exact ⟨u ++ v, List.append_assoc _ _ _, List.forall_mem_append.mpr ⟨chars, word.within within⟩⟩

/-- A text that ends in a mark, word characters, and an opening bracket. -/
theorem Calls.delimited {s : String} {p : Pattern} (calls : Calls s p) (start : List Char)
    (mark : Char) (literal : s.toList = start ++ [mark]) (apart : isWordChar mark = false)
    (open_ : '(' ∉ s.toList) : (p ++ text "(").Delimited where
  led := ⟨calls.led, free_text "("⟩
  starts := by
    refine ⟨start, mark, ?_⟩
    rintro _ ⟨u, w, rfl, spelled, bracket⟩
    obtain ⟨v, rfl, word⟩ := calls.spells u spelled
    obtain rfl := (spells_text "(").mp bracket
    refine ⟨v ++ ['('], by simp [literal], ?_⟩
    rw [List.mem_append, List.mem_singleton, not_or]
    refine ⟨fun inside => ?_, ?_⟩
    · simp [word mark inside] at apart
    · rintro rfl
      exact open_ (by simp [literal])
  ends := by
    refine ⟨'(', ?_⟩
    rintro _ ⟨u, w, rfl, spelled, bracket⟩
    obtain ⟨v, rfl, word⟩ := calls.spells u spelled
    obtain rfl := (spells_text "(").mp bracket
    refine ⟨s.toList ++ v, rfl, ?_⟩
    rw [List.mem_append, not_or]
    exact ⟨open_, fun inside => absurd (word '(' inside) (by decide)⟩

/-- A text that ends in a character that comes nowhere else in it. -/
theorem delimited_text {s : String} (start : List Char) (mark : Char)
    (literal : s.toList = start ++ [mark]) (once : mark ∉ start) :
    (boundary ++ text s).Delimited where
  led := ⟨trivial, free_text s⟩
  starts := ⟨start, mark, fun w spelled => ⟨[], by simpa [Spells, literal] using spelled, by simp⟩⟩
  ends := ⟨mark, fun w spelled => ⟨start, by simpa [Spells, literal] using spelled, once⟩⟩

/-- The patterns for diagnostic signals are whole words or have a start and an end. -/
theorem forall_diagnosticIndicators : ∀ e ∈ diagnosticIndicators, ∀ p ∈ e.2,
    p.Delimited ∨ e.1 = errorHandling ∧ ∃ word ∈ handlingWords, p = wholeWords [word] := by
  have word : Grammar.word1.Free ∧ Grammar.word1.Within fun c => isWordChar c = true :=
    ⟨⟨trivial, trivial⟩, fun _ word => word, fun _ word => word⟩
  have named (names : List String) (words : ∀ s ∈ names, ∀ c ∈ s.toList, isWordChar c = true) :
      (anyText names).Free ∧ (anyText names).Within fun c => isWordChar c = true :=
    ⟨free_anyText names, (within_anyText names).mpr words⟩
  intro e listed p ofEntry
  simp only [diagnosticIndicators, List.mem_cons, List.not_mem_nil, or_false] at listed
  rcases listed with rfl | rfl
  · rcases List.mem_append.mp ofEntry with whole | recovery
    · obtain ⟨word, mem, rfl⟩ := List.mem_map.mp whole
      exact .inr ⟨rfl, word, mem, rfl⟩
    · obtain rfl := List.mem_singleton.mp recovery
      exact .inl (delimited_text "recover(".toList ')' rfl (by decide))
  · left
    simp only [List.mem_cons, List.not_mem_nil, or_false] at ofEntry
    rcases ofEntry with rfl | rfl | rfl | rfl | rfl | rfl
    · exact ((calls_text "logger.").word word.1 word.2).delimited "logger".toList '.' rfl
        (by decide) (by decide)
    · exact ((calls_text "logging.").word word.1 word.2).delimited "logging".toList '.' rfl
        (by decide) (by decide)
    · have names := named ["log", "error", "warn", "info", "debug"]
        (by simp [isWordChar, isLetterOrNumber])
      exact ((calls_text "console.").word names.1 names.2).delimited "console".toList '.' rfl
        (by decide) (by decide)
    · exact ((calls_text "Log::").word word.1 word.2).delimited "Log:".toList ':' rfl
        (by decide) (by decide)
    · have names := named ["Print", "Fatal", "Panic", "Info", "Error", "Warn", "Debug"]
        (by simp [isWordChar, isLetterOrNumber])
      have more : (run0 isWordChar).Free := trivial
      exact (((calls_text "log.").word names.1 names.2).word more fun _ word => word).delimited
        "log".toList '.' rfl (by decide) (by decide)
    · exact delimited_text "error_log".toList '(' rfl (by decide)

end Signals

/-! ## The start of a passage -/

namespace Text

variable {content passage : List Char} {first last : Int}

/-- A passage stands in a content with no word character right in front or right behind. -/
theorem IsPassage.exists_around (is : IsPassage content first last passage) :
    ∃ before after, content = before ++ (passage ++ after) ∧
      (∀ c ∈ before.getLast?, isWordChar c = false) ∧ ∀ c ∈ after.head?, isWordChar c = false := by
  have newline : isWordChar '\n' = false := by decide
  obtain ⟨before, after, whole, ends, starts, -⟩ := is.split
  exact ⟨before, after, whole, fun c mem => ends c mem ▸ newline,
    fun c mem => starts c mem ▸ newline⟩

theorem IsPassage.infix_take (is : IsPassage content first last passage) (n : Nat) :
    passage.take n <:+: content := by
  obtain ⟨before, after, whole, -⟩ := is.exists_around
  exact (List.take_prefix n passage).isInfix.trans ⟨before, after, by rw [whole, List.append_assoc]⟩

end Text

namespace Signals

section Passage

variable {content passage : List Char} {first last : Int} {least : Int} {name : String}

theorem count_take_le (is : IsPassage content first last passage) {p : Pattern}
    (delimited : p.Delimited) (n : Nat) : p.count (passage.take n) ≤ p.count content := by
  obtain ⟨before, after, whole, apart, -⟩ := is.exists_around
  have le := delimited.count_le apart (passage.take n) (passage.drop n ++ after)
  rwa [← List.append_assoc (passage.take n), List.take_append_drop, ← whole] at le

/-- The start of a passage has no more whole words than the content, or one more when the passage is
cut within a word. -/
theorem count_wholeWords_take (is : IsPassage content first last passage) {words : List String}
    (are : AreWords words) (n : Nat) :
    (wholeWords words).count (passage.take n) ≤ (wholeWords words).count content ∨
      (wholeWords words).count (passage.take n) ≤ (wholeWords words).count content + 1 ∧
        ∃ word ∈ words, StopsWithin (passage.take n) (passage.drop n) word.toList := by
  obtain ⟨before, after, whole, apart, behind⟩ := is.exists_around
  have inside := count_wholeWords_behind are apart (passage ++ after)
  have goesOn := count_wholeWords_append are (passage.take n) (passage.drop n ++ after)
  rw [← whole] at inside
  rw [← List.append_assoc, List.take_append_drop] at goesOn
  rcases goesOn with le | ⟨le, kept, stops, one⟩
  · exact .inl (le.trans inside)
  · obtain ⟨word, mem, rfl⟩ := isOneOf_iff.mp one
    refine .inr ⟨le.trans (Nat.succ_le_succ inside), word, mem, stops.ends, stops.word, ?_⟩
    -- The character that follows is one of the passage, since none follows the passage itself.
    obtain ⟨c, head, char⟩ := stops.goesOn
    cases rest : passage.drop n with
    | nil =>
      rw [rest, List.nil_append] at head
      rw [behind c head] at char
      cases char
    | cons d rest' =>
      rw [rest] at head
      exact ⟨c, head, char⟩

theorem areWords_handlingWords : AreWords handlingWords := by
  simp [AreWords, handlingWords, isWordChar, isLetterOrNumber]

/-- A diagnostic signal of the start of a passage is one of the content, unless the passage is cut
within a word that handles errors. -/
theorem mem_diagnostic_of_take (is : IsPassage content first last passage) (n : Nat)
    (mem : name ∈ (diagnostic (passage.take n) least).map (·.pattern)) :
    name ∈ (diagnostic content least).map (·.pattern) ∨
      name = errorHandling ∧
        ∃ word ∈ handlingWords, StopsWithin (passage.take n) (passage.drop n) word.toList := by
  obtain ⟨patterns, listed, enough⟩ := mem_diagnostic_iff.mp mem
  -- If no pattern is found more often than in the content, neither are all of them together.
  by_cases fewer : ∀ p ∈ patterns, p.count (passage.take n) ≤ p.count content
  · have le : hits patterns (passage.take n) ≤ hits patterns content :=
      List.sum_le_sum fun p ofEntry => fewer p ofEntry
    exact .inl (mem_diagnostic_iff.mpr ⟨patterns, listed, enough.trans (by exact_mod_cast le)⟩)
  · push Not at fewer
    obtain ⟨p, ofEntry, more⟩ := fewer
    -- A pattern that is found more often is that of a whole word, and the last one is cut.
    rcases forall_diagnosticIndicators _ listed p ofEntry with delimited | ⟨handles, word, mem, rfl⟩
    · exact absurd (count_take_le is delimited n) (by omega)
    · have are : AreWords [word] :=
        List.forall_mem_singleton.mpr (areWords_handlingWords word mem)
      rcases count_wholeWords_take is are n with le | ⟨-, kept, one, stops⟩
      · omega
      · rw [List.mem_singleton.mp one] at stops
        exact .inr ⟨handles, word, mem, stops⟩

theorem areWords_keywords : AreWords Complexity.keywords := by
  simp [AreWords, Complexity.keywords, isWordChar, isLetterOrNumber]

theorem cyclomaticOf_eq (text : List Char) : Complexity.cyclomaticOf text =
    1 + (wholeWords Complexity.keywords).count text :=
  rfl

/-- The start of a passage is no more complex than the content, or by one when the passage is cut
within a word that branches. -/
theorem cyclomaticOf_take (is : IsPassage content first last passage) (n : Nat) :
    Complexity.cyclomaticOf (passage.take n) ≤ Complexity.cyclomaticOf content ∨
      Complexity.cyclomaticOf (passage.take n) ≤ Complexity.cyclomaticOf content + 1 ∧
        ∃ word ∈ Complexity.keywords,
          StopsWithin (passage.take n) (passage.drop n) word.toList := by
  rw [cyclomaticOf_eq, cyclomaticOf_eq, Nat.add_assoc, Nat.add_le_add_iff_left,
    Nat.add_le_add_iff_left]
  exact count_wholeWords_take is areWords_keywords n

theorem cyclomaticOf_le (is : IsPassage content first last passage) :
    Complexity.cyclomaticOf passage ≤ Complexity.cyclomaticOf content := by
  -- Nothing is cut off, so no word is.
  have cut := cyclomaticOf_take is passage.length
  rw [List.take_length, List.drop_length] at cut
  rcases cut with le | ⟨-, _, -, stops⟩
  · exact le
  · obtain ⟨c, nothing, -⟩ := stops.goesOn
    cases nothing

end Passage

end Signals

/-! ## Chunks -/

theorem Outline.complexity_le_of_mem_functionsOf {content : List Char} (language : Language)
    {f : FunctionSpan} (mem : f ∈ functionsOf (.ofLanguage language) (.of content)) :
    f.complexity ≤ Complexity.cyclomaticOf content := by
  obtain ⟨d, kept, rfl⟩ := List.mem_map.mp (List.mem_mergeSort.mp mem)
  have placed := declared_placed (Grammar.functions_declare language) (List.mem_of_mem_filter kept)
  obtain ⟨ordered, bound⟩ := placed.lastLine_bounds (.ofLanguage language)
  have le := Signals.cyclomaticOf_le (isPassage_lines placed.line_pos ordered bound)
  exact Int.ofNat_le.mpr le

/-- The signals of an outline are those of its content, and no function is more complex. -/
structure Outline.Measures (config : OutlineConfig) (content : List Char) (o : Outline) : Prop where
  design : o.findings.design = Signals.design content config.designMinHits
  diagnostic : o.findings.diagnostic = Signals.diagnostic content config.diagnosticMin
  cyclomatic : o.complexity.cyclomatic = Complexity.cyclomaticOf content
  functions : ∀ f ∈ o.functions, f.complexity ≤ Complexity.cyclomaticOf content

/-- An outline that does not measure its content declares nothing. -/
theorem Outline.analyze_measures (config : OutlineConfig) (path content : String) :
    ((analyze config path content).functions = [] ∧ (analyze config path content).classes = []) ∨
      (analyze config path content).Measures config content.toList := by
  unfold analyze
  simp only
  split
  · exact .inl ⟨rfl, rfl⟩
  · exact .inr ⟨rfl, rfl, rfl, fun f mem => complexity_le_of_mem_functionsOf _ mem⟩

namespace ChunkDraft

variable {config : OutlineConfig} {content : String} {chunk : ChunkDraft}

/-- The passage of a chunk is cut within a word, of which `kept` is left. -/
def CutsWord (config : OutlineConfig) (content : String) (chunk : ChunkDraft) (kept : String) :
    Prop :=
  ∃ passage, IsPassage content.toList chunk.startLine chunk.endLine passage ∧
    StopsWithin (passage.take config.maxChunkChars) (passage.drop config.maxChunkChars) kept.toList

/-- The signals of a chunk are signals of the file, but for a word that counts only because it is cut
from a longer one. -/
structure SignalsWithin (config : OutlineConfig) (content : String) (chunk file : ChunkDraft) :
    Prop where
  design : chunk.signals.designPatterns ⊆ file.signals.designPatterns
  diagnostic : ∀ name ∈ chunk.signals.diagnosticPatterns,
    name ∈ file.signals.diagnosticPatterns ∨
      name = Signals.errorHandling ∧
        ∃ word ∈ Signals.handlingWords, chunk.CutsWord config content word
  complexity : chunk.signals.complexity ≤ file.signals.complexity ∨
    chunk.kind = .class_ ∧ chunk.signals.complexity ≤ file.signals.complexity + 1 ∧
      ∃ word ∈ Complexity.keywords, chunk.CutsWord config content word

/-- A chunk of a declaration has the signals of the start of its passage. -/
theorem exists_passage_of_ofSpan? {kind : ChunkKind} {name : String} {first last : Int}
    {signals : List Char → ChunkSignals} (span : IsSpan content.toList name first last)
    (made : ofSpan? config (lines content.toList) kind name first last signals = some chunk) :
    chunk.kind = kind ∧ ∃ passage,
      IsPassage content.toList chunk.startLine chunk.endLine passage ∧
      chunk.signals = signals (passage.take config.maxChunkChars) := by
  have pos := span.pos
  have ordered := span.ordered
  obtain ⟨first, rfl⟩ := Int.eq_ofNat_of_zero_le (by omega : 0 ≤ first)
  obtain ⟨last, rfl⟩ := Int.eq_ofNat_of_zero_le (by omega : 0 ≤ last)
  have bound := span.le
  unfold ofSpan? at made
  simp only at made
  split at made
  · cases made
  · cases made
    refine ⟨rfl, _, isPassage_lines (by omega) (by omega) (by omega), ?_⟩
    dsimp only [spanText]
    rw [Int.toNat_natCast, show ((first : Int) - 1).toNat = first - 1 by omega]

/-- The signals of a declaration, whose complexity is within that of the file or that of what the
chunk holds. -/
theorem signalsWithin_of_ofSpan? {o : Outline} (measures : o.Measures config content.toList)
    (path : String) (count : Nat) {kind : ChunkKind} {name : String} {first last : Int}
    {signals : List Char → ChunkSignals} (span : IsSpan content.toList name first last)
    (made : ofSpan? config (lines content.toList) kind name first last signals = some chunk)
    (design : ∀ body, (signals body).designPatterns =
      (Signals.design body config.designMinHits).map (·.pattern))
    (diagnostic : ∀ body, (signals body).diagnosticPatterns =
      (Signals.diagnostic body config.diagnosticMin).map (·.pattern))
    (complexity : (∀ body, (signals body).complexity ≤ Complexity.cyclomaticOf content.toList) ∨
      kind = .class_ ∧ ∀ body, (signals body).complexity = Complexity.cyclomaticOf body) :
    chunk.SignalsWithin config content (ofFile config path content count o) := by
  obtain ⟨rfl, passage, is, taken⟩ := exists_passage_of_ofSpan? span made
  constructor
  · rw [taken, design, ofFile, measures.design]
    intro signal mem
    exact Signals.mem_design_of_infix (is.infix_take _) mem
  · rw [taken, diagnostic, ofFile, measures.diagnostic]
    intro signal mem
    refine (Signals.mem_diagnostic_of_take is _ mem).imp_right ?_
    rintro ⟨handles, word, listed, stops⟩
    exact ⟨handles, word, listed, passage, is, stops⟩
  · have ofWhole : (ofFile config path content count o).signals.complexity =
        Complexity.cyclomaticOf content.toList := measures.cyclomatic
    rw [taken, ofWhole]
    rcases complexity with le | ⟨isClass, counted⟩
    · exact .inl (le _)
    · rw [counted]
      rcases Signals.cyclomaticOf_take is config.maxChunkChars with le | ⟨le, word, listed, stops⟩
      · exact .inl (by exact_mod_cast le)
      · exact .inr ⟨isClass, by exact_mod_cast le, word, listed, passage, is, stops⟩

/-- The signals of the chunks of a file are signals of the file. Only where a chunk ends within a
word that handles errors or branches can it have a signal, or one branch, that the file has not. -/
theorem ofOutline_signals (config : OutlineConfig) (path content : String) :
    ∃ file symbols,
      ofOutline config path content (Outline.analyze config path content) = file :: symbols ∧
      file.kind = .file ∧
      ∀ chunk ∈ symbols, chunk.SignalsWithin config content file := by
  refine ⟨_, _, rfl, rfl, fun chunk mem => ?_⟩
  have within := Outline.analyze_within config path content
  rcases Outline.analyze_measures config path content with ⟨functions, classes⟩ | measures
  · rw [functions, classes] at mem
    simp at mem
  · rcases List.mem_append.mp mem with ofFunction | ofClass
    · obtain ⟨f, listed, made⟩ := List.mem_filterMap.mp ofFunction
      exact signalsWithin_of_ofSpan? measures path _ (within.functions f listed) made
        (fun _ => rfl) (fun _ => rfl) (.inl fun _ => measures.functions f listed)
    · obtain ⟨c, listed, made⟩ := List.mem_filterMap.mp ofClass
      exact signalsWithin_of_ofSpan? measures path _ (within.classes c listed) made
        (fun _ => rfl) (fun _ => rfl) (.inr ⟨rfl, fun _ => rfl⟩)

/-- A class named `trys` whose chunk ends behind `try` handles errors and branches, and its file does
not. -/
theorem ofOutline_signals_cut :
    (ofOutline { maxChunkChars := 9 } "a.py" "class trys"
        (Outline.analyze { maxChunkChars := 9 } "a.py" "class trys")).map
      (fun chunk => (chunk.kind, chunk.signals.complexity, chunk.signals.diagnosticPatterns)) =
    [(.file, 1, []), (.class_, 2, ["error_handling"])] := by
  have python : Language.ofPath "a.py" = .python := by decide +kernel
  have functions :
      Outline.functionsOf (.ofLanguage .python) (.of "class trys".toList) = [] := by cbv
  have classes : Outline.classesOf (.ofLanguage .python) (.of "class trys".toList) [] =
      [⟨"trys", 1, 1, []⟩] := by cbv
  have ofFile : Complexity.cyclomaticOf "class trys".toList = 1 ∧
      Signals.diagnostic "class trys".toList 1 = [] := by
    constructor <;> cbv
  have ofClass : Complexity.cyclomaticOf "class try".toList = 2 ∧
      Signals.diagnostic "class try".toList 1 = [⟨"error_handling", none, some 1⟩] := by
    constructor <;> cbv
  have outlined :
      (Outline.analyze { maxChunkChars := 9 } "a.py" "class trys").functions = [] ∧
      (Outline.analyze { maxChunkChars := 9 } "a.py" "class trys").classes =
        [⟨"trys", 1, 1, []⟩] ∧
      (Outline.analyze { maxChunkChars := 9 } "a.py" "class trys").complexity.cyclomatic = 1 ∧
      (Outline.analyze { maxChunkChars := 9 } "a.py" "class trys").findings.diagnostic = [] := by
    unfold Outline.analyze
    simp only [python]
    rw [if_neg (by decide), Outline.byGrammar]
    simp only [functions, classes, true_and]
    exact ⟨congrArg _ ofFile.1, ofFile.2⟩
  have held : spanText { maxChunkChars := 9 } (lines "class trys".toList) 1 1 =
      "class try".toList := by decide
  obtain ⟨noFunctions, oneClass, cyclomatic, diagnostic⟩ := outlined
  rw [ofOutline, noFunctions, oneClass, List.filterMap_nil, List.filterMap_cons_some,
    List.filterMap_nil]
  rotate_left
  · rw [ofSpan?, held]
    rfl
  · simp only [List.cons_append, List.nil_append, List.map_cons, List.map_nil, ChunkDraft.ofFile,
      spanSignals, cyclomatic, diagnostic, ofClass, Nat.cast_one, Nat.cast_ofNat]

end ChunkDraft

/-! ## Complexity -/

namespace Complexity

open Signals

/-- Branching words are counted by their runs, over a newline they add up, and so no function has
more of them than its file. -/
theorem cyclomaticOf_counts :
    (∀ text, cyclomaticOf text =
        1 + {start | ∃ w ∈ keywords, IsRun text start w.toList}.ncard) ∧
      (∀ text text', cyclomaticOf (text ++ '\n' :: text') - 1 =
        (cyclomaticOf text - 1) + (cyclomaticOf text' - 1)) ∧
      ∀ config path content, ∀ f ∈ (Outline.analyze config path content).functions,
        f.complexity ≤ (Outline.analyze config path content).complexity.cyclomatic := by
  refine ⟨fun text => ?_, fun text text' => ?_, fun config path content f mem => ?_⟩
  · rw [cyclomaticOf_eq, count_wholeWords_eq_ncard areWords_keywords]
  · simp only [cyclomaticOf_eq, Nat.add_sub_cancel_left,
      count_wholeWords_newline areWords_keywords]
  · rcases Outline.analyze_measures config path content with ⟨none, -⟩ | measures
    · rw [none] at mem
      cases mem
    · rw [measures.cyclomatic]
      exact measures.functions f mem

end Complexity

end CodeAtlas
