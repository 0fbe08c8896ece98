import CodeAtlas.Outline.Chunk
import CodeAtlas.Proofs.Outline.Lines
import CodeAtlas.Proofs.Outline.Name
import CodeAtlas.Proofs.Text.Line
import Mathlib

/-!
# The chunks of a file

A file is cut into a chunk of its own and one chunk for each function and each class of its outline,
which holds the start of the passage where the symbol stands. The only symbols without a chunk are
those that stand so far to the right that no character of theirs is within the bound.

## Main results

`ChunkDraft.ofOutline_faithful`: the chunks of a file, one after another.

## Proof strategy

The spans of an outline are lines of the content, so the passage of a symbol is what joining those
lines gives. The first of them has the name in it, which shows, so the start of the passage is blank
just when it is within the indentation of that line.
-/

namespace CodeAtlas

open Text

/-- How many blanks are in front of a line of a content, counted from 1. -/
def indentation (content : String) (line : Int) : Nat :=
  (((lines content.toList).getD (line - 1).toNat []).takeWhile isBlank).length

namespace ChunkDraft

variable {config : OutlineConfig} {content : String}

/-- The chunk of a whole file. -/
structure IsWhole (config : OutlineConfig) (path content : String) (chunk : ChunkDraft) : Prop where
  kind : chunk.kind = .file
  name : chunk.name = (FilePath.parse path).name
  startLine : chunk.startLine = 1
  endLine : chunk.endLine = content.toList.count '\n' + 1
  stored : chunk.content.toList = content.toList.take config.fileChunkChars
  embedded : chunk.embeddingText = content
  hash : chunk.contentHash = Digest.ofText content

/-- The chunk of a symbol: the start of the passage from its first line to its last. -/
structure IsSlice (config : OutlineConfig) (content : String) (kind : ChunkKind) (name : String)
    (first last : Int) (chunk : ChunkDraft) : Prop where
  kind : chunk.kind = kind
  name : chunk.name = name
  startLine : chunk.startLine = first
  endLine : chunk.endLine = last
  stored : ∃ passage, IsPassage content.toList first last passage ∧
    chunk.content.toList = passage.take config.maxChunkChars
  embedded : chunk.embeddingText = chunk.content
  hash : chunk.contentHash = Digest.ofText chunk.content

/-- A start of a text is blank just when it is no longer than the blanks in front of the text. -/
theorem isBlankText_take_iff {text : List Char} (shows : Outline.Shows text) (n : Nat) :
    isBlankText (text.take n) = true ↔ n ≤ (text.takeWhile isBlank).length := by
  induction text generalizing n with
  | nil => simp [Outline.Shows] at shows
  | cons c text ih =>
    cases n with
    | zero => simp [isBlankText]
    | succ n =>
      cases blank : isBlank c with
      | false => simp [isBlankText, blank]
      | true =>
        have later : Outline.Shows text := by
          obtain ⟨d, mem, plain⟩ := shows
          rcases List.mem_cons.mp mem with rfl | mem
          · rw [blank] at plain
            cases plain
          · exact ⟨d, mem, plain⟩
        have rest := ih later n
        simp only [isBlankText] at rest ⊢
        simp [blank, rest]

/-- The blanks in front of a passage are those of its first line, when that line shows. -/
theorem takeWhile_joinWith {line : List Char} {rest : List (List Char)}
    (shows : Outline.Shows line) :
    (joinWith ['\n'] (line :: rest)).takeWhile isBlank = line.takeWhile isBlank := by
  cases rest with
  | nil => rfl
  | cons second rest =>
    rw [joinWith_cons (by simp), List.takeWhile_append, if_neg]
    intro whole
    obtain ⟨c, mem, plain⟩ := shows
    rw [← (List.takeWhile_prefix isBlank).eq_of_length whole] at mem
    rw [List.mem_takeWhile_imp mem] at plain
    cases plain

/-- The lines of a symbol start with one that shows. -/
theorem exists_lines {name : String} {first last : Nat}
    (span : IsSpan content.toList name first last) (shows : Outline.Shows name.toList) :
    ∃ line rest, ((lines content.toList).take last).drop (first - 1) = line :: rest ∧
      Outline.Shows line ∧ indentation content first = (line.takeWhile isBlank).length := by
  have pos := span.pos
  have ordered := span.ordered
  -- The name stands in the first line.
  obtain ⟨line, there, inside⟩ := span.named
  have index : ((first : Int) - 1).toNat = first - 1 := by omega
  rw [index] at there
  have there' : ((lines content.toList).take last)[first - 1]? = some line := by
    rw [List.getElem?_take_of_lt (by omega), there]
  obtain ⟨bound, get⟩ := List.getElem?_eq_some_iff.mp there'
  refine ⟨line, _, by rw [List.drop_eq_getElem_cons bound, get], ?_, ?_⟩
  · obtain ⟨c, mem, plain⟩ := shows
    exact ⟨c, inside.subset mem, plain⟩
  · rw [indentation, index, List.getD_eq_getElem?_getD, there]
    rfl

/-- A symbol has a chunk, with the start of its passage, just when its first line is indented by
less than the bound. -/
theorem ofSpan?_of_isSpan {name : String} {first last : Int} {kind : ChunkKind}
    (signals : List Char → ChunkSignals) (span : IsSpan content.toList name first last)
    (shows : Outline.Shows name.toList) :
    (indentation content first < config.maxChunkChars →
      ∃ chunk, ofSpan? config (lines content.toList) kind name first last signals = some chunk ∧
        IsSlice config content kind name first last chunk) ∧
    (config.maxChunkChars ≤ indentation content first →
      ofSpan? config (lines content.toList) kind name first last signals = none) := by
  have pos := span.pos
  have ordered := span.ordered
  obtain ⟨first, rfl⟩ := Int.eq_ofNat_of_zero_le (by omega : 0 ≤ first)
  obtain ⟨last, rfl⟩ := Int.eq_ofNat_of_zero_le (by omega : 0 ≤ last)
  obtain ⟨line, rest, split, lineShows, indented⟩ := exists_lines span shows
  have spanned : spanText config (lines content.toList) first last =
      (joinWith ['\n'] (line :: rest)).take config.maxChunkChars := by
    rw [spanText, Int.toNat_natCast, ← split, show ((first : Int) - 1).toNat = first - 1 by omega]
  have passage : IsPassage content.toList first last (joinWith ['\n'] (line :: rest)) := by
    rw [← split]
    exact isPassage_lines (by omega) (by omega) (by exact_mod_cast span.le)
  have passageShows : Outline.Shows (joinWith ['\n'] (line :: rest)) := by
    obtain ⟨c, mem, plain⟩ := lineShows
    refine ⟨c, ?_, plain⟩
    cases rest with
    | nil => exact mem
    | cons second rest =>
      rw [joinWith_cons (by simp)]
      exact List.mem_append_left _ mem
  -- The slice is blank just when it ends within the indentation of the first line.
  have blank := isBlankText_take_iff passageShows config.maxChunkChars
  rw [takeWhile_joinWith lineShows, ← indented] at blank
  unfold ofSpan?
  simp only [spanned]
  constructor
  · intro fits
    rw [if_neg (by rw [blank]; omega)]
    refine ⟨_, rfl, ?_⟩
    constructor <;> dsimp only
    exact ⟨_, passage, String.toList_ofList⟩
  · intro outside
    exact if_pos (blank.mpr outside)

/-- The items that pass are those that come to something. -/
theorem forall₂_filterMap {α β : Type} {R : α → β → Prop} {p : α → Bool} {f : α → Option β}
    {as : List α} (kept : ∀ a ∈ as, p a = true → ∃ b, f a = some b ∧ R a b)
    (dropped : ∀ a ∈ as, p a = false → f a = none) :
    List.Forall₂ R (as.filter p) (as.filterMap f) := by
  induction as with
  | nil => exact .nil
  | cons a as ih =>
    obtain ⟨keptHere, keptLater⟩ := List.forall_mem_cons.mp kept
    obtain ⟨droppedHere, droppedLater⟩ := List.forall_mem_cons.mp dropped
    have rest := ih keptLater droppedLater
    cases passes : p a with
    | false =>
      rw [List.filter_cons_of_neg (by simp [passes]), List.filterMap_cons_none (droppedHere passes)]
      exact rest
    | true =>
      obtain ⟨b, found, related⟩ := keptHere passes
      rw [List.filter_cons_of_pos passes, List.filterMap_cons_some found]
      exact .cons related rest

/-- Symbols that are indented by less than the bound have chunks, in their order, and others have
none. -/
theorem forall₂_slices {σ : Type} {symbols : List σ} (kind : ChunkKind) (name : σ → String)
    (first last : σ → Int) (signals : σ → List Char → ChunkSignals)
    (spans : ∀ x ∈ symbols, IsSpan content.toList (name x) (first x) (last x))
    (show_ : ∀ x ∈ symbols, Outline.Shows (name x).toList) :
    List.Forall₂ (fun x chunk => IsSlice config content kind (name x) (first x) (last x) chunk)
      (symbols.filter fun x => indentation content (first x) < config.maxChunkChars)
      (symbols.filterMap fun x =>
        ofSpan? config (lines content.toList) kind (name x) (first x) (last x) (signals x)) := by
  refine forall₂_filterMap (fun x mem fits => ?_) fun x mem outside => ?_
  · exact (ofSpan?_of_isSpan _ (spans x mem) (show_ x mem)).1 (by simpa using fits)
  · exact (ofSpan?_of_isSpan _ (spans x mem) (show_ x mem)).2 (by simpa using outside)

/-- The chunks of a file: the file itself, then its functions, then its classes, each in the order
of the outline and without those that stand too far to the right. -/
theorem ofOutline_faithful (config : OutlineConfig) (path content : String) :
    ∃ file functions classes,
      ofOutline config path content (Outline.analyze config path content) =
        file :: (functions ++ classes) ∧
      file.IsWhole config path content ∧
      List.Forall₂
        (fun f chunk => IsSlice config content .function f.name f.startLine f.endLine chunk)
        ((Outline.analyze config path content).functions.filter fun f =>
          indentation content f.startLine < config.maxChunkChars) functions ∧
      List.Forall₂
        (fun c chunk => IsSlice config content .class_ c.name c.startLine c.endLine chunk)
        ((Outline.analyze config path content).classes.filter fun c =>
          indentation content c.startLine < config.maxChunkChars) classes := by
  have within := Outline.analyze_within config path content
  obtain ⟨functionsShow, classesShow⟩ := Outline.shows_analyze config path content
  refine ⟨_, _, _, rfl, ?_, ?_, ?_⟩
  · refine ⟨rfl, rfl, rfl, ?_, String.toList_ofList, rfl, rfl⟩
    show ((lines content.toList).length : Int) = _
    rw [length_lines]
    rfl
  · exact forall₂_slices .function FunctionSpan.name FunctionSpan.startLine FunctionSpan.endLine _
      within.functions functionsShow
  · exact forall₂_slices .class_ ClassSpan.name ClassSpan.startLine ClassSpan.endLine _
      within.classes classesShow

/-- A function whose first line starts with as many blanks as a chunk may hold has none. -/
theorem ofOutline_indented :
    (Outline.analyze { maxChunkChars := 1 } "a.py" " def f():").functions.map (·.name) = ["f"] ∧
      (ofOutline { maxChunkChars := 1 } "a.py" " def f():"
        (Outline.analyze { maxChunkChars := 1 } "a.py" " def f():")).map (·.kind) = [.file] := by
  have python : Language.ofPath "a.py" = .python := by decide +kernel
  have functions : Outline.functionsOf (.ofLanguage .python) (.of " def f():".toList) =
      [⟨"f", 1, 1, 1⟩] := by cbv
  have classes : Outline.classesOf (.ofLanguage .python) (.of " def f():".toList)
      [⟨"f", 1, 1, 1⟩] = [] := by cbv
  have outlined : (Outline.analyze { maxChunkChars := 1 } "a.py" " def f():").functions =
        [⟨"f", 1, 1, 1⟩] ∧
      (Outline.analyze { maxChunkChars := 1 } "a.py" " def f():").classes = [] := by
    unfold Outline.analyze
    simp only [python]
    rw [if_neg (by decide), Outline.byGrammar]
    simp only [functions, classes, and_self]
  have blank : spanText { maxChunkChars := 1 } (lines " def f():".toList) 1 1 = [' '] := by decide
  rw [ofOutline, outlined.1, outlined.2]
  refine ⟨rfl, ?_⟩
  rw [List.filterMap_cons_none]
  · rfl
  · rw [ofSpan?, blank]
    rfl

end ChunkDraft

end CodeAtlas
