import CodeAtlas.Outline.Names
import CodeAtlas.Proofs.Outline.Clauses
import CodeAtlas.Proofs.Outline.Distinct
import CodeAtlas.Proofs.Outline.Name
import CodeAtlas.Proofs.Pattern.Spelling
import CodeAtlas.Proofs.Pattern.Yield
import Mathlib

/-!
# What imports bind

An import that lists names binds those of them that are identifiers, and one that lists none binds
nothing, unless the language binds the last segment of a module path. There every import binds just
that segment. Of a module path it is made of word characters, and it is an identifier unless it is
empty or starts with a digit or a foreign letter. The path of a file that is included is a module path
too, however, and its last segment may be any text.

## Main results

`Names.imports_bind`: the names that an import binds.
-/

namespace CodeAtlas

open Text Pattern Grammar

namespace Pattern

variable {p : Pattern} {text : List Char} {m : Match} {name : String}

theorem Places.group?_eq_none (places : p.Places text m)
    (confines : p.Confines name fun _ => False) : m.group? name = none := by
  cases under : m.group? name with
  | none => rfl
  | some span =>
    obtain ⟨_, _, _, _, absurd, _⟩ := places.confined confines under
    exact absurd.elim

end Pattern

namespace Names

/-! ## Identifiers -/

/-- A letter, an underscore or a dollar, and then word characters and dollars. -/
def IsSymbol (name : String) : Prop :=
  ∃ c rest, name.toList = c :: rest ∧ isIdentStart c = true ∧ ∀ x ∈ rest, isIdentChar x = true

theorem isSymbol_of_mem_split {raw : List Char} {keepAlias : Bool} {name : String}
    (mem : name ∈ split raw keepAlias) : IsSymbol name := by
  unfold split at mem
  obtain ⟨w, kept, rfl⟩ := List.mem_map.mp (mem_distinct.mp mem)
  have whole := (List.mem_filter.mp kept).2
  rw [IsSymbol, String.toList_ofList]
  cases w with
  | nil => cases whole
  | cons c rest =>
    rw [matchesAll_ident, Bool.and_eq_true, List.all_eq_true] at whole
    exact ⟨c, rest, rfl, whole⟩

theorem isSymbol_ofList_iff {w : List Char} (word : ∀ c ∈ w, isWordChar c = true) :
    IsSymbol (String.ofList w) ↔ ∃ c ∈ w.head?, isIdentStart c = true := by
  rw [IsSymbol, String.toList_ofList]
  constructor
  · rintro ⟨c, rest, rfl, starts, -⟩
    exact ⟨c, rfl, starts⟩
  · rintro ⟨c, first, starts⟩
    obtain ⟨rest, rfl⟩ := List.head?_eq_some_iff.mp first
    refine ⟨c, rest, rfl, starts, fun x mem => ?_⟩
    rw [isIdentChar, word x (List.mem_cons_of_mem c mem), Bool.true_or]

/-! ## Last segments -/

/-- A character of a module path. -/
def isPathChar (c : Char) : Bool :=
  isWordChar c || c == '.' || c == '\\'

theorem mem_of_mem_lastSegment {module : List Char} {c : Char} (mem : c ∈ lastSegment module) :
    c ∈ module ∧ c ≠ '.' ∧ c ≠ '\\' := by
  unfold lastSegment at mem
  simp only at mem
  cases last : (splitBy (fun c => c == '.' || c == '\\')
      (dropTrailing '\\' (dropLeading '\\' module))).getLast? with
  | none => simp [last] at mem
  | some segment =>
    rw [last, Option.getD_some] at mem
    obtain ⟨inner, apart⟩ := of_mem_splitBy _ (List.mem_of_getLast? last) c mem
    refine ⟨?_, by simpa using apart⟩
    rw [dropTrailing, List.mem_reverse] at inner
    exact (List.dropWhile_sublist _).subset
      (List.mem_reverse.mp ((List.dropWhile_sublist _).subset inner))

theorem isWordChar_of_mem_lastSegment {module : List Char}
    (path : ∀ c ∈ module, isPathChar c = true) {c : Char} (mem : c ∈ lastSegment module) :
    isWordChar c = true := by
  obtain ⟨inside, dot, backslash⟩ := mem_of_mem_lastSegment mem
  simpa [isPathChar, dot, backslash] using path c inside

/-! ## What is matched -/

/-- A quoted path. -/
structure Quotation (q : Char) (path : List Char) (q' : Char) : Prop where
  opened : isQuote q = true
  filled : path ≠ []
  plain : ∀ c ∈ path, isQuote c = false
  closed : isQuote q' = true

/-- An inclusion of a file: the word for it, perhaps for only one inclusion, perhaps a bracket, and
the quoted path. -/
inductive Inclusion (path : List Char) : List Char → Prop
  | written {word once gap bracket gap' : List Char} {q q' : Char}
    (words : word = "require".toList ∨ word = "include".toList)
    (onces : once = "_once".toList ∨ once = []) (blank : isBlankText gap = true)
    (brackets : bracket = ['('] ∨ bracket = []) (blank' : isBlankText gap' = true)
    (quoted : Quotation q path q') :
    Inclusion path (word ++ (once ++ (gap ++ (bracket ++ (gap' ++ q :: (path ++ [q']))))))

/-- How the inclusion of a file looks. -/
def inclusion : Pattern :=
  boundary ++ anyText ["require", "include"] ++ optional (text "_once") ++ blank0 ++
    optional (text "(") ++ blank0 ++ Grammar.quoted "module"

attribute [local simp] gap0 gap1 blank0 blank1 word1 ident Grammar.quoted indented inclusion
  Pattern.run0 Pattern.run1 Pattern.few0 Pattern.few1 Pattern.optional Pattern.oneOf Confines Records
  Within ofLanguage python javascript typescript php java go unknown

/-- Where the last segment is bound, an import records a module and nothing else of what imports may
record. -/
theorem imports_record_module (language : Language)
    (binds : (ofLanguage language).bindsLastSegment = true) :
    ∀ p ∈ (ofLanguage language).imports, p.Records "module" ∧
      ∀ name ∈ ["modules", "names", "block"], p.Confines name fun _ => False := by
  cases language <;> simp at binds ⊢

/-- There a module is a path of words, unless it is a file that is included. -/
theorem imports_path (language : Language)
    (binds : (ofLanguage language).bindsLastSegment = true) :
    ∀ p ∈ (ofLanguage language).imports,
      p.Confines "module" (·.Within fun c => isPathChar c = true) ∨
        language = .php ∧ p = inclusion := by
  cases language <;> simp [isPathChar, isDotted] at binds ⊢
  all_goals tauto

/-- A quoted text records first of all what stands between its quotes. -/
theorem yields_quoted {name : String} {c d : Cursor} {new : Captures}
    (yields : (Grammar.quoted name).Yields c d new) :
    ∃ q q' span, c.Passes (q :: (span.text ++ [q'])) d ∧ Quotation q span.text q' ∧
      new.lookup name = some span := by
  cases yields with
  | @seq _ _ _ last _ _ _ start closes =>
    cases start with
    | @seq _ _ _ first _ _ _ opens recorded =>
      cases recorded with
      | capture inside =>
        obtain ⟨_, opened, q, rfl, quote⟩ := opens.spells
        obtain ⟨_, closed, q', rfl, quote'⟩ := closes.spells
        obtain ⟨_, passes, _, inner, rfl, ⟨x, rfl, plain⟩, plain', -⟩ := inside.spells
        refine ⟨q, q', ⟨first, last⟩, ?_, ⟨quote, ?_, ?_, quote'⟩, ?_⟩
        · rw [passes.text_eq]
          exact (opened.trans passes).trans closed
        · rw [passes.text_eq]
          exact List.cons_ne_nil x inner
        · rw [passes.text_eq]
          have unquoted : ∀ y ∈ x :: inner, (!isQuote y) = true :=
            List.forall_mem_cons.mpr ⟨plain, plain'⟩
          simpa using unquoted
        · cases closes
          simp

/-- What an inclusion records as its module is the path that stands in its quotes. -/
theorem exists_inclusion {content : List Char} {m : Match} {span : Span}
    (places : inclusion.Places content m) (under : m.group? "module" = some span) :
    ∃ text, text <:+: content ∧ Inclusion span.text text := by
  obtain ⟨⟨before, start⟩, yields⟩ := places
  rw [Match.group?] at under
  generalize m.captures = captures at yields under
  cases yields with
  | seq head path =>
    obtain ⟨q, q', span', passes, quoted, recorded⟩ := yields_quoted path
    -- The path is recorded last, so it is what the name stands for.
    rw [List.lookup_append, recorded] at under
    obtain rfl := Option.some.inj under
    obtain ⟨w, passed, spells⟩ := head.spells
    simp only [append_eq_seq, blank0, Pattern.run0, Pattern.optional, Spells, spells_text,
      spells_anyText] at spells
    obtain ⟨_, gap', rfl, ⟨_, bracket, rfl, ⟨_, gap, rfl, ⟨_, once, rfl, ⟨_, word, rfl, rfl, words⟩,
      onces⟩, blank, -⟩, brackets⟩, blank', -⟩ := spells
    refine ⟨_, ⟨before, m.span.stop.rest, (start.trans (passed.trans passes)).rest.symm⟩, ?_⟩
    have is : Inclusion span'.text (word ++ (once ++ (gap ++ (bracket ++ (gap' ++
        q :: (span'.text ++ [q'])))))) :=
      .written (by simpa using words) onces (List.all_eq_true.mpr blank) brackets
        (List.all_eq_true.mpr blank') quoted
    simpa using is

/-! ## What is bound -/

/-- Where last segments are not bound, the names of an import are identifiers. -/
theorem isSymbol_of_mem_importsOf {g : Grammar} {starts : List Nat} {m : Match} {r : ImportRef}
    (mem : r ∈ importsOf g starts m) (plain : g.bindsLastSegment = false) :
    ∀ name ∈ r.names, IsSymbol name := by
  unfold importsOf at mem
  simp only at mem
  split at mem
  · obtain ⟨part, -, found⟩ := List.mem_filterMap.mp mem
    obtain ⟨module, -, rfl⟩ := Option.map_eq_some_iff.mp found
    exact fun _ mem => absurd mem List.not_mem_nil
  · split at mem
    · obtain ⟨quoted, -, rfl⟩ := List.mem_map.mp mem
      exact fun _ mem => absurd mem List.not_mem_nil
    · obtain rfl := List.mem_singleton.mp mem
      dsimp only
      split
      · exact fun _ mem => isSymbol_of_mem_split mem
      · rw [plain]
        exact fun _ mem => absurd mem List.not_mem_nil

/-- An import that records nothing but a module binds the last segment of it. -/
theorem importsOf_eq_singleton {g : Grammar} {starts : List Nat} {m : Match} {span : Span}
    (binds : g.bindsLastSegment = true) (under : m.group? "module" = some span)
    (only : ∀ name ∈ ["modules", "names", "block"], m.group? name = none) :
    importsOf g starts m = [⟨String.ofList span.text, [String.ofList (lastSegment span.text)],
      lineOf starts m.offset⟩] := by
  have modules := only "modules" (by simp)
  have names := only "names" (by simp)
  have block := only "block" (by simp)
  simp [importsOf, Match.groupText?, modules, names, block, under, binds]

/-- An import of a language that binds last segments binds just that of its module, which is a word or
comes from the path of an included file; in the other languages only identifiers are bound. -/
theorem imports_bind (language : Language) (content : List Char) {r : ImportRef}
    (mem : r ∈ imports (ofLanguage language) content (lineStarts content)) :
    ((ofLanguage language).bindsLastSegment = false → ∀ name ∈ r.names, IsSymbol name) ∧
    ((ofLanguage language).bindsLastSegment = true →
      ∃ segment, r.names = [String.ofList segment] ∧ segment = lastSegment r.module.toList ∧
        ((∀ c ∈ segment, isWordChar c = true) ∧
            (IsSymbol (String.ofList segment) ↔ ∃ c ∈ segment.head?, isIdentStart c = true) ∨
          language = .php ∧
            ∃ text, text <:+: content ∧ Inclusion r.module.toList text)) := by
  obtain ⟨p, ofGrammar, mem⟩ := List.mem_flatMap.mp (List.mem_mergeSort.mp mem)
  obtain ⟨m, ofPattern, mem⟩ := List.mem_flatMap.mp mem
  refine ⟨isSymbol_of_mem_importsOf mem, fun binds => ?_⟩
  have places := Pattern.findAll_places ofPattern
  obtain ⟨records, others⟩ := imports_record_module language binds p ofGrammar
  obtain ⟨span, under⟩ := places.recorded records
  rw [importsOf_eq_singleton binds under fun name other =>
    places.group?_eq_none (others name other), List.mem_singleton] at mem
  subst mem
  refine ⟨lastSegment span.text, rfl, by rw [String.toList_ofList], ?_⟩
  -- What the module is made of is told by the part of the pattern that records it.
  rcases imports_path language binds p ofGrammar with confines | ⟨php, rfl⟩
  · left
    obtain ⟨_, body, inner, -, within, yields⟩ := places.confined confines under
    obtain ⟨path, passes, chars⟩ := yields.within within
    have word : ∀ c ∈ lastSegment span.text, isWordChar c = true := fun c mem =>
      isWordChar_of_mem_lastSegment (passes.text_eq ▸ chars) mem
    exact ⟨word, isSymbol_ofList_iff word⟩
  · right
    rw [String.toList_ofList]
    exact ⟨php, exists_inclusion places under⟩

/-- An import of a namespace binds the last of its segments. -/
theorem imports_bind_used :
    ∃ r ∈ imports (ofLanguage .php) "use A\\B;".toList (lineStarts "use A\\B;".toList),
      ∃ segment, r.names = [String.ofList segment] ∧ segment = lastSegment r.module.toList := by
  have found : imports (ofLanguage .php) "use A\\B;".toList (lineStarts "use A\\B;".toList) =
      [⟨"A\\B", ["B"], 1⟩] := by cbv
  have mem := found ▸ List.mem_singleton_self (⟨"A\\B", ["B"], 1⟩ : ImportRef)
  obtain ⟨segment, names, last, -⟩ := (imports_bind .php _ mem).2 rfl
  exact ⟨_, mem, segment, names, last⟩

/-- The path of an included file is bound as if it were a name. -/
theorem imports_bind_included :
    imports (ofLanguage .php) "require 'a/b'".toList (lineStarts "require 'a/b'".toList) =
        [⟨"a/b", ["a/b"], 1⟩] ∧ ¬IsSymbol "a/b" := by
  refine ⟨by cbv, ?_⟩
  rintro ⟨c, rest, same, -, chars⟩
  obtain ⟨rfl, rfl⟩ := List.cons.inj (show 'a' :: ['/', 'b'] = c :: rest from same)
  exact absurd (chars '/' (by simp)) (by decide)

end Names

end CodeAtlas
