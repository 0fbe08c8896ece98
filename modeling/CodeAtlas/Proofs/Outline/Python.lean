import CodeAtlas.Outline.Analysis
import CodeAtlas.Proofs.Outline.Clauses

/-!
# One name, declared in one module and imported by another

A Python file that declares one function or class exports its name, when it is made of word
characters of any script and does not start with an underscore. A file that imports the name binds
it only when it starts with an ASCII letter, for the names of an import are read as identifiers, and
an identifier starts so. Whether a name that is exported is imported hangs on its first character.

## Main results

`Outline.exports_declaration`, `Outline.imports_importation`: what the two files export and import.

## Proof strategy

The patterns are followed through the text piece by piece, with the lemmas of patterns that go as far
as they can. The other patterns stop at the first word.
-/

namespace CodeAtlas

open Text Pattern Grammar

/-! ## Characters -/

namespace Text

theorem ne_of_isWordChar {c d : Char} (word : isWordChar c = true) (other : isWordChar d = false) :
    c ≠ d := by
  rintro rfl
  rw [word] at other
  contradiction

end Text

/-- The name of a declaration that other modules may import: word characters, the first of which is
no underscore. -/
structure PublicName (w : List Char) : Prop where
  filled : w ≠ []
  word : ∀ c ∈ w, isWordChar c = true
  shown : w.head? ≠ some '_'

/-- The path of a module: word characters and dots. -/
structure ModulePath (m : List Char) : Prop where
  filled : m ≠ []
  dotted : ∀ c ∈ m, isDotted c = true

/-- A name that can be bound by an import: it starts with an ASCII letter. -/
def startsAscii (w : List Char) : Bool :=
  w.head?.any isIdentStart

/-! ## Matching -/

namespace Pattern

section Pieces

variable {follow : Follow} {c : Cursor} {captures : Captures} {found : Cursor × Captures}

@[simp] theorem rest_behind (c : Cursor) (passed rest : List Char) :
    (c.behind passed rest).rest = rest :=
  rfl

@[simp] theorem Cursor.atLineStart_start (s : List Char) : (Cursor.start s).atLineStart = true :=
  rfl

theorem text_behind {passed rest : List Char} (stands : c.rest = passed ++ rest) :
    (⟨c, c.behind passed rest⟩ : Span).text = passed := by
  simp [Span.text, stands, Cursor.behind]

/-- One space before what is no gap. -/
theorem match?_gap1 {rest : List Char} (stands : c.rest = [' '] ++ rest)
    (stops : ∀ x ∈ rest.head?, isGap x = false)
    (follows : follow (c.behind [' '] rest) captures = some found) :
    gap1.match? follow c captures = some found :=
  match?_run1 stands (by simp) (List.forall_mem_singleton.mpr rfl) stops follows

theorem isGap_of_isDotted {c : Char} (dotted : isDotted c = true) : isGap c = false := by
  have apart {d : Char} (other : isDotted d = false) : (c == d) = false :=
    beq_false_of_ne fun same => by rw [same, other] at dotted; contradiction
  rw [isGap, apart (by decide), apart (by decide)]
  rfl

theorem isDotted_of_isWordChar {c : Char} (word : isWordChar c = true) : isDotted c = true := by
  rw [isDotted, word, Bool.true_or]

theorem head?_append_of_ne_nil {xs ys : List Char} (filled : xs ≠ []) :
    (xs ++ ys).head? = xs.head? := by
  obtain ⟨x, xs, rfl⟩ := List.exists_cons_of_ne_nil filled
  rfl

theorem stops_cons {accepts : Char → Bool} {x : Char} {rest : List Char}
    (stop : accepts x = false) : ∀ y ∈ (x :: rest).head?, accepts y = false := by
  simpa using stop

variable {w m tail : List Char}

/-- A public name is recorded as a whole. -/
theorem match?_publicName (name : PublicName w) (stands : c.rest = w ++ tail)
    (stops : ∀ x ∈ tail.head?, isWordChar x = false)
    (follows : follow (c.behind w tail) (("name", ⟨c, c.behind w tail⟩) :: captures) = some found) :
    publicName.match? follow c captures = some found := by
  have shown : ¬"_".toList <+: c.rest := by
    rw [stands]
    obtain ⟨x, w, rfl⟩ := List.exists_cons_of_ne_nil name.filled
    have other : x ≠ '_' := fun same => name.shown (congrArg some same)
    simp [Ne.symm other]
  simp only [publicName, append_eq_seq, match?, match?_text_eq_none shown]
  exact match?_run1 stands name.filled name.word stops follows

/-- A keyword, a space and a public name. -/
theorem match?_declaration {keyword : String} (name : PublicName w)
    (stands : c.rest = keyword.toList ++ ([' '] ++ (w ++ tail)))
    (stops : ∀ x ∈ tail.head?, isWordChar x = false)
    (follows : let start := (c.behind keyword.toList ([' '] ++ (w ++ tail))).behind [' '] (w ++ tail)
      follow (start.behind w tail) (("name", ⟨start, start.behind w tail⟩) :: captures) =
        some found) :
    (text keyword).match? (gap1.match? (publicName.match? follow)) c captures = some found := by
  rw [match?_text stands]
  refine match?_gap1 rfl ?_ (match?_publicName name rfl stops follows)
  rw [head?_append_of_ne_nil name.filled]
  intro x mem
  exact isGap_of_isDotted (isDotted_of_isWordChar (name.word x (List.mem_of_mem_head? mem)))

/-- The path of a module is recorded as a whole. -/
theorem match?_modulePath (path : ModulePath m) (stands : c.rest = m ++ tail)
    (stops : ∀ x ∈ tail.head?, isDotted x = false)
    (follows : follow (c.behind m tail) captures = some found) :
    (either (run1 (· == '.') ++ run0 isDotted) (run1 isDotted)).match? follow c captures =
      some found := by
  rw [append_eq_seq, match?, match?]
  by_cases relative : m.head? = some '.'
  · -- The dots in front, then the rest of the path.
    let dots := m.takeWhile (· == '.')
    let more := m.dropWhile (· == '.')
    have split : dots ++ more = m := List.takeWhile_append_dropWhile
    have stands' : c.rest = dots ++ (more ++ tail) := by rw [← List.append_assoc, split, stands]
    have behind : (c.behind dots (more ++ tail)).behind more tail = c.behind m tail := by
      rw [Cursor.behind_behind, split]
    have filled : dots ≠ [] := by
      obtain ⟨x, m, rfl⟩ := List.exists_cons_of_ne_nil path.filled
      simp only [List.head?_cons, Option.some.injEq] at relative
      simp [dots, relative]
    have ends : ∀ x ∈ (more ++ tail).head?, (x == '.') = false := by
      intro x mem
      cases rest : more with
      | nil =>
        rw [rest] at mem
        exact beq_false_of_ne fun same => by simpa [same, isDotted] using stops x mem
      | cons y ys =>
        have other := List.head?_dropWhile_not (· == '.') m
        rw [show m.dropWhile (· == '.') = y :: ys from rest] at other
        obtain rfl : y = x := by simpa [rest] using mem
        simpa using other
    rw [match?_run1 stands' filled (List.all_eq_true.mp List.all_takeWhile) ends
      (match?_run0 rfl
        (fun x mem => path.dotted x (split ▸ List.mem_append_right _ mem)) stops
        (behind ▸ follows))]
  · obtain ⟨x, m, rfl⟩ := List.exists_cons_of_ne_nil path.filled
    rw [match?_run1_eq_none]
    · exact match?_run1 stands path.filled path.dotted stops follows
    · rw [stands]
      simpa using relative

/-- A pattern at the start of a line, in a text that is not indented. -/
theorem match?_indented (start : c.atLineStart = true)
    (stops : ∀ x ∈ c.rest.head?, isGap x = false) :
    indented.match? follow c captures = follow c captures := by
  simp only [indented, append_eq_seq, match?, start, if_true]
  exact match?_run0_here stops

end Pieces

end Pattern

/-! ## The two texts -/

/-- The text of a file that declares a name. -/
def declaration (keyword : String) (w tail : List Char) : List Char :=
  keyword.toList ++ ([' '] ++ (w ++ tail))

/-- The text of a file that imports a name. -/
def importation (m w : List Char) : List Char :=
  "from".toList ++ ([' '] ++ (m ++ ([' '] ++ ("import".toList ++ ([' '] ++ (w ++ []))))))

namespace Grammar

/-- The pattern of an exported function. -/
def pythonDef : Pattern :=
  lineStart ++ optional (text "async" ++ gap1) ++ text "def" ++ gap1 ++ publicName

/-- The pattern of an exported class. -/
def pythonClass : Pattern :=
  lineStart ++ text "class" ++ gap1 ++ publicName

/-- The pattern of an import of names. -/
def pythonFrom : Pattern :=
  indented ++ text "from" ++ gap1 ++
    capture "module" (either (run1 (· == '.') ++ run0 isDotted) (run1 isDotted)) ++ gap1 ++
    text "import" ++ gap1 ++
    capture "names" (either (text "(" ++ run0 (· != ')') ++ text ")")
      (run1 fun c => c != '\n' && c != '#' && c != ';'))

/-- The pattern of an import of modules. -/
def pythonImport : Pattern :=
  indented ++ text "import" ++ gap1 ++
    capture "modules" (pythonModule ++ many (gap0 ++ text "," ++ gap0 ++ pythonModule))

theorem python_exports : python.exports = [pythonDef, pythonClass] := rfl

theorem python_imports : python.imports = [pythonFrom, pythonImport] := rfl

/-- The pattern starts at the start of a line. -/
theorem anchored_of_mem {p : Pattern} (mem : p ∈ [pythonDef, pythonClass, pythonFrom, pythonImport]) :
    p.Anchored := by
  have indented : indented.Anchored := anchored_lineStart.seq _
  simp only [List.mem_cons, List.not_mem_nil, or_false] at mem
  rcases mem with rfl | rfl | rfl | rfl
  · exact (((anchored_lineStart.seq _).seq _).seq _).seq _
  · exact ((anchored_lineStart.seq _).seq _).seq _
  · exact ((((((indented.seq _).seq _).seq _).seq _).seq _).seq _).seq _
  · exact ((indented.seq _).seq _).seq _

section Declaration

variable {w tail : List Char}

theorem newline_not_mem_declaration {keyword : String} (clean : '\n' ∉ keyword.toList)
    (name : PublicName w) (line : '\n' ∉ tail) : '\n' ∉ declaration keyword w tail := by
  have word : '\n' ∉ w := fun mem => ne_of_isWordChar (name.word _ mem) (by decide) rfl
  simp [declaration, clean, word, line]

/-- A pattern that comes down to the keyword of a declaration finds it with its name. -/
theorem findAll_declaration {p : Pattern} (anchored : p.Anchored) {keyword : String}
    (clean : '\n' ∉ keyword.toList) (name : PublicName w)
    (stops : ∀ x ∈ tail.head?, isWordChar x = false) (line : '\n' ∉ tail)
    (reduces : ∀ follow, p.match? follow (.start (declaration keyword w tail)) [] =
      (text keyword).match? (gap1.match? (publicName.match? follow))
        (.start (declaration keyword w tail)) []) :
    ∃ m, p.findAll (declaration keyword w tail) = [m] ∧ m.groupText? "name" = some w := by
  have matched : (text keyword).match? (gap1.match? (publicName.match?
      fun stop captures => some (stop, captures))) (.start (declaration keyword w tail)) [] =
        some _ := match?_declaration name rfl stops rfl
  refine ⟨_, anchored.findAll_eq_singleton (newline_not_mem_declaration clean name line)
    ((reduces _).trans matched), ?_⟩
  exact congrArg some (text_behind rfl)

theorem pythonDef_findAll (name : PublicName w) (stops : ∀ x ∈ tail.head?, isWordChar x = false)
    (line : '\n' ∉ tail) :
    ∃ m, pythonDef.findAll (declaration "def" w tail) = [m] ∧ m.groupText? "name" = some w := by
  refine findAll_declaration (anchored_of_mem (by simp)) (by decide) name stops line fun follow => ?_
  simp only [pythonDef, append_eq_seq, Pattern.optional, match?, Cursor.atLineStart_start, if_true]
  rw [match?_text_eq_none (by simp [declaration, Cursor.start])]

theorem pythonClass_findAll (name : PublicName w) (stops : ∀ x ∈ tail.head?, isWordChar x = false)
    (line : '\n' ∉ tail) :
    ∃ m, pythonClass.findAll (declaration "class" w tail) = [m] ∧ m.groupText? "name" = some w := by
  refine findAll_declaration (anchored_of_mem (by simp)) (by decide) name stops line fun follow => ?_
  simp only [pythonClass, append_eq_seq, match?, Cursor.atLineStart_start, if_true]

end Declaration

/-! A text of one line that does not start with the keyword of a pattern has no match of it. -/

section Elsewhere

variable {s : List Char} (line : '\n' ∉ s)

include line

theorem pythonDef_findAll_nil (async : ¬"async".toList <+: s) (def_ : ¬"def".toList <+: s) :
    pythonDef.findAll s = [] := by
  refine (anchored_of_mem (by simp)).findAll_eq_nil line ?_
  simp only [pythonDef, append_eq_seq, Pattern.optional, match?, Cursor.atLineStart_start, if_true]
  rw [match?_text_eq_none async, match?_text_eq_none def_]

theorem pythonClass_findAll_nil (class_ : ¬"class".toList <+: s) : pythonClass.findAll s = [] := by
  refine (anchored_of_mem (by simp)).findAll_eq_nil line ?_
  simp only [pythonClass, append_eq_seq, match?, Cursor.atLineStart_start, if_true]
  rw [match?_text_eq_none class_]

theorem pythonFrom_findAll_nil (stops : ∀ x ∈ s.head?, isGap x = false)
    (from_ : ¬"from".toList <+: s) : pythonFrom.findAll s = [] := by
  refine (anchored_of_mem (by simp)).findAll_eq_nil line ?_
  simp only [pythonFrom, append_eq_seq, match?]
  rw [match?_indented rfl stops, match?_text_eq_none from_]

theorem pythonImport_findAll_nil (stops : ∀ x ∈ s.head?, isGap x = false)
    (import_ : ¬"import".toList <+: s) : pythonImport.findAll s = [] := by
  refine (anchored_of_mem (by simp)).findAll_eq_nil line ?_
  simp only [pythonImport, append_eq_seq, match?]
  rw [match?_indented rfl stops, match?_text_eq_none import_]

end Elsewhere

section Importation

variable {m w : List Char}

theorem newline_not_mem_importation (path : ModulePath m) (name : PublicName w) :
    '\n' ∉ importation m w := by
  have word : '\n' ∉ w := fun mem => ne_of_isWordChar (name.word _ mem) (by decide) rfl
  have dotted : '\n' ∉ m := fun mem => absurd (path.dotted _ mem) (by decide)
  simp [importation, word, dotted]

/-- The names behind an import are recorded as a whole. -/
theorem match?_importedNames {follow : Follow} {c : Cursor} {captures : Captures}
    {found : Cursor × Captures} (name : PublicName w) (stands : c.rest = w ++ [])
    (follows : follow (c.behind w []) captures = some found) :
    (either (text "(" ++ run0 (· != ')') ++ text ")")
      (run1 fun c => c != '\n' && c != '#' && c != ';')).match? follow c captures = some found := by
  have bare : ¬"(".toList <+: c.rest := by
    rw [stands]
    obtain ⟨x, w, rfl⟩ := List.exists_cons_of_ne_nil name.filled
    have other : x ≠ '(' := ne_of_isWordChar (name.word x List.mem_cons_self) (by decide)
    simp [Ne.symm other]
  have accepted : ∀ x ∈ w, (x != '\n' && x != '#' && x != ';') = true := by
    intro x mem
    have word := name.word x mem
    simp [ne_of_isWordChar word (show isWordChar '\n' = false by decide),
      ne_of_isWordChar word (show isWordChar '#' = false by decide),
      ne_of_isWordChar word (show isWordChar ';' = false by decide)]
  simp only [append_eq_seq, match?, match?_text_eq_none bare]
  exact match?_run1 stands name.filled accepted (by simp) follows

theorem pythonFrom_findAll (path : ModulePath m) (name : PublicName w) :
    ∃ found, pythonFrom.findAll (importation m w) = [found] ∧
      found.groupText? "module" = some m ∧ found.groupText? "names" = some w ∧
      found.group? "modules" = none ∧ found.group? "block" = none := by
  let start := Cursor.start (importation m w)
  let atModule := (start.behind "from".toList (importation m w |>.drop 4)).behind [' ']
    (importation m w |>.drop 5)
  let behindModule := atModule.behind m ([' '] ++ ("import".toList ++ ([' '] ++ (w ++ []))))
  let atNames := ((behindModule.behind [' '] ("import".toList ++ ([' '] ++ (w ++ [])))).behind
    "import".toList ([' '] ++ (w ++ []))).behind [' '] (w ++ [])
  have matched : pythonFrom.match? (fun stop captures => some (stop, captures)) start [] =
      some (atNames.behind w [], [("names", ⟨atNames, atNames.behind w []⟩),
        ("module", ⟨atModule, behindModule⟩)]) := by
    have ofModule : ∀ x ∈ (m ++ ([' '] ++ ("import".toList ++ ([' '] ++ (w ++ []))))).head?,
        isGap x = false := by
      rw [head?_append_of_ne_nil path.filled]
      exact fun x mem => isGap_of_isDotted (path.dotted x (List.mem_of_mem_head? mem))
    have ofNames : ∀ x ∈ (w ++ []).head?, isGap x = false := by
      rw [head?_append_of_ne_nil name.filled]
      exact fun x mem => isGap_of_isDotted
        (isDotted_of_isWordChar (name.word x (List.mem_of_mem_head? mem)))
    simp only [pythonFrom, append_eq_seq, match?]
    rw [match?_indented rfl (stops_cons (by decide)), match?_text (s := "from") rfl]
    refine match?_gap1 rfl ofModule (match?_modulePath path rfl (stops_cons (by decide)) ?_)
    refine match?_gap1 rfl (stops_cons (by decide)) ?_
    rw [match?_text (s := "import") rfl]
    exact match?_gap1 rfl ofNames (match?_importedNames name rfl rfl)
  refine ⟨_, (anchored_of_mem (by simp)).findAll_eq_singleton
    (newline_not_mem_importation path name) matched, ?_, ?_, rfl, rfl⟩
  · exact congrArg some (text_behind rfl)
  · exact congrArg some (text_behind rfl)

end Importation

end Grammar

/-! ## A list of one name -/

namespace Names

variable {w : List Char} (name : PublicName w)

include name

/-- A name alone is a list of one name, unless it is no identifier. -/
theorem split_publicName (keepAlias : Bool) :
    split w keepAlias = if startsAscii w then [String.ofList w] else [] := by
  have plain : ∀ c ∈ w, isBlank c = false := fun c mem => isBlank_of_isWordChar (name.word c mem)
  have apart {d : Char} (other : isWordChar d = false) : ∀ c ∈ w, c ≠ d :=
    fun c mem => ne_of_isWordChar (name.word c mem) other
  have unmarked : ∀ c ∈ w, isMark c = false := fun c mem => by
    simp [isMark, isBracket, apart (d := '\x7b') (by decide) c mem,
      apart (d := '\x7d') (by decide) c mem, apart (d := '(') (by decide) c mem,
      apart (d := ')') (by decide) c mem, apart (d := ',') (by decide) c mem]
  have single : words w = [w] := words_eq_singleton name.filled plain
  have read : readings w = [[w]] := by rw [readings_eq_singleton unmarked (by simp [single]), single]
  have named : ∀ ws ∈ readings w, (joinWith [' '] ws).head? ≠ some '*' := by
    rw [read, List.forall_mem_singleton]
    exact fun star => apart (by decide) _ (List.mem_of_mem_head? star) rfl
  rw [split_eq (fun c mem => ⟨apart (by decide) c mem, apart (by decide) c mem⟩) named, read,
    List.map_singleton, joinWith, clauseName_plain keepAlias plain]
  obtain ⟨x, w, rfl⟩ := List.exists_cons_of_ne_nil name.filled
  have accepted : w.all isIdentChar = true := List.all_eq_true.mpr fun c mem => by
    rw [isIdentChar, name.word c (List.mem_cons_of_mem x mem), Bool.true_or]
  have starts : ident.matchesAll (x :: w) = startsAscii (x :: w) := by
    rw [matchesAll_ident, accepted, Bool.and_true]
    rfl
  rw [List.filter_singleton, starts]
  cases startsAscii (x :: w) <;> rfl

end Names

/-! ## The two outlines -/

namespace Outline

variable {config : OutlineConfig} {path content : String}

theorem exports_python (python : Language.ofPath path = .python) :
    (analyze config path content).exports =
      distinct ((Names.exports .python content.toList (lineStarts content.toList)).map (·.1)) := by
  rw [analyze, python]
  rfl

theorem imports_python (python : Language.ofPath path = .python) :
    (analyze config path content).imports =
      Names.imports .python content.toList (lineStarts content.toList) := by
  rw [analyze, python]
  rfl

/-- Of the matches of the two export patterns there is one, which has recorded a name. -/
theorem exports_of_found {chars w : List Char} (filled : w ≠ []) {starts : List Nat} {m : Match}
    (found : pythonDef.findAll chars ++ pythonClass.findAll chars = [m])
    (under : m.groupText? "name" = some w) :
    Names.exports .python chars starts = [(String.ofList w, lineOf starts m.offset)] := by
  have kept : (some w).filter (fun text => !text.isEmpty) = some w := by
    simp [Option.filter, filled]
  rw [Names.exports, python_exports, List.flatMap_cons, List.flatMap_singleton,
    ← List.flatMap_append, found, List.flatMap_singleton, under, kept]
  exact List.mergeSort_singleton _

/-- A text of one line that starts with no keyword of an import imports nothing. -/
theorem imports_eq_nil {chars : List Char} (line : '\n' ∉ chars) (starts : List Nat)
    (stops : ∀ x ∈ chars.head?, isGap x = false) (from_ : ¬"from".toList <+: chars)
    (import_ : ¬"import".toList <+: chars) : Names.imports .python chars starts = [] := by
  rw [Names.imports, python_imports, List.flatMap_cons, List.flatMap_singleton,
    pythonFrom_findAll_nil line stops from_, pythonImport_findAll_nil line stops import_]
  exact List.mergeSort_nil

/-- A file that declares one public function or class exports its name and imports nothing. -/
theorem exports_declaration (config : OutlineConfig) (python : Language.ofPath path = .python) {w : String}
    (name : PublicName w.toList)
    (declares : content = "def " ++ w ++ "():" ∨ content = "class " ++ w ++ ":") :
    (analyze config path content).exports = [w] ∧
      importedNames (analyze config path content).imports = [] := by
  rw [exports_python python, imports_python python]
  rcases declares with rfl | rfl
  · have text : ("def " ++ w ++ "():").toList = declaration "def" w.toList "():".toList := by
      simp [declaration]
    have clean : '\n' ∉ "():".toList := by decide
    have stops : ∀ x ∈ "():".toList.head?, isWordChar x = false := stops_cons (by decide)
    have line := newline_not_mem_declaration (show '\n' ∉ "def".toList by decide) name clean
    obtain ⟨m, found, under⟩ := pythonDef_findAll name stops clean
    have others := pythonClass_findAll_nil line (by simp [declaration])
    rw [text, exports_of_found name.filled (by rw [found, others]; rfl) under,
      imports_eq_nil line _ (stops_cons (by decide)) (by simp [declaration])
        (by simp [declaration])]
    simp [distinct, importedNames]
  · have text : ("class " ++ w ++ ":").toList = declaration "class" w.toList ":".toList := by
      simp [declaration]
    have clean : '\n' ∉ ":".toList := by decide
    have stops : ∀ x ∈ ":".toList.head?, isWordChar x = false := stops_cons (by decide)
    have line := newline_not_mem_declaration (show '\n' ∉ "class".toList by decide) name clean
    obtain ⟨m, found, under⟩ := pythonClass_findAll name stops clean
    have others := pythonDef_findAll_nil line (by simp [declaration]) (by simp [declaration])
    rw [text, exports_of_found name.filled (by rw [found, others]; rfl) under,
      imports_eq_nil line _ (stops_cons (by decide)) (by simp [declaration])
        (by simp [declaration])]
    simp [distinct, importedNames]

/-- A file that imports a public name exports nothing and binds the name when it starts with an
ASCII letter. -/
theorem imports_importation (config : OutlineConfig) (python : Language.ofPath path = .python) {m w : String}
    (module : ModulePath m.toList) (name : PublicName w.toList)
    (imports : content = "from " ++ m ++ " import " ++ w) :
    (analyze config path content).exports = [] ∧
      importedNames (analyze config path content).imports =
        if startsAscii w.toList then [w] else [] := by
  subst imports
  have text : ("from " ++ m ++ " import " ++ w).toList = importation m.toList w.toList := by
    simp [importation]
  have line := newline_not_mem_importation module name
  obtain ⟨found, only, ofModule, ofNames, noModules, noBlock⟩ := pythonFrom_findAll module name
  have kept : (some w.toList).filter (fun text => !text.isEmpty) = some w.toList := by
    simp [Option.filter, name.filled]
  rw [exports_python python, imports_python python, text]
  constructor
  · rw [Names.exports, python_exports, List.flatMap_cons, List.flatMap_singleton,
      pythonDef_findAll_nil line (by simp [importation]) (by simp [importation]),
      pythonClass_findAll_nil line (by simp [importation])]
    simp [distinct]
  · rw [Names.imports, python_imports, List.flatMap_cons, List.flatMap_singleton, only,
      pythonImport_findAll_nil line (stops_cons (by decide)) (by simp [importation])]
    have bound : Names.importsOf .python (lineStarts (importation m.toList w.toList)) found =
        [⟨m, if startsAscii w.toList then [w] else [],
          lineOf (lineStarts (importation m.toList w.toList)) found.offset⟩] := by
      have noModules : found.groupText? "modules" = none := by rw [Match.groupText?, noModules]; rfl
      simp only [Names.importsOf, noModules, noBlock, ofModule, ofNames, kept, Option.filter_none,
        Option.getD_some, Names.split_publicName name, String.ofList_toList]
    simp only [List.flatMap_singleton, bound, List.flatMap_nil, List.append_nil,
      List.mergeSort_singleton, importedNames]
    split <;> rfl

end Outline

end CodeAtlas
