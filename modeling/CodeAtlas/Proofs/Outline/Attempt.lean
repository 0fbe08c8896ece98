import CodeAtlas.Outline.Analysis
import CodeAtlas.Proofs.Outline.Declared

/-!
# An analysis that may fail

Much of the analysis reads what it takes to be there: what a match has recorded, the line of a
declaration, the first word of a part that is not blank, the last segment of a path. The outline is
written with a default in each of these places. Here it is written once more without them, each place
failing where there is nothing to be read, and so is the arithmetic where it has a divisor or a
logarithm. No content, path or configuration makes it fail.

## Main results

`Attempt.outline_eq`: the analysis that may fail succeeds, with the outline.

## Proof strategy

One equation for each part of the analysis, from what the patterns of a language record. A list is
read as a whole when each of its items is (`mapM_eq_ok_filterMap`).
-/

namespace CodeAtlas

/-- What the analysis reads and does not find. -/
inductive Missing where
  /-- A match has recorded nothing under a name. -/
  | group (name : String)
  /-- The content has no such line. -/
  | line (number : Nat)
  /-- A part has no word, or a path no segment. -/
  | piece
  /-- A number that is not positive has no logarithm and divides nothing. -/
  | positive

namespace Attempt

open Text

/-! ## The readings -/

/-- The stretch under a name. -/
def group (m : Match) (name : String) : Except Missing Span :=
  match m.group? name with
  | some span => .ok span
  | none => .error (.group name)

/-- The text under a name. -/
def groupText (m : Match) (name : String) : Except Missing (List Char) :=
  (group m name).map Span.text

/-- A line by its number. -/
def line (s : Extent.Source) (number : Nat) : Except Missing (List Char) :=
  match s.lines[number - 1]? with
  | some line => .ok line
  | none => .error (.line number)

/-- A piece that has to be there. -/
def piece (found : Option (List Char)) : Except Missing (List Char) :=
  match found with
  | some piece => .ok piece
  | none => .error .piece

/-- A function of a positive number. -/
def ofPositive (f : Nat → Float) (n : Nat) : Except Missing Float :=
  if n = 0 then .error .positive else .ok (f n)

/-- What is read off every match of some patterns. -/
def ofMatches {β : Type} (patterns : List Pattern) (content : List Char)
    (read : Match → Except Missing β) : Except Missing (List β) := do
  let found ← patterns.mapM fun pattern => (pattern.findAll content).mapM read
  return found.flatten

/-! ## The parts of the analysis -/

/-- The to-dos of a content. -/
def todos (content : List Char) (starts : List Nat) : Except Missing (List Todo) :=
  (Comments.todo.findAll content).mapM fun m => do
    let marker ← groupText m "marker"
    let description ← groupText m "description"
    return ⟨String.ofList marker, String.ofList (trim description), lineOf starts m.offset⟩

/-- The declarations that some patterns find, one per name and line. -/
def declared (patterns : List Pattern) (s : Extent.Source) :
    Except Missing (List Outline.Declared) := do
  let found ← ofMatches patterns s.content fun m => do
    let span ← group m "name"
    return (⟨String.ofList span.text, span.stop, s.lineAt span.start.offset⟩ : Outline.Declared)
  return (found.foldl Outline.declared.note []).reverse

/-- The last line of a declaration. The indentation of a body is measured against its first line. -/
def lastLine (g : Grammar) (s : Extent.Source) (name : Cursor) (startLine : Nat) :
    Except Missing Nat := do
  if g.endsByIndent then
    let first ← line s startLine
    let header := s.lineAt ((Extent.headerEnd? name.offset name.rest).getD (s.size - 1))
    return Extent.indentedRun (Extent.indentWidth first) header header (s.lines.drop header)
  else return Extent.braceEnd s name startLine

/-- The functions, by their first line. -/
def functions (g : Grammar) (s : Extent.Source) : Except Missing (List FunctionSpan) := do
  let names := (← declared g.functions s).filter fun d => !Grammar.controlKeywords.contains d.name
  let spans ← names.mapM fun d => do
    let last ← lastLine g s d.stop d.line
    return (⟨d.name, d.line, last,
      Complexity.cyclomaticOf (Outline.linesText s d.line last)⟩ : FunctionSpan)
  return spans.mergeSort fun a b => a.startLine ≤ b.startLine

/-- The classes, by their first line. -/
def classes (g : Grammar) (s : Extent.Source) (functions : List FunctionSpan) :
    Except Missing (List ClassSpan) := do
  let spans ← (← declared g.classes s).mapM fun d => do
    let last ← lastLine g s d.stop d.line
    let inside := functions.filter fun f =>
      (d.line : Int) < f.startLine && f.startLine ≤ (last : Int)
    return (⟨d.name, d.line, last, inside.map (·.name)⟩ : ClassSpan)
  return spans.mergeSort fun a b => a.startLine ≤ b.startLine

/-- The last segment of a module path, outer backslashes aside. -/
def lastSegment (module : List Char) : Except Missing (List Char) :=
  let inner := dropTrailing '\\' (dropLeading '\\' module)
  piece (splitBy (fun c => c == '.' || c == '\\') inner).getLast?

/-- The imports that one match of an import pattern stands for. -/
def importsOf (g : Grammar) (starts : List Nat) (m : Match) : Except Missing (List ImportRef) := do
  let line := lineOf starts m.offset
  match (m.groupText? "modules").filter (!·.isEmpty) with
  | some modules =>
    let found ← (splitOn ',' modules).mapM fun part => do
      if isBlankText part then return none
      let module ← piece (words part).head?
      return some (⟨String.ofList module, [], line⟩ : ImportRef)
    return found.filterMap id
  | none =>
    match m.group? "block" with
    | some block =>
      (Names.doubleQuoted.findAll block.text).mapM fun quoted => do
        let content ← groupText quoted "content"
        return ⟨String.ofList content, [], lineOf starts (block.start.offset + quoted.offset)⟩
    | none =>
      let module ← groupText m "module"
      let names ←
        match (m.groupText? "names").filter (!·.isEmpty) with
        | some names => pure (Names.split names false)
        | none =>
          if g.bindsLastSegment then do
            let segment ← lastSegment module
            pure [String.ofList segment]
          else pure []
      return [⟨String.ofList module, names, line⟩]

/-- The imports of a content, by line. -/
def imports (g : Grammar) (content : List Char) (starts : List Nat) :
    Except Missing (List ImportRef) := do
  let found ← ofMatches g.imports content (importsOf g starts)
  return found.flatten.mergeSort fun a b => a.line ≤ b.line

/-- The endpoints, by line. -/
def endpoints (content : List Char) (language : Language) (starts : List Nat) :
    Except Missing (List Endpoint) := do
  let found ← ofMatches (Signals.endpointPatterns language) content fun m => do
    let path ← groupText m "path"
    let method := (m.groupText? "method").getD "get".toList
    return (⟨Signals.capitalMethod method, String.ofList path, lineOf starts m.offset⟩ : Endpoint)
  return found.mergeSort fun a b => a.line ≤ b.line

/-- The design patterns. -/
def design (content : List Char) (minHits : Int) : Except Missing (List Signal) := do
  let found ← Signals.designIndicators.mapM fun (name, texts) => do
    let hits := texts.countP (Signals.occurs content)
    if minHits ≤ hits then
      let share ← ofPositive (fun n => Float.ofNat hits / Float.ofNat n) texts.length
      return some (⟨name, some (Number.roundTo 4 share), none⟩ : Signal)
    else return none
  return found.filterMap id

/-- The measures of a content. -/
def complexity (content : List Char) (commentLines : Nat) : Except Missing Complexity := do
  let filled := Complexity.filledLines content
  let codeLines := filled - commentLines
  let cyclomatic := Complexity.cyclomaticOf content
  let maintainability ←
    if codeLines == 0 then pure 100.0
    else do
      let size ← ofPositive (fun n => Float.log n.toFloat) codeLines
      pure (Number.roundTo 2 (Complexity.indexOf size cyclomatic.toFloat))
  let ratio ←
    if filled == 0 then pure 0.0
    else do
      let share ← ofPositive (Number.nearest false commentLines) filled
      pure (Number.roundTo 4 share)
  return {
    totalLines := (Complexity.linesOf content).length
    codeLines := codeLines
    commentLines := commentLines
    cyclomatic := cyclomatic
    maintainability := maintainability
    commentRatio := ratio }

/-- The signals of a content whose to-dos are known. -/
def findings (config : OutlineConfig) (language : Language) (s : Extent.Source)
    (todos : List Todo) : Except Missing Findings := do
  let design ← design s.content config.designMinHits
  let endpoints ← endpoints s.content language s.starts
  return {
    framework := Signals.framework? s.content language
    design := design
    security := Signals.security s.content config.securityMin
    performance := Signals.performance s.content config.performanceMin
    diagnostic := Signals.diagnostic s.content config.diagnosticMin
    endpoints := endpoints
    queries := Signals.queries s.content language s.starts
    todos := todos }

/-- The outline of a file. -/
def outline (config : OutlineConfig) (path content : String) : Except Missing Outline := do
  let language := Language.ofPath path
  let g := Grammar.ofLanguage language
  let s := Extent.Source.of content.toList
  let todos ← todos s.content s.starts
  if g.isEmpty then
    return { Outline.empty path language s.content with findings := { todos := todos } }
  let (comments, commentLines) := Comments.ofLines g s.lines
  let functions ← functions g s
  let classes ← classes g s functions
  let interfaces := (← declared g.interfaces s).mergeSort fun a b => a.line ≤ b.line
  let imports ← imports g s.content s.starts
  let exports := Names.exports g s.content s.starts
  let complexity ← complexity s.content commentLines
  let findings ← findings config language s todos
  return { Outline.empty path language s.content with
    symbols := Outline.symbolsOf functions classes interfaces imports exports
    imports := imports
    exports := distinct (exports.map (·.1))
    dependencies := imports.map fun r =>
      ⟨r.module, if g.isLocal r.module then .local_ else .external, r.line⟩
    functions := functions
    classes := classes
    comments := comments
    complexity := complexity
    findings := findings }

/-! ## What is read one by one -/

section Each

variable {α β : Type} {f : α → Except Missing β} {xs : List α}

theorem mapM_eq_ok_filterMap {g : α → Option β} (each : ∀ x ∈ xs, ∃ y, f x = .ok y ∧ g x = some y) :
    xs.mapM f = .ok (xs.filterMap g) := by
  induction xs with
  | nil => rfl
  | cons x xs ih =>
    obtain ⟨⟨y, read, kept⟩, each⟩ := List.forall_mem_cons.mp each
    rw [List.mapM_cons, read, ih each, List.filterMap_cons_some kept]
    rfl

theorem mapM_eq_ok_map {g : α → β} (each : ∀ x ∈ xs, f x = .ok (g x)) :
    xs.mapM f = .ok (xs.map g) := by
  rw [← List.filterMap_eq_map]
  exact mapM_eq_ok_filterMap fun x mem => ⟨g x, each x mem, rfl⟩

end Each

section Matches

variable {β : Type} {patterns : List Pattern} {content : List Char} {read : Match → Except Missing β}

theorem ofMatches_eq_filterMap {g : Match → Option β}
    (each : ∀ p ∈ patterns, ∀ m, p.Places content m → ∃ y, read m = .ok y ∧ g m = some y) :
    ofMatches patterns content read =
      .ok (patterns.flatMap fun p => (p.findAll content).filterMap g) := by
  rw [ofMatches, mapM_eq_ok_map fun p ofPattern => mapM_eq_ok_filterMap fun m mem =>
    each p ofPattern m (Pattern.findAll_places mem)]
  simp only [bind, Except.bind, pure, Except.pure, List.flatMap_def]

theorem ofMatches_eq_map {g : Match → β}
    (each : ∀ p ∈ patterns, ∀ m, p.Places content m → read m = .ok (g m)) :
    ofMatches patterns content read =
      .ok (patterns.flatMap fun p => (p.findAll content).map g) := by
  simp only [← List.filterMap_eq_map]
  exact ofMatches_eq_filterMap fun p ofPattern m places => ⟨g m, each p ofPattern m places, rfl⟩

end Matches

section Groups

variable {p : Pattern} {content : List Char} {m : Match} {name : String}

theorem group_eq (places : p.Places content m) (records : p.Records name) :
    ∃ span, group m name = .ok span ∧ m.group? name = some span := by
  obtain ⟨span, under⟩ := places.recorded records
  exact ⟨span, by rw [group, under], under⟩

theorem groupText_eq (places : p.Places content m) (records : p.Records name) :
    groupText m name = .ok ((m.groupText? name).getD []) := by
  obtain ⟨span, read, under⟩ := group_eq places records
  rw [groupText, read, Match.groupText?, under]
  rfl

end Groups

/-! ## Nothing is missing -/

theorem todos_eq (content : List Char) (starts : List Nat) :
    todos content starts = .ok (Comments.todos content starts) := by
  refine mapM_eq_ok_map fun m mem => ?_
  have places := Pattern.findAll_places mem
  rw [groupText_eq places Grammar.todo_records.1, groupText_eq places Grammar.todo_records.2]
  rfl

theorem declared_eq {patterns : List Pattern} (declare : ∀ p ∈ patterns, p.Declares)
    (content : List Char) :
    declared patterns (.of content) = .ok (Outline.declared patterns (.of content)) := by
  let declaredAt (span : Span) : Outline.Declared :=
    ⟨String.ofList span.text, span.stop, (Extent.Source.of content).lineAt span.start.offset⟩
  rw [declared, ofMatches_eq_filterMap (g := fun m => (m.group? "name").map declaredAt)]
  · rfl
  · intro p ofPattern m places
    obtain ⟨span, read, under⟩ := group_eq places (declare p ofPattern).records
    exact ⟨declaredAt span, by rw [read]; rfl, by rw [under]; rfl⟩

theorem line_eq {content : List Char} {d : Outline.Declared} (placed : d.Placed content) :
    line (.of content) d.line = .ok ((lines content).getD (d.line - 1) []) := by
  obtain ⟨text, there, -⟩ := placed.exists_line
  rw [line, Extent.Source.of, there, List.getD_eq_getElem?_getD, there]
  rfl

theorem lastLine_eq {content : List Char} {d : Outline.Declared} (placed : d.Placed content)
    (g : Grammar) :
    lastLine g (.of content) d.stop d.line =
      .ok (Extent.lastLine g (.of content) d.stop d.line) := by
  rw [lastLine, Extent.lastLine]
  split
  · rw [line_eq placed]
    rfl
  · rfl

theorem functions_eq (language : Language) (content : List Char) :
    functions (.ofLanguage language) (.of content) =
      .ok (Outline.functionsOf (.ofLanguage language) (.of content)) := by
  have declare := Grammar.functions_declare language
  rw [functions, declared_eq declare]
  simp only [bind, Except.bind]
  rw [mapM_eq_ok_map fun d mem => by
    rw [lastLine_eq (Outline.declared_placed declare (List.mem_of_mem_filter mem))]; rfl]
  rfl

theorem classes_eq (language : Language) (content : List Char) (functions : List FunctionSpan) :
    classes (.ofLanguage language) (.of content) functions =
      .ok (Outline.classesOf (.ofLanguage language) (.of content) functions) := by
  have declare := Grammar.classes_declare language
  rw [classes, declared_eq declare]
  simp only [bind, Except.bind]
  rw [mapM_eq_ok_map fun d mem => by
    rw [lastLine_eq (Outline.declared_placed declare mem)]; rfl]
  rfl

/-- What an advancing body has recorded is not empty. -/
theorem groupText?_filter {p : Pattern} {content : List Char} {m : Match} {name : String}
    (places : p.Places content m) (records : p.Records name)
    (confines : p.Confines name Pattern.Advances) :
    (m.groupText? name).filter (!·.isEmpty) = m.groupText? name := by
  obtain ⟨span, under⟩ := places.recorded records
  obtain ⟨-, body, inner, -, advances, yields⟩ := places.confined confines under
  obtain ⟨passed, passes⟩ := yields.passes
  have further := yields.advances advances
  have filled : span.text ≠ [] := by
    rw [show span.text = passed from passes.text_eq]
    rintro rfl
    simp [passes.offset] at further
  simp [Match.groupText?, under, Option.filter, filled]

theorem lastSegment_eq (module : List Char) :
    lastSegment module = .ok (Names.lastSegment module) := by
  unfold lastSegment Names.lastSegment
  simp only
  rw [List.getLast?_eq_some_getLast (splitBy_ne_nil _ _)]
  rfl

theorem importsOf_eq (g : Grammar) {p : Pattern} (imports : p.Imports) {content : List Char}
    {m : Match} (places : p.Places content m) (starts : List Nat) :
    importsOf g starts m = .ok (Names.importsOf g starts m) := by
  unfold importsOf Names.importsOf
  simp only
  cases modules : (m.groupText? "modules").filter (!·.isEmpty) with
  | some modules =>
    simp only
    rw [mapM_eq_ok_map (g := fun part => (words part).head?.map fun module =>
      ⟨String.ofList module, [], lineOf starts m.offset⟩)]
    · simp only [bind, Except.bind, pure, Except.pure, List.filterMap_map]
      rfl
    · intro part _
      split
      · next blank =>
        rw [words_eq_nil_iff.mpr blank]
        rfl
      · next filled =>
        cases found : words part with
        | nil => exact absurd (words_eq_nil_iff.mp found) filled
        | cons module others => rfl
  | none =>
    cases block : m.group? "block" with
    | some block =>
      refine mapM_eq_ok_map fun quoted mem => ?_
      rw [groupText_eq (Pattern.findAll_places mem) Grammar.doubleQuoted_records]
      rfl
    | none =>
      cases imports with
      | modules records confines =>
        obtain ⟨span, under⟩ := places.recorded records
        rw [groupText?_filter places records confines, Match.groupText?, under] at modules
        contradiction
      | block records =>
        obtain ⟨span, under⟩ := places.recorded records
        rw [block] at under
        contradiction
      | module records =>
        simp only
        rw [groupText_eq places records]
        cases (m.groupText? "names").filter (!·.isEmpty) with
        | some names => rfl
        | none =>
          simp only [bind, Except.bind]
          split
          · rw [lastSegment_eq]
            rfl
          · rfl

theorem imports_eq (language : Language) (content : List Char) (starts : List Nat) :
    imports (.ofLanguage language) content starts =
      .ok (Names.imports (.ofLanguage language) content starts) := by
  rw [imports, ofMatches_eq_map fun p ofPattern m places =>
    importsOf_eq _ (Grammar.imports_record language p ofPattern) places starts]
  simp only [bind, Except.bind, pure, Except.pure, Names.imports, List.flatMap_def,
    List.flatten_flatten, List.map_map]
  rfl

theorem endpoints_eq (content : List Char) (language : Language) (starts : List Nat) :
    endpoints content language starts = .ok (Signals.endpoints content language starts) := by
  rw [endpoints, ofMatches_eq_map fun p ofPattern m places => by
    rw [groupText_eq places (Grammar.endpoints_record language p ofPattern)]; rfl]
  rfl

theorem ofPositive_eq (f : Nat → Float) {n : Nat} (positive : n ≠ 0) :
    ofPositive f n = .ok (f n) :=
  if_neg positive

theorem design_eq (content : List Char) (minHits : Int) :
    design content minHits = .ok (Signals.design content minHits) := by
  have texts : ∀ row ∈ Signals.designIndicators, row.2.length ≠ 0 := by decide
  rw [design, mapM_eq_ok_map (g := fun (name, texts) =>
    let hits := texts.countP (Signals.occurs content)
    if minHits ≤ hits then
      some ⟨name, some (Number.roundTo 4 (Float.ofNat hits / Float.ofNat texts.length)), none⟩
    else none)]
  · simp only [bind, Except.bind, pure, Except.pure, List.filterMap_map]
    rfl
  · intro row mem
    simp only
    split
    · rw [ofPositive_eq _ (texts row mem)]
      rfl
    · rfl

theorem complexity_eq (content : List Char) (commentLines : Nat) :
    complexity content commentLines = .ok (Complexity.ofText content commentLines) := by
  simp only [complexity, Complexity.ofText, beq_iff_eq]
  split
  · split
    · rfl
    · next filled =>
      rw [ofPositive_eq _ filled]
      rfl
  · next lines =>
    have filled : Complexity.filledLines content ≠ 0 := by omega
    simp only [bind, Except.bind, pure, Except.pure, ofPositive_eq _ lines, ofPositive_eq _ filled,
      if_neg filled]

theorem findings_eq (config : OutlineConfig) (language : Language) (s : Extent.Source) :
    findings config language s (Comments.todos s.content s.starts) =
      .ok (Outline.findingsOf config language s) := by
  rw [findings, design_eq, endpoints_eq]
  rfl

/-- The analysis misses nothing. -/
theorem outline_eq (config : OutlineConfig) (path content : String) :
    outline config path content = .ok (Outline.analyze config path content) := by
  rw [outline, Outline.analyze]
  simp only
  rw [todos_eq]
  by_cases unknown : (Grammar.ofLanguage (Language.ofPath path)).isEmpty
  · rw [if_pos unknown]
    simp only [unknown, bind, Except.bind]
    rfl
  · rw [if_neg unknown]
    simp only [unknown, bind, Except.bind, Bool.false_eq_true, if_false]
    rw [functions_eq]
    simp only
    rw [classes_eq, declared_eq (Grammar.interfaces_declare _)]
    simp only
    rw [imports_eq]
    simp only
    rw [complexity_eq]
    simp only
    rw [findings_eq]
    rfl

end Attempt

end CodeAtlas
