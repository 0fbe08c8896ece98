import CodeAtlas.Outline.Comments
import CodeAtlas.Outline.Complexity
import CodeAtlas.Outline.Extent
import CodeAtlas.Outline.Names
import CodeAtlas.Outline.Signals
import CodeAtlas.Text.Utf8

/-!
The outline of a file from its path and content. A file in a language without a grammar gets its
size and its to-dos only.
-/

namespace CodeAtlas

/-- Thresholds of the signals and bounds of the chunks. -/
structure OutlineConfig where
  designMinHits : Nat := 2
  securityMin : Nat := 1
  performanceMin : Nat := 1
  diagnosticMin : Nat := 1
  fileChunkChars : Nat := 1000
  maxChunkChars : Nat := 4000

namespace Outline

open Text

/-- A declared name that matched: the name, where it ends, and its line. -/
structure Declared where
  name : String
  stop : Cursor
  line : Nat

/-- The declarations that some patterns find, one per name and line. -/
def declared (patterns : List Pattern) (s : Extent.Source) : List Declared :=
  let found := patterns.flatMap fun pattern =>
    (pattern.findAll s.content).filterMap fun m =>
      (m.group? "name").map fun span =>
        (⟨String.ofList span.text, span.stop, s.lineAt span.start.offset⟩ : Declared)
  (found.foldl note []).reverse
where
  /-- Keeps the first declaration of a name on a line. -/
  note (seen : List Declared) (d : Declared) : List Declared :=
    if seen.any fun e => e.name == d.name && e.line == d.line then seen else d :: seen

/-- The lines `first` to `last` as a text. -/
def linesText (s : Extent.Source) (first last : Nat) : List Char :=
  joinWith ['\n'] ((s.lines.take last).drop (first - 1))

/-- The functions, by their first line. Control keywords are never function names. -/
def functionsOf (g : Grammar) (s : Extent.Source) : List FunctionSpan :=
  let names := (declared g.functions s).filter fun d => !Grammar.controlKeywords.contains d.name
  (names.map fun d =>
    let last := Extent.lastLine g s d.stop d.line
    (⟨d.name, d.line, last, Complexity.cyclomaticOf (linesText s d.line last)⟩ : FunctionSpan)
    ).mergeSort fun a b => a.startLine ≤ b.startLine

/-- The classes, by their first line, with the functions that start after it and inside the
class. -/
def classesOf (g : Grammar) (s : Extent.Source) (functions : List FunctionSpan) : List ClassSpan :=
  ((declared g.classes s).map fun d =>
    let last := Extent.lastLine g s d.stop d.line
    let inside := functions.filter fun f =>
      (d.line : Int) < f.startLine && f.startLine ≤ (last : Int)
    (⟨d.name, d.line, last, inside.map (·.name)⟩ : ClassSpan)).mergeSort
    fun a b => a.startLine ≤ b.startLine

/-- The interfaces, by line. -/
def interfacesOf (g : Grammar) (s : Extent.Source) : List Declared :=
  (declared g.interfaces s).mergeSort fun a b => a.line ≤ b.line

/-- All symbols, by line and within a line by kind. -/
def symbolsOf (functions : List FunctionSpan) (classes : List ClassSpan)
    (interfaces : List Declared) (imports : List ImportRef) (exports : List (String × Nat)) :
    List Symbol :=
  let all : List Symbol :=
    functions.map (fun f => ⟨f.name, .function, f.startLine⟩) ++
    classes.map (fun c => ⟨c.name, .class_, c.startLine⟩) ++
    interfaces.map (fun d => ⟨d.name, .interface, d.line⟩) ++
    imports.map (fun r => ⟨r.module, .import_, r.line⟩) ++
    exports.map (fun (name, line) => ⟨name, .export_, line⟩)
  all.mergeSort fun a b => a.line < b.line || (a.line == b.line && a.kind.rank ≤ b.kind.rank)

/-- The lines of a content: one more than its newlines, none when it is empty. -/
def countLines (content : List Char) : Nat :=
  if content.isEmpty then 0 else content.count '\n' + 1

/-- An outline that holds nothing but the size. -/
def empty (path : String) (language : Language) (content : List Char) : Outline :=
  { filePath := path
    language := language
    lineCount := countLines content
    sizeBytes := utf8Length content }

/-- The signals of a file. -/
def findingsOf (config : OutlineConfig) (language : Language) (s : Extent.Source) : Findings :=
  { framework := Signals.framework? s.content language
    design := Signals.design s.content config.designMinHits
    security := Signals.security s.content config.securityMin
    performance := Signals.performance s.content config.performanceMin
    diagnostic := Signals.diagnostic s.content config.diagnosticMin
    endpoints := Signals.endpoints s.content language s.starts
    queries := Signals.queries s.content language s.starts
    todos := Comments.todos s.content s.starts }

/-- The outline of a content by a grammar. -/
def byGrammar (config : OutlineConfig) (g : Grammar) (path : String) (language : Language)
    (content : List Char) : Outline :=
  let s := Extent.Source.of content
  let (comments, commentLines) := Comments.ofLines g s.lines
  let functions := functionsOf g s
  let classes := classesOf g s functions
  let interfaces := interfacesOf g s
  let imports := Names.imports g content s.starts
  let exports := Names.exports g content s.starts
  { empty path language content with
    symbols := symbolsOf functions classes interfaces imports exports
    imports := imports
    exports := distinct (exports.map (·.1))
    dependencies := imports.map fun r =>
      ⟨r.module, if g.isLocal r.module then .local_ else .external, r.line⟩
    functions := functions
    classes := classes
    comments := comments
    complexity := Complexity.ofText content commentLines
    findings := findingsOf config language s }

/-- The outline of a file. -/
def analyze (config : OutlineConfig) (path content : String) : Outline :=
  let language := Language.ofPath path
  let g := Grammar.ofLanguage language
  let chars := content.toList
  if g.isEmpty then
    { empty path language chars with
        findings := { todos := Comments.todos chars (lineStarts chars) } }
  else byGrammar config g path language chars

end Outline

end CodeAtlas
