import CodeAtlas.Language

/-!
What an outline of a source file holds: its declarations, imports and exports, comments and to-dos,
its size and complexity, and the signals of what the code looks like.
-/

namespace CodeAtlas

/-- What a symbol is. -/
inductive SymbolKind where
  | function
  | class_
  | interface
  | import_
  | export_
  deriving DecidableEq, Inhabited

/-- The word for a kind of symbol. -/
def SymbolKind.word : SymbolKind → String
  | .function => "function"
  | .class_ => "class"
  | .interface => "interface"
  | .import_ => "import"
  | .export_ => "export"

/-- Every kind of symbol. -/
def SymbolKind.all : List SymbolKind :=
  [.function, .class_, .interface, .import_, .export_]

/-- The place of a kind among the symbols of one line. -/
def SymbolKind.rank : SymbolKind → Nat
  | .import_ => 0
  | .export_ => 1
  | .interface => 2
  | .class_ => 3
  | .function => 4

/-- Whether a dependency is part of the project. -/
inductive Origin where
  | local_
  | external
  deriving DecidableEq, Inhabited

/-- The word for an origin. -/
def Origin.word : Origin → String
  | .local_ => "local"
  | .external => "external"

/-- Every origin. -/
def Origin.all : List Origin :=
  [.local_, .external]

/-- A named declaration. -/
structure Symbol where
  name : String
  kind : SymbolKind
  line : Int

/-- One import: the module, and the names it binds (none when the whole module is imported). -/
structure ImportRef where
  module : String
  names : List String
  line : Int

/-- A module a file depends on. -/
structure Dependency where
  module : String
  origin : Origin
  line : Int

/-- The lines of a function and its own complexity. -/
structure FunctionSpan where
  name : String
  startLine : Int
  endLine : Int
  complexity : Int

/-- The lines of a class and the names of the functions that start inside it. -/
structure ClassSpan where
  name : String
  startLine : Int
  endLine : Int
  methods : List String

/-- Size and complexity of a file. -/
structure Complexity where
  totalLines : Int := 0
  codeLines : Int := 0
  commentLines : Int := 0
  cyclomatic : Int := 1
  maintainability : Float := 100.0
  commentRatio : Float := 0.0

/-- A whole-line comment and where it starts. -/
structure Comment where
  content : String
  line : Int

/-- A marked note of work to be done. -/
structure Todo where
  marker : String
  description : String
  line : Int

/-- A detected signal, with either a confidence or a count. -/
structure Signal where
  pattern : String
  confidence : Option Float
  occurrences : Option Int

/-- A route declared in the file. -/
structure Endpoint where
  method : String
  path : String
  line : Int

/-- A database access in the file. -/
structure DatabaseQuery where
  query : String
  line : Int

/-- The signals of one file. -/
structure Findings where
  framework : Option String := none
  design : List Signal := []
  security : List Signal := []
  performance : List Signal := []
  diagnostic : List Signal := []
  endpoints : List Endpoint := []
  queries : List DatabaseQuery := []
  todos : List Todo := []

/-- The outline of one file. -/
structure Outline where
  filePath : String
  language : Language
  lineCount : Int := 0
  sizeBytes : Int := 0
  symbols : List Symbol := []
  imports : List ImportRef := []
  exports : List String := []
  dependencies : List Dependency := []
  functions : List FunctionSpan := []
  classes : List ClassSpan := []
  comments : List Comment := []
  complexity : Complexity := {}
  findings : Findings := {}

/-- Each element once, in the order of first occurrence. -/
def distinct (names : List String) : List String :=
  names.foldl (fun seen name => if seen.contains name then seen else seen ++ [name]) []

/-- The names bound by some imports, each once, in the order of first occurrence. -/
def importedNames (imports : List ImportRef) : List String :=
  distinct (imports.flatMap (·.names))

/-- The design and diagnostic patterns found. -/
def Findings.patternNames (findings : Findings) : List String :=
  distinct ((findings.design ++ findings.diagnostic).map (·.pattern))

/-- The dependencies inside the project. -/
def Outline.localDependencies (outline : Outline) : List Dependency :=
  outline.dependencies.filter (·.origin == .local_)

end CodeAtlas
