import CodeAtlas.Index.Record

/-!
The four tables of an index: files, their chunks, their symbols, and workspaces. A chunk belongs to
a generation of its file, and only chunks of the file's present generation count. Rows stand in the
order in which they were first written.
-/

namespace CodeAtlas

/-- A row per owner, workspace and path. -/
structure FileRow where
  id : Nat
  owner : String
  workspace : String
  path : String
  relativePath : String
  language : Language
  contentHash : String
  lineCount : Int
  framework : Option String
  exports : List String
  keyFunctions : List String
  record : IndexedFile
  indexedAt : Timestamp
  generation : Nat

/-- A chunk of a generation of a file. -/
structure ChunkRow where
  file : Nat
  generation : Nat
  chunk : IndexedChunk

/-- How a file uses a symbol. -/
inductive SymbolUse where
  | exported
  | imported
  deriving DecidableEq

/-- A symbol that a file exports or imports. -/
structure SymbolRow where
  file : Nat
  symbol : String
  use : SymbolUse
  deriving DecidableEq

/-- The structure saved for a workspace. -/
structure WorkspaceRow where
  owner : String
  path : String
  structure_ : ProjectStructure
  lastIndexedAt : Timestamp

/-- The tables of an index. -/
structure Tables where
  files : List FileRow := []
  chunks : List ChunkRow := []
  symbols : List SymbolRow := []
  workspaces : List WorkspaceRow := []
  /-- Above the identity of every row that there is or was. -/
  nextId : Nat := 1

namespace FileRow

/-- The row of a record in a generation, written at a time. -/
def ofRecord (id : Nat) (f : IndexedFile) (generation : Nat) (now : Timestamp) : FileRow :=
  { id
    owner := f.owner
    workspace := f.workspace
    path := f.path
    relativePath := f.relativePath
    language := f.language
    contentHash := f.contentHash
    lineCount := f.lineCount
    framework := f.findings.framework
    exports := f.exports
    keyFunctions := f.keyFunctions IndexedFile.keyFunctionLimit
    record := { f with generation, indexedAt := now }
    indexedAt := now
    generation }

/-- The row of that owner, workspace and path. -/
def isAt (r : FileRow) (owner workspace path : String) : Bool :=
  r.owner == owner && r.workspace == workspace && r.path == path

/-- The absolute or the relative path is the given one. -/
def isNamed (r : FileRow) (path : String) : Bool :=
  r.path == path || r.relativePath == path

/-- The summary of the file. -/
def summary (r : FileRow) : FileSummary :=
  ⟨r.path, r.relativePath, r.workspace, r.language, r.lineCount, r.exports, r.keyFunctions,
    r.framework, r.indexedAt⟩

end FileRow

/-- The symbol rows of a record: its exports, then its imported names, each once. -/
def SymbolRow.ofRecord (file : Nat) (f : IndexedFile) : List SymbolRow :=
  (distinct f.exports).map (⟨file, ·, .exported⟩) ++ f.importedNames.map (⟨file, ·, .imported⟩)

namespace Tables

/-- The file of that owner, workspace and path. -/
def file? (t : Tables) (owner workspace path : String) : Option FileRow :=
  t.files.find? fun r => r.isAt owner workspace path

/-- The files of an owner. -/
def filesOf (t : Tables) (owner : String) : List FileRow :=
  t.files.filter fun r => r.owner == owner

/-- Adds a file. -/
def addFile (t : Tables) (row : FileRow) : Tables :=
  { t with files := t.files ++ [row], nextId := row.id + 1 }

/-- Puts a row in the place of the one with its identity. -/
def replaceFile (t : Tables) (row : FileRow) : Tables :=
  { t with files := t.files.map fun r => if r.id == row.id then row else r }

/-- Drops a file with its chunks and symbols. -/
def deleteFile (t : Tables) (id : Nat) : Tables :=
  { t with
    files := t.files.filter fun r => r.id != id
    chunks := t.chunks.filter fun c => c.file != id
    symbols := t.symbols.filter fun s => s.file != id }

/-- Adds a chunk. -/
def addChunk (t : Tables) (row : ChunkRow) : Tables :=
  { t with chunks := t.chunks ++ [row] }

/-- Drops the chunks of a file that are not of the given generation. -/
def dropOtherGenerations (t : Tables) (id generation : Nat) : Tables :=
  { t with chunks := t.chunks.filter fun c => c.file != id || c.generation == generation }

/-- Adds a symbol. -/
def addSymbol (t : Tables) (row : SymbolRow) : Tables :=
  { t with symbols := t.symbols ++ [row] }

/-- Drops the symbols of a file. -/
def dropSymbols (t : Tables) (id : Nat) : Tables :=
  { t with symbols := t.symbols.filter fun s => s.file != id }

/-- Saves the structure of a workspace; a present row keeps its place. -/
def putWorkspace (t : Tables) (row : WorkspaceRow) : Tables :=
  let same (w : WorkspaceRow) := w.owner == row.owner && w.path == row.path
  if t.workspaces.any same then
    { t with workspaces := t.workspaces.map fun w => if same w then row else w }
  else { t with workspaces := t.workspaces ++ [row] }

/-- The chunks that count, each with its file, in the order of the chunks. -/
def activeChunks (t : Tables) : List (FileRow × ChunkRow) :=
  t.chunks.filterMap fun c =>
    (t.files.find? fun r => r.id == c.file && r.generation == c.generation).map (·, c)

end Tables

end CodeAtlas
