import CodeAtlas.Failure
import CodeAtlas.Index.Table

/-!
Transactions on the tables of an index. A transaction is a list of statements between a begin and a
commit; when one of them fails, the tables are put back as they were at the begin. Every statement
may fail: what fails, and why, is an input of each call.
-/

namespace CodeAtlas

/-- The statements that work on the tables. -/
inductive Statement where
  | beginWrite
  | commit
  | rollback
  | findFile
  | updateFile
  | insertFile
  | insertChunks
  | deleteOldChunks
  | deleteSymbols
  | insertSymbols
  | selectWorkspaceFiles
  | deleteFiles
  | saveWorkspace
  | selectHash
  | selectRecords
  | selectSimilar (filter : SimilarFilter)
  | selectSymbolFiles
  | selectFiles (inWorkspace : Bool)
  | selectTotals
  | selectLanguages
  | selectFrameworks
  | selectWorkspaces
  | countChunks (ofFile : Bool)

namespace Statement

/-- The columns of a summary. -/
def summaryColumns : String :=
  "f.file_path, f.relative_path, f.workspace_path, f.language, f.line_count, " ++
   "f.exports, f.key_functions, f.framework, f.indexed_at"

/-- The chunks that count, each with its file. -/
def activeChunks : String :=
  "FROM code_chunks c JOIN indexed_files f ON c.file_id = f.id AND c.generation = f.generation " ++
   "WHERE f.owner_id = ?"

/-- The conditions of a filter that restrict. -/
def conditions (f : SimilarFilter) : List String :=
  let given (text : Option String) := (text.getD "") != ""
  (if given f.workspace then [" AND f.workspace_path = ?"] else []) ++
    (if f.language.isSome then [" AND f.language = ?"] else []) ++
    (if f.kind.isSome then [" AND c.chunk_type = ?"] else []) ++
    (if given f.excludedFile then [" AND f.file_path != ? AND f.relative_path != ?"] else []) ++
    (if given f.model then [" AND c.embedding_model = ?"] else [])

/-- The text of a statement. -/
def text : Statement → String
  | beginWrite => "BEGIN IMMEDIATE"
  | commit => "COMMIT"
  | rollback => "ROLLBACK"
  | findFile => "SELECT id, content_hash, generation FROM indexed_files " ++
      "WHERE owner_id = ? AND workspace_path = ? AND file_path = ?"
  | updateFile => "UPDATE indexed_files SET relative_path = ?, language = ?, content_hash = ?, " ++
      "line_count = ?, framework = ?, exports = ?, key_functions = ?, record = ?, " ++
      "indexed_at = ?, " ++
      "generation = ? WHERE id = ?"
  | insertFile => "INSERT INTO indexed_files (relative_path, language, content_hash, " ++
      "line_count, " ++
      "framework, exports, key_functions, record, indexed_at, generation, owner_id, " ++
      "workspace_path, " ++
      "file_path) VALUES (?, ?, ?, ?, ?, ?, ?, ?, ?, ?, ?, ?, ?)"
  | insertChunks => "INSERT INTO code_chunks (file_id, generation, chunk_type, name, " ++
      "start_line, " ++
      "end_line, content, content_hash, embedding, embedding_source, embedding_model, metadata) " ++
      "VALUES (?, ?, ?, ?, ?, ?, ?, ?, ?, ?, ?, ?)"
  | deleteOldChunks => "DELETE FROM code_chunks WHERE file_id = ? AND generation != ?"
  | deleteSymbols => "DELETE FROM file_symbols WHERE file_id = ?"
  | insertSymbols => "INSERT INTO file_symbols (file_id, symbol, kind) VALUES (?, ?, ?)"
  | selectWorkspaceFiles =>
      "SELECT id, file_path FROM indexed_files WHERE owner_id = ? AND workspace_path = ?"
  | deleteFiles => "DELETE FROM indexed_files WHERE id = ?"
  | saveWorkspace => "INSERT INTO workspaces (owner_id, workspace_path, structure, " ++
      "last_indexed_at) " ++
      "VALUES (?, ?, ?, ?) ON CONFLICT(owner_id, workspace_path) DO UPDATE SET " ++
      "structure = excluded.structure, last_indexed_at = excluded.last_indexed_at"
  | selectHash => "SELECT content_hash FROM indexed_files " ++
      "WHERE owner_id = ? AND workspace_path = ? AND file_path = ?"
  | selectRecords => "SELECT record FROM indexed_files " ++
      "WHERE owner_id = ? AND (file_path = ? OR relative_path = ?) ORDER BY indexed_at DESC"
  | selectSimilar filter =>
      "SELECT c.chunk_type, c.name, c.start_line, c.end_line, c.content, c.embedding, " ++
      "c.embedding_source, c.embedding_model, c.metadata, f.file_path, f.relative_path, " ++
      "f.workspace_path, f.language, f.indexed_at " ++ activeChunks ++
      String.join (conditions filter)
  | selectSymbolFiles => "SELECT DISTINCT " ++ summaryColumns ++
      " FROM indexed_files f JOIN file_symbols s ON s.file_id = f.id " ++
      "WHERE f.owner_id = ? AND s.symbol = ? AND s.kind = ? ORDER BY f.indexed_at DESC LIMIT ?"
  | selectFiles inWorkspace => "SELECT " ++ summaryColumns ++
      " FROM indexed_files f WHERE f.owner_id = ?" ++
      (if inWorkspace then " AND f.workspace_path = ?" else "") ++ " ORDER BY f.relative_path"
  | selectTotals => "SELECT COUNT(*) AS files, COALESCE(SUM(line_count), 0) AS lines " ++
      "FROM indexed_files WHERE owner_id = ?"
  | selectLanguages => "SELECT language, COUNT(*) AS files, AVG(line_count) AS avg_lines " ++
      "FROM indexed_files WHERE owner_id = ? GROUP BY language ORDER BY files DESC, language"
  | selectFrameworks => "SELECT framework, COUNT(*) AS files FROM indexed_files " ++
      "WHERE owner_id = ? AND framework IS NOT NULL GROUP BY framework " ++
      "ORDER BY files DESC, framework LIMIT 3"
  | selectWorkspaces => "SELECT workspace_path, structure, last_indexed_at FROM workspaces " ++
      "WHERE owner_id = ? ORDER BY workspace_path"
  | countChunks ofFile => "SELECT COUNT(*) AS n " ++ activeChunks ++
      (if ofFile then " AND (f.file_path = ? OR f.relative_path = ?)" else "")

end Statement

/-- Why the statement at a position of a call fails, if it does. -/
abbrev Faults := Nat → Statement → Option String

/-- Nothing fails. -/
def Faults.none : Faults :=
  fun _ _ => Option.none

/-- Why a transaction is given up. -/
inductive Refusal where
  /-- The storage failed. -/
  | storage (reason : String)
  /-- A whole number does not fit in 64 bits. -/
  | oversized

/-- One action of a transaction. -/
inductive Action where
  /-- A statement with its effect on the tables. -/
  | run (statement : Statement) (effect : Tables → Except Refusal Tables)
  /-- Takes the time of the write. -/
  | stamp

namespace Action

/-- A statement that only looks. -/
def look (statement : Statement) : Action :=
  .run statement .ok

/-- A statement that always succeeds when the storage does. -/
def apply (statement : Statement) (effect : Tables → Tables) : Action :=
  .run statement fun t => .ok (effect t)

/-- A whole number that a table can hold. -/
def fits (n : Int) : Bool :=
  -9223372036854775808 ≤ n && n ≤ 9223372036854775807

/-- A statement with whole numbers among its values. -/
def bind (statement : Statement) (numbers : List Int) (effect : Tables → Tables) : Action :=
  .run statement fun t => if numbers.all fits then .ok (effect t) else .error .oversized

end Action

/-- Tables on which the actions of a transaction work. -/
structure Progress where
  tables : Tables
  /-- The time of the write was taken. -/
  stamped : Bool := false

/-- Runs actions in order until one fails; the first has the given position. -/
def Progress.run (faults : Faults) (position : Nat) :
    List Action → Progress → Option Refusal × Progress
  | [], p => (none, p)
  | .stamp :: rest, p => Progress.run faults position rest { p with stamped := true }
  | .run statement effect :: rest, p =>
    match faults position statement with
    | some reason => (some (.storage reason), p)
    | none =>
      match effect p.tables with
      | .error refusal => (some refusal, p)
      | .ok tables => Progress.run faults (position + 1) rest { p with tables }

/-- An index: its tables and the times of its writes. -/
structure Index where
  tables : Tables := {}
  /-- The tables at the begin of a transaction that was neither committed nor undone. -/
  begun : Option Tables := none
  /-- The time that the next write takes, in microseconds since 1970. -/
  clock : Int
  isOpen : Bool := true

namespace Index

/-- Writes are a second apart. -/
def tick : Int := Timestamp.microsPerSecond

/-- The time that the next write takes. -/
def now (ix : Index) : Timestamp :=
  Timestamp.ofMicros ix.clock

/-- What an operation on a closed index is told. -/
def closedReason : String :=
  "Cannot operate on a closed database."

/-- A write that the storage refused. -/
def writeFailure (operation reason : String) : Failure :=
  ⟨.store, s!"{operation} failed: {reason}", [("operation", .text operation)]⟩

/-- A query that the storage refused. -/
def readFailure (reason : String) : Failure :=
  ⟨.store, s!"Index query failed: {reason}", [("sql", .text "SELECT")]⟩

/-- A number that no table can hold. -/
def oversized : Failure :=
  .plain (.unforeseen "OverflowError") "Python int too large to convert to SQLite INTEGER"

/-- The failure of a write that was given up. -/
def failureOf (operation : String) : Refusal → Failure
  | .storage reason => writeFailure operation reason
  | .oversized => oversized

/-- Gives a write up: the tables are put back as they were at the begin. When even that fails, the
transaction stays open. -/
def giveUp (faults : Faults) (position : Nat) (operation : String) (refusal : Refusal)
    (ix : Index) : Failure × Index :=
  match ix.begun with
  | none => (failureOf operation refusal, ix)
  | some tables =>
    match faults position .rollback with
    | some reason => (.plain (.unforeseen "OperationalError") reason, ix)
    | none => (failureOf operation refusal, { ix with tables, begun := none })

/-- Runs a write. `plan` says, for the tables at the begin and the time of the write, what is to be
done and what the answer will be. -/
def write (faults : Faults) (operation : String)
    (plan : Tables → Timestamp → List Action × α) (ix : Index) : Except Failure α × Index :=
  if !ix.isOpen then (.error (.plain (.unforeseen "ProgrammingError") closedReason), ix)
  else
    let refused (position : Nat) (refusal : Refusal) (ix : Index) : Except Failure α × Index :=
      let (failure, ix) := ix.giveUp faults position operation refusal
      (.error failure, ix)
    match faults 0 .beginWrite with
    | some reason => refused 1 (.storage reason) ix
    | none =>
      if ix.begun.isSome then
        refused 1 (.storage "cannot start a transaction within a transaction") ix
      else
        let (actions, answer) := plan ix.tables ix.now
        let actions := actions ++ [.look .commit]
        let (refusal, p) := Progress.run faults 1 actions { tables := ix.tables }
        let clock := if p.stamped then ix.clock + tick else ix.clock
        match refusal with
        | none => (.ok answer, { ix with tables := p.tables, clock })
        | some refusal =>
          refused (actions.length + 1) refusal
            { ix with tables := p.tables, begun := some ix.tables, clock }

/-- The tables that a query sees. -/
def read (faults : Faults) (position : Nat) (statement : Statement) (ix : Index) :
    Except Failure Tables :=
  match faults position statement with
  | some reason => .error (readFailure reason)
  | none => if ix.isOpen then .ok ix.tables else .error (readFailure closedReason)

end Index

end CodeAtlas
