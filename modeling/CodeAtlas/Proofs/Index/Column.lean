import CodeAtlas.Index.Query
import CodeAtlas.Proofs.Index.Owner
import CodeAtlas.Proofs.Index.Representation
import CodeAtlas.Proofs.Outline.Record
import CodeAtlas.Proofs.Value.Timestamp

/-!
# What is stored of a file and what is read of it

A row of the table of files holds the record of a file as JSON text, and beside it some of the
fields once more in columns of their own, lists as JSON text and the time in writing. The record
that a query by path answers is read from the one; the summaries of files that are listed or that
use a symbol are read from the others.

## Main results

`FileColumns.record?_columns` and `FileColumns.summary?_columns`: the columns of a row are read as
its record and its summary. `Index.replay_readBack`: after any history and a successful write, both
say of the file what was written.

## Proof strategy

A record is a view, so it is read back field by field (`IndexedFile.readsBack`). A write puts one
row for the file into tables that hang together, and no other row has its key, so every answer about
the file comes from that row (`Settled.tells`).
-/

namespace CodeAtlas

open Decode

/-! ### Records -/

/-- A file whose numbers are finite and whose times are in universal time. -/
structure IndexedFile.Recordable (f : IndexedFile) : Prop where
  complexity : f.complexity.IsFinite
  findings : f.findings.IsFinite
  modifiedAt : ∀ t ∈ f.modifiedAt, t.IsUtc
  indexedAt : f.indexedAt.IsUtc

theorem IndexedFile.readsBack {f : IndexedFile} (recordable : f.Recordable) (now : Timestamp) :
    ReadsBack (decode now) f.view f := by
  have owner := readsBack_text f.owner
  have workspace := readsBack_text f.workspace
  have path := readsBack_text f.path
  have relativePath := readsBack_text f.relativePath
  have name := readsBack_text f.name
  have extension := readsBack_text f.extension
  have language := f.language.readsBack
  have content := readsBack_text f.content
  have contentHash := readsBack_text f.contentHash
  have size := readsBack_int f.size
  have lineCount := readsBack_int f.lineCount
  have symbols : ReadsBack (Decode.list Symbol.decode) (.ofList Symbol.view f.symbols) _ :=
    readsBack_list fun s _ => s.readsBack
  have functions :
      ReadsBack (Decode.list FunctionSpan.decode) (.ofList FunctionSpan.view f.functions) _ :=
    readsBack_list fun s _ => s.readsBack
  have classes : ReadsBack (Decode.list ClassSpan.decode) (.ofList ClassSpan.view f.classes) _ :=
    readsBack_list fun s _ => s.readsBack
  have imports : ReadsBack (Decode.list ImportRef.decode) (.ofList ImportRef.view f.imports) _ :=
    readsBack_list fun r _ => r.readsBack
  have exports := readsBack_texts f.exports
  have dependencies :
      ReadsBack (Decode.list Dependency.decode) (.ofList Dependency.view f.dependencies) _ :=
    readsBack_list fun d _ => d.readsBack
  have complexity := Complexity.readsBack recordable.complexity
  have findings := Findings.readsBack recordable.findings
  have modifiedAt : ReadsBack (optional time) (.ofOption .time f.modifiedAt) f.modifiedAt :=
    readsBack_option (fun t mem => readsBack_time (recordable.modifiedAt t mem)) fun t => nofun
  have indexedAt := readsBack_time recordable.indexedAt
  have generation := readsBack_int f.generation
  refine readsBack_record ["owner_id", "workspace_path", "file_path", "relative_path", "file_name",
    "file_extension", "language", "content", "content_hash", "file_size", "line_count", "symbols",
    "functions", "classes", "imports", "exports", "dependencies", "complexity", "metadata",
    "file_modified_at", "indexed_at", "generation"] rfl (by decide +kernel) ?_
    (fun different => ?_) _
  · simp [owner.storable, workspace.storable, path.storable, relativePath.storable, name.storable,
      extension.storable, language.storable, content.storable, contentHash.storable, size.storable,
      lineCount.storable, symbols.storable, functions.storable, classes.storable, imports.storable,
      exports.storable, dependencies.storable, complexity.storable, findings.storable,
      modifiedAt.storable, indexedAt.storable, generation.storable]
  · rw [required_eq different (by simp) owner, required_eq different (by simp) workspace,
      required_eq different (by simp) path, required_eq different (by simp) relativePath,
      required_eq different (by simp) name, required_eq different (by simp) extension,
      required_eq different (by simp) language, required_eq different (by simp) content,
      required_eq different (by simp) contentHash, withDefault_eq different (by simp) size,
      withDefault_eq different (by simp) lineCount, withDefault_eq different (by simp) symbols,
      withDefault_eq different (by simp) functions, withDefault_eq different (by simp) classes,
      withDefault_eq different (by simp) imports, withDefault_eq different (by simp) exports,
      withDefault_eq different (by simp) dependencies,
      withDefault_eq different (by simp) complexity, withDefault_eq different (by simp) findings,
      withDefault_eq different (by simp) modifiedAt, withDefault_eq different (by simp) indexedAt,
      withDefault_eq different (by simp) generation]
    rfl

/-! ### Columns -/

/-- The columns of a row of files: lists and the record as JSON text, the language by its word, and
the time in writing. -/
structure FileColumns where
  workspace : String
  path : String
  relativePath : String
  language : String
  lineCount : Int
  framework : Option String
  exports : String
  keyFunctions : String
  record : String
  indexedAt : String

/-- A list of texts as a column holds it. -/
def FileColumns.ofTexts (words : List String) : String :=
  String.ofList (Json.stored (View.texts words).exchanged)

/-- What a row looks like in the table. -/
def FileRow.columns (r : FileRow) : FileColumns where
  workspace := r.workspace
  path := r.path
  relativePath := r.relativePath
  language := r.language.id
  lineCount := r.lineCount
  framework := r.framework
  exports := FileColumns.ofTexts r.exports
  keyFunctions := FileColumns.ofTexts r.keyFunctions
  record := String.ofList (Json.stored r.record.view.exchanged)
  indexedAt := r.indexedAt.storedText

namespace FileColumns

/-- The list of texts that a column holds. -/
def texts? (column : String) : Option (List String) :=
  (Json.parse? column).bind fun v => (Decode.list Decode.text v).toOption

/-- The record in a row. -/
def record? (c : FileColumns) (now : Timestamp) : Option (Checked IndexedFile) :=
  (Json.parse? c.record).map (IndexedFile.decode now)

/-- The summary that the other columns of a row make up. -/
def summary? (c : FileColumns) : Option FileSummary := do
  let language ← (Language.decode (.text c.language)).toOption
  let exports ← texts? c.exports
  let keyFunctions ← texts? c.keyFunctions
  let indexedAt ← Timestamp.parse? c.indexedAt
  return ⟨c.path, c.relativePath, c.workspace, language, c.lineCount, exports, keyFunctions,
    c.framework, indexedAt⟩

theorem texts?_ofTexts (words : List String) : texts? (ofTexts words) = some words := by
  obtain ⟨storable, reads⟩ := readsBack_texts words
  rw [texts?, ofTexts, Json.parse?_stored storable, Option.bind_some, reads]
  rfl

/-- The column of the record is read as the record. -/
theorem record?_columns {r : FileRow} (recordable : r.record.Recordable) (now : Timestamp) :
    r.columns.record? now = some (.ok r.record) :=
  (IndexedFile.readsBack recordable now).stored

/-- The other columns are read as the summary. -/
theorem summary?_columns {r : FileRow} (utc : r.indexedAt.IsUtc) :
    r.columns.summary? = some r.summary := by
  have language : Language.decode (.text r.language.id) = .ok r.language :=
    r.language.readsBack.reads
  simp only [summary?, FileRow.columns, language, Checked.toOption, texts?_ofTexts,
    Timestamp.parse?_storedText utc, Option.bind_eq_bind, Option.bind_some]
  rfl

end FileColumns

/-! ### Answers -/

/-- A record is that of a file but for the generation and the time of the write. -/
def IndexedFile.IsCopy (g f : IndexedFile) : Prop :=
  g = { f with generation := g.generation, indexedAt := g.indexedAt }

/-- A summary says of a file what the file says of itself. -/
structure FileSummary.Carries (s : FileSummary) (f : IndexedFile) : Prop where
  path : s.path = f.path
  relativePath : s.relativePath = f.relativePath
  workspace : s.workspace = f.workspace
  language : s.language = f.language
  lineCount : s.lineCount = f.lineCount
  exports : s.exports = f.exports
  /-- The first three functions are named. -/
  keyFunctions : s.keyFunctions = (f.functions.take 3).map (·.name)
  framework : s.framework = f.findings.framework

namespace Index

open Tables

/-- An index that answers with summaries: of the files it lists, of those that export a symbol, and
of those that import one. -/
inductive AnswersSummaries (ix : Index) (owner : String) (rows : List FileSummary) : Prop where
  | listed (workspace : Option String) (answer : ix.list Faults.none owner workspace = .ok rows)
  | exporters (symbol : String) (limit : Int)
      (answer : ix.exporters Faults.none owner symbol limit = .ok rows)
  | importers (symbol : String) (limit : Int)
      (answer : ix.importers Faults.none owner symbol limit = .ok rows)

/-- What an index answers of a file, and what its columns are read as, is what the file says. -/
structure Tells (ix : Index) (f : IndexedFile) : Prop where
  /-- By each of its two paths the record of the file is among the answers. -/
  records (path : String) (named : path = f.path ∨ path = f.relativePath) :
    ∃ records, ix.recordsAt Faults.none f.owner path = .ok records ∧ ∃ g ∈ records, g.IsCopy f
  /-- Its summary is among those of all files, and of the files of its workspace. -/
  listed (workspace : Option String)
    (within : workspace = none ∨ workspace = some "" ∨ workspace = some f.workspace) :
    ∃ rows, ix.list Faults.none f.owner workspace = .ok rows ∧ ∃ s ∈ rows, s.Carries f
  /-- Its summary is among those of the files that export what it exports. -/
  exporters (symbol : String) (exported : symbol ∈ f.exports) {limit : Int} (endless : limit < 0)
    (fits : Action.fits limit = true) :
    ∃ rows, ix.exporters Faults.none f.owner symbol limit = .ok rows ∧ ∃ s ∈ rows, s.Carries f
  /-- Its summary is among those of the files that import what it imports. -/
  importers (symbol : String) (imported : ∃ i ∈ f.imports, symbol ∈ i.names) {limit : Int}
    (endless : limit < 0) (fits : Action.fits limit = true) :
    ∃ rows, ix.importers Faults.none f.owner symbol limit = .ok rows ∧ ∃ s ∈ rows, s.Carries f
  /-- Wherever a summary of the file is answered, it says what the file says. -/
  summaries {rows : List FileSummary} (answer : ix.AnswersSummaries f.owner rows)
    {s : FileSummary} (mem : s ∈ rows) (workspace : s.workspace = f.workspace)
    (path : s.path = f.path) : s.Carries f
  /-- Both come from the columns of one row. -/
  columns : ∃ r, ix.tables.file? f.owner f.workspace f.path = some r ∧
    (∃ g, g.IsCopy f ∧ ∀ now, r.columns.record? now = some (.ok g)) ∧
    ∃ s, s.Carries f ∧ r.columns.summary? = some s

variable {ix : Index} {f : IndexedFile} {r : FileRow}

/-- A row that is a copy of a file carries what the file says. -/
theorem carries_of_agrees (agrees : r.Agrees) (copy : r.record.IsCopy f) : r.summary.Carries f := by
  obtain ⟨-, workspace, path, relativePath, language, -, lineCount, framework, exports,
    keyFunctions, -, -⟩ := agrees
  rw [copy] at workspace path relativePath language lineCount framework exports keyFunctions
  exact ⟨path, relativePath, workspace, language, lineCount, exports, keyFunctions, framework⟩

/-- The list of an owner, when the storage works. -/
theorem list_calm (opened : ix.isOpen = true) (owner : String) (workspace : Option String) :
    ix.list Faults.none owner workspace =
      .ok ((ix.tables.listed owner workspace).map (·.summary)) := by
  simp only [list, read, Faults.none, opened, if_true]
  rfl

theorem mem_symbolFiles {t : Tables} {owner symbol : String} {use : SymbolUse} :
    r ∈ t.symbolFiles owner symbol use ↔
      (r ∈ t.files ∧ r.owner = owner) ∧ ⟨r.id, symbol, use⟩ ∈ t.symbols := by
  rw [Tables.symbolFiles, newestFirst, List.mem_mergeSort, List.mem_filter, mem_filesOf,
    List.contains_iff_mem]

/-- Whatever the limit, a summary of a file that uses a symbol is that of a row. -/
theorem exists_row_of_symbolFiles (opened : ix.isOpen = true) {owner symbol : String}
    {use : SymbolUse} {limit : Int} {rows : List FileSummary}
    (answer : ix.symbolFiles Faults.none owner symbol use limit = .ok rows) {s : FileSummary}
    (mem : s ∈ rows) : ∃ r ∈ ix.tables.files, r.owner = owner ∧ r.summary = s := by
  rw [symbolFiles_calm opened] at answer
  split at answer
  · cases answer
    obtain ⟨r, taken, rfl⟩ := List.mem_map.mp mem
    have user : r ∈ ix.tables.symbolFiles owner symbol use := by
      split at taken
      · exact taken
      · exact List.mem_of_mem_take taken
    obtain ⟨⟨member, own⟩, -⟩ := mem_symbolFiles.mp user
    exact ⟨r, member, own, rfl⟩
  · cases answer

/-- A summary that is answered is that of a row. -/
theorem AnswersSummaries.exists_row (opened : ix.isOpen = true) {owner : String}
    {rows : List FileSummary} (answers : ix.AnswersSummaries owner rows) {s : FileSummary}
    (mem : s ∈ rows) : ∃ r ∈ ix.tables.files, r.owner = owner ∧ r.summary = s := by
  cases answers with
  | listed workspace answer =>
    rw [list_calm opened] at answer
    cases answer
    obtain ⟨r, listed, rfl⟩ := List.mem_map.mp mem
    rw [Tables.listed, List.mem_mergeSort, List.mem_filter, mem_filesOf] at listed
    exact ⟨r, listed.1.1, listed.1.2, rfl⟩
  | exporters symbol limit answer => exact exists_row_of_symbolFiles opened answer mem
  | importers symbol limit answer => exact exists_row_of_symbolFiles opened answer mem

/-- Without a limit the summary of a file that uses a symbol is answered. -/
theorem summary_mem_symbolFiles (opened : ix.isOpen = true) (member : r ∈ ix.tables.files)
    {symbol : String} {use : SymbolUse} (uses : ⟨r.id, symbol, use⟩ ∈ ix.tables.symbols)
    {limit : Int} (endless : limit < 0) (fits : Action.fits limit = true) :
    ∃ rows, ix.symbolFiles Faults.none r.owner symbol use limit = .ok rows ∧ r.summary ∈ rows := by
  rw [symbolFiles_calm opened, if_pos fits]
  simp only [if_pos endless]
  exact ⟨_, rfl, List.mem_map_of_mem (mem_symbolFiles.mpr ⟨⟨member, rfl⟩, uses⟩)⟩

/-- An index whose tables have a row for a file tells of the file. -/
theorem Settled.tells (settled : ix.Settled) (member : r ∈ ix.tables.files)
    (key : r.key = (f.owner, f.workspace, f.path)) (agrees : r.Agrees)
    (copy : r.record.IsCopy f) (recordable : r.record.Recordable) : ix.Tells f := by
  have carries := carries_of_agrees agrees copy
  obtain ⟨owner, workspace, path⟩ : r.owner = f.owner ∧ r.workspace = f.workspace ∧
      r.path = f.path := by simpa [FileRow.key] using key
  have relativePath : r.relativePath = f.relativePath := carries.relativePath
  have lists := settled.sound.lists member
  have names : r.record.exports = f.exports ∧ r.record.imports = f.imports := by
    rw [copy]
    exact ⟨rfl, rfl⟩
  have uses {symbol : String} {use : SymbolUse}
      (counted : ix.tables.symbols.count ⟨r.id, symbol, use⟩ = 1) :
      ⟨r.id, symbol, use⟩ ∈ ix.tables.symbols :=
    List.count_pos_iff.mp (by rw [counted]; exact Nat.one_pos)
  constructor
  case records =>
    intro path' named
    refine ⟨_, recordsAt_calm settled.opened f.owner path', r.record, ?_, copy⟩
    refine List.mem_map_of_mem ?_
    rw [namedFiles, newestFirst, List.mem_mergeSort, List.mem_filter, mem_filesOf]
    refine ⟨⟨member, owner⟩, ?_⟩
    rw [FileRow.isNamed, path, relativePath, Bool.or_eq_true, beq_iff_eq, beq_iff_eq]
    exact named.imp Eq.symm Eq.symm
  case listed =>
    intro workspace' within
    refine ⟨_, list_calm settled.opened f.owner workspace', r.summary, ?_, carries⟩
    refine List.mem_map_of_mem ?_
    rw [Tables.listed, List.mem_mergeSort, List.mem_filter, mem_filesOf]
    refine ⟨⟨member, owner⟩, ?_⟩
    obtain rfl | rfl | rfl := within <;> simp [restricts, workspace]
  case exporters =>
    intro symbol exported limit endless fits
    have counted : ix.tables.symbols.count ⟨r.id, symbol, .exported⟩ = 1 := by
      rw [lists.exported, names.1, if_pos exported]
    obtain ⟨rows, answer, mem⟩ :=
      summary_mem_symbolFiles settled.opened member (uses counted) endless fits
    exact ⟨rows, owner ▸ answer, r.summary, mem, carries⟩
  case importers =>
    intro symbol imported limit endless fits
    have counted : ix.tables.symbols.count ⟨r.id, symbol, .imported⟩ = 1 := by
      rw [lists.imported, names.2, if_pos imported]
    obtain ⟨rows, answer, mem⟩ :=
      summary_mem_symbolFiles settled.opened member (uses counted) endless fits
    exact ⟨rows, owner ▸ answer, r.summary, mem, carries⟩
  case summaries =>
    intro rows answer s mem workspace' path'
    obtain ⟨r', member', owner', rfl⟩ := answer.exists_row settled.opened mem
    have same : r' = r := settled.sound.eq_of_key member' member
      (by rw [key, FileRow.key, owner', show r'.workspace = _ from workspace',
        show r'.path = _ from path'])
    rwa [same]
  case columns =>
    refine ⟨r, settled.sound.file?_iff.mpr ⟨member, key⟩, ⟨r.record, copy, fun now =>
      FileColumns.record?_columns recordable now⟩, r.summary, carries,
      FileColumns.summary?_columns ?_⟩
    rw [agrees.indexedAt]
    exact recordable.indexedAt

/-- What is stored is what is read back. A file whose numbers are finite and whose times are in
universal time is read from its exchanged value. After any history, a write of it between the years
1 and 9999 that goes through and does not leave it unchanged makes the index tell of it. -/
theorem replay_readBack {f : IndexedFile} (recordable : f.Recordable) :
    (∀ now, IndexedFile.decode now f.view.exchanged = .ok f) ∧
    ∀ (clock : Int) (calls : List IndexCall) {time : Int},
      -62135596800000000 ≤ time → time < 253402300800000000 →
      ∀ (faults : Faults) (chunks : List IndexedChunk) (force : Bool),
      let after := { (replay clock calls).2 with clock := time }.upsert faults f chunks force
      ∀ {outcome : WriteOutcome}, after.1 = .ok outcome → outcome ≠ .unchanged →
        after.2.Tells f := by
  refine ⟨fun now => (IndexedFile.readsBack recordable now).reads, ?_⟩
  intro clock calls time first last faults chunks force after outcome done changed
  let ix : Index := { (replay clock calls).2 with clock := time }
  have before : ix.Settled := (replay_settled clock calls).later time
  obtain ⟨settled, tables⟩ := upsert_written before done changed
  -- The row that was put into the tables is the one for the file.
  have member : ix.tables.rowFor f ix.now ∈ after.2.tables.files := by
    rw [tables]
    exact (mem_put before.sound accepts_rowFor _).mpr (.inr rfl)
  have utc : ix.now.IsUtc := Timestamp.isUtc_ofMicros first last
  have record : (ix.tables.rowFor f ix.now).record =
      { f with generation := (ix.tables.rowFor f ix.now).generation, indexedAt := ix.now } :=
    rowFor_record
  have agrees : (ix.tables.rowFor f ix.now).Agrees :=
    settled.sound.agrees member (by rw [record]) (by rw [record, rowFor_indexedAt])
  refine settled.tells member rowFor_key agrees ?_ ?_
  · rw [IndexedFile.IsCopy, record]
  · rw [record]
    exact ⟨recordable.complexity, recordable.findings, recordable.modifiedAt, utc⟩

/-- A file that is known by another content is written again, with a symbol of each sort, a name
beyond the units of its text and a confidence between two decimals. -/
theorem replay_readBack_updated :
    let f : IndexedFile := {
      owner := "o", workspace := "/w", path := "/w/a.py", relativePath := "a.py", name := "a.py"
      extension := "py", language := .python, content := "def 𝔣():\n\treturn \x22\\\x22\n"
      contentHash := "1", size := 27, lineCount := 2, symbols := [⟨"𝔣", .function, 1⟩]
      functions := [⟨"a", 1, 2, 1⟩, ⟨"b", 3, 4, 1⟩, ⟨"c", 5, 6, 1⟩, ⟨"d", 7, 8, 1⟩]
      classes := [⟨"C", 9, 10, ["m"]⟩], imports := [⟨"os", ["path"], 1⟩], exports := ["𝔣"]
      dependencies := [⟨"os", .external, 1⟩], complexity := { maintainability := 99.99 }
      findings := { framework := some "flask", design := [⟨"singleton", some 0.1, none⟩] }
      modifiedAt := some (Timestamp.ofMicros 1), indexedAt := Timestamp.ofMicros 0 }
    let before : IndexCall :=
      ⟨.file { f with contentHash := "0", functions := [] } [] false, Faults.none,
        Faults.none_undoable, 0⟩
    let ix : Index := { (replay 0 [before]).2 with clock := 1700000000000000 }
    let after := ix.upsert Faults.none f [] false
    after.1 = .ok .updated ∧ ∃ rows, after.2.exporters Faults.none "o" "𝔣" (-1) = .ok rows ∧
      ∃ s ∈ rows, s.keyFunctions = ["a", "b", "c"] := by
  intro f before ix after
  have recordable : f.Recordable :=
    { complexity := ⟨by decide, by decide⟩
      findings := ⟨List.forall_mem_singleton.mpr (by rintro _ ⟨⟩; decide), nofun, nofun, nofun⟩
      modifiedAt := by
        rintro _ ⟨⟩
        exact Timestamp.isUtc_ofMicros (by decide) (by decide)
      indexedAt := Timestamp.isUtc_ofMicros (by decide) (by decide) }
  have done : after.1 = .ok .updated := rfl
  have tells : after.2.Tells f := (replay_readBack recordable).2 0 [before] (by decide) (by decide)
    Faults.none [] false done (by decide)
  refine ⟨done, ?_⟩
  obtain ⟨rows, answer, s, mem, carries⟩ :=
    tells.exporters "𝔣" (by decide) (show (-1 : Int) < 0 by decide) (by decide)
  exact ⟨rows, answer, s, mem, carries.keyFunctions⟩

end Index

end CodeAtlas
