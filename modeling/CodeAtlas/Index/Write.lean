import CodeAtlas.Index.Transaction

/-!
The writes of an index: a file with its chunks, the removal of files that are gone, and the
structure of a workspace. Each is one transaction.
-/

namespace CodeAtlas.Index

/-- What follows the row of a file: its chunks replace those of earlier generations, its symbols
replace the former ones. -/
def partActions (id generation : Nat) (file : IndexedFile) (chunks : List IndexedChunk) :
    List Action :=
  .look .insertChunks ::
    chunks.map (fun c =>
      .bind .insertChunks [c.startLine, c.endLine] (·.addChunk ⟨id, generation, c⟩)) ++
  [.apply .deleteOldChunks (·.dropOtherGenerations id generation),
    .apply .deleteSymbols (·.dropSymbols id), .look .insertSymbols] ++
  (SymbolRow.ofRecord id file).map fun row => .apply .insertSymbols (·.addSymbol row)

/-- What a write of a file does. A present row of the same owner, workspace and path is replaced by
one of the next generation, unless its content is the same and nothing forces the write. -/
def fileActions (file : IndexedFile) (chunks : List IndexedChunk) (force : Bool) (t : Tables)
    (now : Timestamp) : List Action × WriteOutcome :=
  match t.file? file.owner file.workspace file.path with
  | some present =>
    if present.contentHash == file.contentHash && !force then ([.look .findFile], .unchanged)
    else
      let row := FileRow.ofRecord present.id file (present.generation + 1) now
      ([.look .findFile, .stamp, .bind .updateFile [row.lineCount] (·.replaceFile row)] ++
        partActions row.id row.generation file chunks, .updated)
  | none =>
    let row := FileRow.ofRecord t.nextId file 1 now
    ([.look .findFile, .stamp, .bind .insertFile [row.lineCount] (·.addFile row)] ++
      partActions row.id row.generation file chunks, .created)

/-- Writes a file together with all its chunks. -/
def upsert (faults : Faults) (file : IndexedFile) (chunks : List IndexedChunk) (force : Bool)
    (ix : Index) : Except Failure WriteOutcome × Index :=
  ix.write faults "upsert" (fileActions file chunks force)

/-- The files of a workspace that are not among the live paths. -/
def doomed (owner workspace : String) (live : List String) (t : Tables) : List FileRow :=
  t.files.filter fun r => r.owner == owner && r.workspace == workspace && !live.contains r.path

/-- Removes the files of a workspace that are not among the live paths; says how many. -/
def sweep (faults : Faults) (owner workspace : String) (live : List String) (ix : Index) :
    Except Failure Nat × Index :=
  ix.write faults "sweep" fun t _ =>
    let rows := doomed owner workspace live t
    ([.look .selectWorkspaceFiles, .look .deleteFiles] ++
      rows.map (fun r => .apply .deleteFiles (·.deleteFile r.id)), rows.length)

/-- Saves the structure of a workspace. -/
def saveStructure (faults : Faults) (owner workspace : String) (structure_ : ProjectStructure)
    (ix : Index) : Except Failure Unit × Index :=
  ix.write faults "save_workspace_structure" fun _ now =>
    ([.stamp, .apply .saveWorkspace (·.putWorkspace ⟨owner, workspace, structure_, now⟩)], ())

end CodeAtlas.Index
