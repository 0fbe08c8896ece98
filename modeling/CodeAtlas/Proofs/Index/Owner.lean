import CodeAtlas.Links.Resolve
import CodeAtlas.Proofs.Index.Calls

/-!
# What an owner sees

The answers of an index to an owner depend on the files of the owner and on their symbols. A write
for one owner leaves these alone for every other.

The identities of rows depend on all that was ever written, for whichever owner. No answer of an
index depends on them: what an owner is told comes from the rows of the owner apart from their
identities.

## Main results

`Tables.SameFor` says that two tables are the same for an owner; `sameFor_put` and `sameFor_drop`
give it for the writes, `Index.follows_of_sameFor` takes it to the answers.
`Tables.AgreeFor` says that an owner has the same in two tables. `Index.recordsAt_agree`,
`Index.symbolFiles_agree` and `Index.statistics_agree`: then the owner gets the same answers.
`Index.saveStructure_agree`: a structure saved for an owner leaves every other owner the same.
-/

namespace CodeAtlas

/-! ## Tables that are the same for an owner -/

namespace Tables

/-- An owner has the same files with the same symbols in both tables. -/
structure SameFor (owner : String) (t t' : Tables) : Prop where
  files : t'.filesOf owner = t.filesOf owner
  symbols : ∀ r ∈ t.filesOf owner, t'.symbolsOf r.id = t.symbolsOf r.id

variable {t t' : Tables} {owner : String}

theorem SameFor.of_eq (same : t' = t) : SameFor owner t t' :=
  ⟨by rw [same], fun _ _ => by rw [same]⟩

theorem mem_filesOf {r : FileRow} : r ∈ t.filesOf owner ↔ r ∈ t.files ∧ r.owner = owner := by
  simp [filesOf]

/-- A symbol of a file is found among the symbols of the file. -/
private theorem contains_symbolsOf (t : Tables) (id : Nat) (symbol : String) (use : SymbolUse) :
    t.symbols.contains ⟨id, symbol, use⟩ = (t.symbolsOf id).contains ⟨id, symbol, use⟩ := by
  simp [symbolsOf]

theorem SameFor.namedFiles (same : SameFor owner t t') (path : String) :
    t'.namedFiles owner path = t.namedFiles owner path := by
  rw [Tables.namedFiles, Tables.namedFiles, same.files]

theorem SameFor.symbolFiles (same : SameFor owner t t') (symbol : String) (use : SymbolUse) :
    t'.symbolFiles owner symbol use = t.symbolFiles owner symbol use := by
  rw [Tables.symbolFiles, Tables.symbolFiles, same.files]
  refine congrArg newestFirst (List.filter_congr fun r member => ?_)
  rw [contains_symbolsOf, contains_symbolsOf, same.symbols r member]

/-- A file written for an owner changes nothing for another. -/
theorem sameFor_put (sound : t.Sound) {row : FileRow} {chunks : List IndexedChunk}
    (accepts : t.Accepts row) (other : row.owner ≠ owner) : SameFor owner t (t.put row chunks) where
  files := filter_put (p := fun key => key.1 == owner) sound accepts (by simpa [FileRow.key])
  symbols r member := by
    obtain ⟨member, own⟩ := mem_filesOf.mp member
    -- The rows of the owner have other keys, hence other identities.
    have apart : r.id ≠ row.id := fun same => by
      have atKey := (accepts.id_iff_key sound member).mp same
      exact other ((congrArg Prod.fst atKey).symm.trans own)
    rw [symbolsOf_put, if_neg apart]

/-- Removals among the files of an owner change nothing for another. -/
theorem sameFor_drop {ids : List Nat} (apart : ∀ r ∈ t.files, r.id ∈ ids → r.owner ≠ owner) :
    SameFor owner t (t.drop ids) where
  files := by
    rw [filesOf, filesOf, drop, List.filter_filter]
    refine List.filter_congr fun r member => ?_
    by_cases own : r.owner = owner
    · have kept : r.id ∉ ids := fun gone => apart r member gone own
      simp [kept]
    · simp [own]
  symbols r member := by
    obtain ⟨member, own⟩ := mem_filesOf.mp member
    rw [symbolsOf_drop, if_neg fun gone => apart r member gone own]

/-- The structures of workspaces play no part. -/
theorem sameFor_workspaces (workspaces : List WorkspaceRow) :
    SameFor owner t { t with workspaces } :=
  ⟨rfl, fun _ _ => rfl⟩

end Tables

/-- Whatever `s` answers to an owner, `s'` answers too. -/
structure LinkSource.Follows (owner : String) (s s' : LinkSource) : Prop where
  records {path : String} {found : List IndexedFile}
    (answer : s.recordsAt owner path = .ok found) : s'.recordsAt owner path = .ok found
  summaries {symbol : String} {use : SymbolUse} {limit : Int} {found : List FileSummary}
    (answer : s.symbolFiles owner symbol use limit = .ok found) :
    s'.symbolFiles owner symbol use limit = .ok found

namespace LinkSource.Follows

variable {owner : String} {s s' s'' : LinkSource}

theorem refl (s : LinkSource) : Follows owner s s :=
  ⟨id, id⟩

/-- Links that were resolved are resolved in the same way. -/
theorem linkAll (follows : Follows owner s s') {limit : Nat} {ownPath : String} {use : SymbolUse}
    {direction : LinkDirection} {symbols : List String} {entries related : List RelatedFile}
    (answer : Links.linkAll s limit owner ownPath use direction symbols entries = .ok related) :
    Links.linkAll s' limit owner ownPath use direction symbols entries = .ok related := by
  -- The symbols are asked for one by one, and a failure of any ends it.
  induction symbols generalizing entries with
  | nil => exact answer
  | cons symbol rest ih =>
    simp only [Links.linkAll] at answer ⊢
    cases found : s.symbolFiles owner symbol use ((limit : Int) + 1) with
    | error f =>
      rw [found] at answer
      cases answer
    | ok summaries =>
      rw [found] at answer
      rw [follows.summaries found]
      exact ih answer

theorem resolve (follows : Follows owner s s') {limit : Nat} {f : IndexedFile}
    {related : List RelatedFile} (answer : Links.resolve s limit owner f = .ok related) :
    Links.resolve s' limit owner f = .ok related := by
  simp only [Links.resolve] at answer ⊢
  cases importing : Links.linkAll s limit owner f.path .exported .importsFrom f.importedNames []
    with
  | error f' =>
    rw [importing] at answer
    cases answer
  | ok entries =>
    rw [importing] at answer
    rw [follows.linkAll importing]
    exact follows.linkAll answer

end LinkSource.Follows

namespace Index

/-- The records of a path, when the storage works. -/
theorem recordsAt_calm {ix : Index} (opened : ix.isOpen = true) (owner path : String) :
    ix.recordsAt Faults.none owner path =
      .ok ((ix.tables.namedFiles owner path).map (·.record)) := by
  simp only [recordsAt, read, Faults.none, opened, if_true]
  rfl

/-- When one file alone has a path, its record is the answer. -/
theorem recordsAt_only {ix : Index} (opened : ix.isOpen = true) {owner path : String} {r : FileRow}
    (only : (ix.tables.filesOf owner).filter (·.isNamed path) = [r]) :
    ix.recordsAt Faults.none owner path = .ok [r.record] := by
  rw [recordsAt_calm opened, Tables.namedFiles, only, Tables.newestFirst, List.mergeSort_singleton,
    List.map_singleton]

/-- The files that use a symbol, when the storage works. -/
theorem symbolFiles_calm {ix : Index} (opened : ix.isOpen = true) (owner symbol : String)
    (use : SymbolUse) (limit : Int) : ix.symbolFiles Faults.none owner symbol use limit =
      if Action.fits limit then
        let rows := ix.tables.symbolFiles owner symbol use
        .ok ((if limit < 0 then rows else rows.take limit.toNat).map (·.summary))
      else .error oversized := by
  simp only [symbolFiles, read, Faults.none, opened, if_true]
  cases Action.fits limit <;> rfl

/-- What an index answers to an owner when the storage works depends on what the owner has in the
tables. -/
theorem follows_of_sameFor {ix ix' : Index} {owner : String} (opened : ix.isOpen = true)
    (opened' : ix'.isOpen = true) (same : Tables.SameFor owner ix.tables ix'.tables) :
    LinkSource.Follows owner (ix.linkSource Faults.none) (ix'.linkSource Faults.none) where
  records answer := by
    simp only [linkSource, recordsAt_calm opened, recordsAt_calm opened'] at answer ⊢
    rwa [same.namedFiles]
  summaries answer := by
    simp only [linkSource, symbolFiles_calm opened, symbolFiles_calm opened'] at answer ⊢
    rwa [same.symbolFiles]

/-- What an index answers in spite of faults it answers without them. -/
theorem follows_calm (faults : Faults) (ix : Index) (owner : String) :
    LinkSource.Follows owner (ix.linkSource faults) (ix.linkSource Faults.none) where
  records {path found} answer := by
    simp only [linkSource, recordsAt, read, Faults.none] at answer ⊢
    cases fault : faults 0 .selectRecords with
    | some reason =>
      rw [fault] at answer
      cases answer
    | none => rwa [fault] at answer
  summaries {symbol use limit found} answer := by
    simp only [linkSource, symbolFiles, read, Faults.none] at answer ⊢
    cases fault : faults 0 .selectSymbolFiles with
    | some reason =>
      rw [fault] at answer
      cases answer
    | none => rwa [fault] at answer

end Index

/-! ## Tables with other identities -/

/-- A row without its identity. -/
def FileRow.unnumbered (r : FileRow) : FileRow :=
  { r with id := 0 }

namespace Tables

/-- A file without its identity, and how it uses symbols. -/
def viewOf (t : Tables) (r : FileRow) : FileRow × List (String × SymbolUse) :=
  (r.unnumbered, (t.symbolsOf r.id).map fun s => (s.symbol, s.use))

/-- An owner has the same in both tables, up to the identities of rows. -/
structure AgreeFor (owner : String) (t t' : Tables) : Prop where
  files : (t'.filesOf owner).map t'.viewOf = (t.filesOf owner).map t.viewOf
  workspaces : t'.workspacesOf owner = t.workspacesOf owner

variable {t t' t'' : Tables} {owner : String}

namespace AgreeFor

theorem refl (owner : String) (t : Tables) : AgreeFor owner t t :=
  ⟨rfl, rfl⟩

theorem symm (agree : AgreeFor owner t t') : AgreeFor owner t' t :=
  ⟨agree.files.symm, agree.workspaces.symm⟩

theorem trans (first : AgreeFor owner t t') (second : AgreeFor owner t' t'') :
    AgreeFor owner t t'' :=
  ⟨second.files.trans first.files, second.workspaces.trans first.workspaces⟩

theorem of_sameFor (same : SameFor owner t t')
    (workspaces : t'.workspacesOf owner = t.workspacesOf owner) : AgreeFor owner t t' where
  files := by
    rw [same.files]
    refine List.map_congr_left fun r member => ?_
    rw [viewOf, viewOf, same.symbols r member]
  workspaces := workspaces

end AgreeFor

/-- A structure saved for another owner leaves the workspaces of the owner. -/
theorem workspacesOf_putWorkspace {row : WorkspaceRow} (other : row.owner ≠ owner) :
    (t.putWorkspace row).workspacesOf owner = t.workspacesOf owner := by
  have rows : (t.putWorkspace row).workspaces.filter (fun w => w.owner == owner) =
      t.workspaces.filter fun w => w.owner == owner := by
    have apart : (row.owner == owner) = false := by simpa using other
    simp only [putWorkspace]
    split
    · -- Only rows of the other owner are replaced, and by such a row.
      induction t.workspaces with
      | nil => rfl
      | cons w rest ih =>
        simp only [List.map_cons, List.filter_cons, ih]
        by_cases same : (w.owner == row.owner && w.path == row.path) = true
        · rw [Bool.and_eq_true, beq_iff_eq] at same
          simp [same, apart]
        · simp [same]
    · simp [List.filter_append, apart]
  simp only [workspacesOf, rows]

/-! ### Files that are asked for -/

theorem map_newestFirst (t : Tables) (rows : List FileRow) :
    (newestFirst rows).map t.viewOf = (rows.map t.viewOf).mergeSort fun a b =>
      decide (b.1.indexedAt.storedText ≤ a.1.indexedAt.storedText) :=
  List.map_mergeSort fun _ _ _ _ => rfl

/-- Files chosen by what an owner sees of them are the same for the owner. -/
theorem AgreeFor.chosen (agree : AgreeFor owner t t')
    (choose : FileRow × List (String × SymbolUse) → Bool) :
    (newestFirst ((t'.filesOf owner).filter (choose ∘ t'.viewOf))).map t'.viewOf =
      (newestFirst ((t.filesOf owner).filter (choose ∘ t.viewOf))).map t.viewOf := by
  rw [map_newestFirst, map_newestFirst, ← List.filter_map, ← List.filter_map, agree.files]

/-- Whether a file uses a symbol is part of what is seen of it. -/
theorem uses_viewOf (t : Tables) (r : FileRow) (symbol : String) (use : SymbolUse) :
    t.symbols.contains ⟨r.id, symbol, use⟩ = (t.viewOf r).2.contains (symbol, use) := by
  rw [Bool.eq_iff_iff, List.contains_iff_mem, List.contains_iff_mem]
  simp only [viewOf, symbolsOf, List.mem_map, List.mem_filter, beq_iff_eq]
  constructor
  · intro member
    exact ⟨_, ⟨member, rfl⟩, rfl⟩
  · rintro ⟨⟨file, symbol', use'⟩, ⟨member, own⟩, same⟩
    obtain ⟨rfl, rfl⟩ := Prod.mk.inj same
    exact own ▸ member

theorem AgreeFor.records (agree : AgreeFor owner t t') (path : String) :
    (t'.namedFiles owner path).map (·.record) = (t.namedFiles owner path).map (·.record) := by
  have seen := congrArg (List.map (·.1.record)) (agree.chosen fun v => v.1.isNamed path)
  rwa [List.map_map, List.map_map] at seen

theorem AgreeFor.summaries (agree : AgreeFor owner t t') (symbol : String) (use : SymbolUse) :
    (t'.symbolFiles owner symbol use).map (·.summary) =
      (t.symbolFiles owner symbol use).map (·.summary) := by
  have seen := congrArg (List.map (·.1.summary)) (agree.chosen fun v => v.2.contains (symbol, use))
  rw [List.map_map, List.map_map] at seen
  simp only [symbolFiles, uses_viewOf]
  exact seen

/-! ### Numbers -/

/-- The statistics of some files and workspaces; none when the lines are too many to be counted. -/
def tally (rows : List FileRow) (workspaces : List WorkspaceRecord) :
    Except Failure IndexStatistics :=
  match total? (rows.map (·.lineCount)) with
  | none => .error (Index.readFailure "integer overflow")
  | some totalLines => .ok {
      totalFiles := rows.length
      totalLines
      languages := (frequencies (rows.map (·.language.id))).map fun (word, count) =>
        shareOf rows word count
      frameworks := ((frequencies (rows.filterMap (·.framework))).take frameworkLimit).map (·.1)
      workspaces }

theorem shareOf_unnumbered (rows : List FileRow) (language : String) (count : Nat) :
    shareOf (rows.map FileRow.unnumbered) language count = shareOf rows language count := by
  have own : (rows.map FileRow.unnumbered).filter (fun r => r.language.id == language) =
      (rows.filter fun r => r.language.id == language).map FileRow.unnumbered := by
    rw [List.filter_map]
    rfl
  simp only [shareOf, own, List.foldr_map]
  rfl

theorem tally_unnumbered (rows : List FileRow) (workspaces : List WorkspaceRecord) :
    tally (rows.map FileRow.unnumbered) workspaces = tally rows workspaces := by
  simp only [tally, shareOf_unnumbered, List.map_map, List.filterMap_map, List.length_map]
  rfl

theorem AgreeFor.tally (agree : AgreeFor owner t t') :
    Tables.tally (t'.filesOf owner) (t'.workspacesOf owner) =
      Tables.tally (t.filesOf owner) (t.workspacesOf owner) := by
  have rows := congrArg (List.map Prod.fst) agree.files
  rw [List.map_map, List.map_map] at rows
  rw [agree.workspaces, ← tally_unnumbered (t'.filesOf owner), ← tally_unnumbered (t.filesOf owner)]
  exact congrArg (Tables.tally · _) rows

end Tables

/-- The numbers without the workspaces. -/
def IndexStatistics.counts (s : IndexStatistics) : IndexStatistics :=
  { s with workspaces := [] }

/-- The numbers come from the files alone. -/
theorem Tables.tally_counts {rows : List FileRow} {workspaces workspaces' : List WorkspaceRecord}
    {s : IndexStatistics} (tallied : tally rows workspaces = .ok s) :
    ∃ s', tally rows workspaces' = .ok s' ∧ s'.counts = s.counts := by
  simp only [tally] at tallied ⊢
  cases total : total? (rows.map (·.lineCount)) with
  | none =>
    rw [total] at tallied
    cases tallied
  | some totalLines =>
    rw [total] at tallied
    cases tallied
    exact ⟨_, rfl, rfl⟩

namespace Index

open Tables

variable {ix ix' : Index} {owner : String}

theorem recordsAt_agree (opened : ix.isOpen = true) (opened' : ix'.isOpen = true)
    (agree : AgreeFor owner ix.tables ix'.tables) (faults : Faults) (path : String) :
    ix'.recordsAt faults owner path = ix.recordsAt faults owner path := by
  simp only [recordsAt, read]
  cases faults 0 .selectRecords with
  | some reason => rfl
  | none =>
    rw [if_pos opened, if_pos opened']
    exact congrArg Except.ok (agree.records path)

theorem symbolFiles_agree (opened : ix.isOpen = true) (opened' : ix'.isOpen = true)
    (agree : AgreeFor owner ix.tables ix'.tables) (faults : Faults) (symbol : String)
    (use : SymbolUse) (limit : Int) :
    ix'.symbolFiles faults owner symbol use limit = ix.symbolFiles faults owner symbol use limit := by
  have same := agree.summaries symbol use
  -- A limit takes as many files on both sides.
  have taken : ((if limit < 0 then ix'.tables.symbolFiles owner symbol use
        else (ix'.tables.symbolFiles owner symbol use).take limit.toNat).map (·.summary)) =
      (if limit < 0 then ix.tables.symbolFiles owner symbol use
        else (ix.tables.symbolFiles owner symbol use).take limit.toNat).map (·.summary) := by
    split
    · exact same
    · rw [List.map_take, List.map_take, same]
  simp only [symbolFiles, read]
  cases faults 0 .selectSymbolFiles with
  | some reason => rfl
  | none =>
    rw [if_pos opened, if_pos opened']
    cases Action.fits limit with
    | false => rfl
    | true => exact congrArg Except.ok taken

/-- The fault that keeps the statistics from being answered once the files were counted. -/
def lateFault? (faults : Faults) : Option String :=
  (faults 1 .selectLanguages).or ((faults 2 .selectFrameworks).or (faults 3 .selectWorkspaces))

/-- The statistics of an open index, in spite of faults. -/
theorem statistics_eq (opened : ix.isOpen = true) (faults : Faults) (owner : String) :
    ix.statistics faults owner =
      match faults 0 .selectTotals with
      | some reason => .error (readFailure reason)
      | none => (tally (ix.tables.filesOf owner) (ix.tables.workspacesOf owner)).bind fun s =>
        match lateFault? faults with
        | some reason => .error (readFailure reason)
        | none => .ok s := by
  simp only [statistics, read, opened, if_true, tally, lateFault?, bind, Except.bind]
  cases faults 0 .selectTotals with
  | some reason => rfl
  | none =>
    dsimp only
    cases total? ((ix.tables.filesOf owner).map (·.lineCount)) with
    | none => rfl
    | some totalLines =>
      cases faults 1 .selectLanguages with
      | some reason => rfl
      | none => cases faults 2 .selectFrameworks <;> cases faults 3 .selectWorkspaces <;> rfl

theorem statistics_calm (opened : ix.isOpen = true) (owner : String) :
    ix.statistics Faults.none owner =
      tally (ix.tables.filesOf owner) (ix.tables.workspacesOf owner) := by
  rw [statistics_eq opened]
  cases tally (ix.tables.filesOf owner) (ix.tables.workspacesOf owner) <;> rfl

/-- Statistics that are answered in spite of faults are those without them. -/
theorem statistics_ok (opened : ix.isOpen = true) {faults : Faults} {s : IndexStatistics}
    (answer : ix.statistics faults owner = .ok s) : ix.statistics Faults.none owner = .ok s := by
  rw [statistics_eq opened] at answer
  rw [statistics_calm opened]
  split at answer
  · cases answer
  · cases tallied : tally (ix.tables.filesOf owner) (ix.tables.workspacesOf owner) with
    | error f =>
      rw [tallied] at answer
      cases answer
    | ok s' =>
      rw [tallied, Except.bind] at answer
      split at answer
      · cases answer
      · exact answer

theorem statistics_agree (opened : ix.isOpen = true) (opened' : ix'.isOpen = true)
    (agree : AgreeFor owner ix.tables ix'.tables) (faults : Faults) :
    ix'.statistics faults owner = ix.statistics faults owner := by
  rw [statistics_eq opened, statistics_eq opened', agree.tally]

theorem statistics_counts (opened : ix.isOpen = true) (opened' : ix'.isOpen = true)
    (same : ix'.tables.files = ix.tables.files) {s : IndexStatistics}
    (answer : ix.statistics Faults.none owner = .ok s) :
    ∃ s', ix'.statistics Faults.none owner = .ok s' ∧ s'.counts = s.counts := by
  rw [statistics_calm opened] at answer
  rw [statistics_calm opened', filesOf, same]
  exact tally_counts answer

/-- A structure saved for an owner leaves every other owner the same. -/
theorem saveStructure_agree {faults : Faults} (undoable : faults.Undoable) (settled : ix.Settled)
    {saver : String} (other : saver ≠ owner) (workspace : String) (found : ProjectStructure) :
    AgreeFor owner ix.tables (ix.saveStructure faults saver workspace found).2.tables := by
  obtain ⟨_, ran⟩ := (IndexWrite.structure_ saver workspace found).run_cases undoable settled
  rw [IndexWrite.result_structure] at ran
  -- Either a row of the saver was put, or nothing was done.
  rcases ran with ⟨done, _⟩ | ⟨kept, _⟩
  · have tables := (Except.ok.inj done).symm
    simp only [IndexWrite.run] at tables
    rw [tables]
    obtain ⟨workspaces, put⟩ := putWorkspace_files (t := ix.tables) ⟨saver, workspace, found, ix.now⟩
    refine .of_sameFor ?_ (workspacesOf_putWorkspace other)
    rw [put]
    exact sameFor_workspaces workspaces
  · simp only [IndexWrite.run] at kept
    exact kept ▸ .refl owner ix.tables

end Index

end CodeAtlas
