import CodeAtlas.Proofs.Links.Symmetry
import CodeAtlas.Proofs.Outline.Python

/-!
# A name that two Python files share

One file declares a public name and nothing else, another imports it and nothing else, and no third
file uses it. The first is always found to export the name. The two are linked, in both directions
and to nothing else, when the name starts with an ASCII letter; with any other first letter the second
file imports nothing and there is no link.

## Main results

`Index.replay_shared`: over every history of an index that comes to hold the two files.
`Outline.imports_unbound`: a name that is exported and cannot be imported.
-/

namespace CodeAtlas

namespace Links

variable {source : LinkSource} {limit : Nat} {owner ownPath symbol : String} {use : SymbolUse}
  {direction : LinkDirection}

/-- A related file by one symbol. -/
def entry (s : FileSummary) (direction : LinkDirection) (symbol : String) : RelatedFile :=
  { RelatedFile.ofSummary s direction with symbols := [symbol] }

/-- One symbol with one other user makes one entry. -/
theorem linkAll_single {s : FileSummary} (pos : 1 ≤ limit)
    (answer : source.symbolFiles owner symbol use ((limit : Int) + 1) = .ok [s])
    (other : s.path ≠ ownPath) :
    linkAll source limit owner ownPath use direction [symbol] [] =
      .ok [entry s direction symbol] := by
  have kept : ([s].filter (·.path != ownPath)).take limit = [s] := by
    rw [List.filter_cons_of_pos (by simpa using other), List.filter_nil,
      List.take_of_length_le (by simpa using pos)]
  rw [linkAll, answer]
  simp only [bind, Except.bind, kept]
  rfl

/-- A symbol without users makes no entry. -/
theorem linkAll_unused
    (answer : source.symbolFiles owner symbol use ((limit : Int) + 1) = .ok []) :
    linkAll source limit owner ownPath use direction [symbol] [] = .ok [] := by
  rw [linkAll, answer]
  simp only [bind, Except.bind, List.filter_nil, List.take_nil]
  rfl

end Links

/-- A row holds what the analysis of a content finds in its file. -/
structure FileRow.Holds (r : FileRow) (config : OutlineConfig) (content : String) : Prop where
  imports : r.record.imports = (Outline.analyze config r.path content).imports
  exports : r.record.exports = (Outline.analyze config r.path content).exports

/-- Of the files of an owner each of two is found by its path alone, and a name is used by no file
but these, exported by the one and imported by the other. -/
structure Tables.Pairs (t : Tables) (owner name : String) (a b : FileRow) : Prop where
  first : (t.filesOf owner).filter (·.isNamed a.path) = [a]
  second : (t.filesOf owner).filter (·.isNamed b.path) = [b]
  exported : ∀ r ∈ t.filesOf owner, name ∈ r.record.exports → r = a
  imported : ∀ r ∈ t.filesOf owner, name ∈ r.record.importedNames → r = b

namespace Tables.Pairs

variable {t : Tables} {owner name : String} {a b : FileRow} (pairs : t.Pairs owner name a b)

include pairs

theorem mem_first : a ∈ t.filesOf owner :=
  List.mem_of_mem_filter (pairs.first ▸ List.mem_singleton_self a)

theorem mem_second : b ∈ t.filesOf owner :=
  List.mem_of_mem_filter (pairs.second ▸ List.mem_singleton_self b)

/-- Files that differ have different paths. -/
theorem path_ne (differ : a ≠ b) : a.path ≠ b.path := by
  intro same
  have alone := pairs.first
  rw [same, pairs.second] at alone
  exact differ (List.cons.inj alone).1.symm

end Tables.Pairs

namespace Tables

variable {t : Tables} {owner name : String} {a b : FileRow}

/-- What holds of one row at most is found there or nowhere. -/
theorem filter_eq_ite {rows : List FileRow} {named : FileRow → Bool}
    (alone : rows.filter named = [a]) {p : FileRow → Bool} (only : ∀ r ∈ rows, p r = true → r = a) :
    rows.filter p = if p a then [a] else [] := by
  have isNamed : named a = true :=
    (List.mem_filter.mp (alone ▸ List.mem_singleton_self a)).2
  calc rows.filter p
    _ = (rows.filter named).filter p := by
      rw [List.filter_filter]
      refine List.filter_congr fun r member => ?_
      cases holds : p r with
      | false => rfl
      | true => rw [only r member holds, isNamed]; rfl
    _ = if p a then [a] else [] := by
      rw [alone, List.filter_singleton, cond_eq_ite]

theorem Pairs.exporters (pairs : t.Pairs owner name a b) (exports : name ∈ a.record.exports) :
    t.users owner name .exported = [a] := by
  have only : ∀ r ∈ t.filesOf owner, decide (name ∈ r.record.uses .exported) = true → r = a :=
    fun r member uses => pairs.exported r member (of_decide_eq_true uses)
  rw [users, filter_eq_ite pairs.first only]
  exact if_pos (decide_eq_true exports)

theorem Pairs.importers (pairs : t.Pairs owner name a b) :
    t.users owner name .imported = if name ∈ b.record.uses .imported then [b] else [] := by
  have only : ∀ r ∈ t.filesOf owner, decide (name ∈ r.record.uses .imported) = true → r = b :=
    fun r member uses => pairs.imported r member (of_decide_eq_true uses)
  rw [users, filter_eq_ite pairs.second only]
  by_cases uses : name ∈ b.record.uses .imported
  · rw [if_pos uses, if_pos (decide_eq_true uses)]
  · rw [if_neg uses, if_neg fun decided => uses (of_decide_eq_true decided)]

end Tables

namespace Index

open Tables

variable {ix : Index} {owner : String} {limit : Nat}

/-- Asked for the files that export the name of a pair, an index answers the first. -/
theorem Settled.answers_exporter (settled : ix.Settled) {name : String} {a b : FileRow}
    (pairs : ix.tables.Pairs owner name a b) (exports : name ∈ a.record.exports)
    (fits : Action.fits ((limit : Int) + 1) = true) (pos : 1 ≤ limit) :
    (ix.linkSource Faults.none).symbolFiles owner name .exported ((limit : Int) + 1) =
      .ok [a.summary] := by
  have few : (ix.tables.users owner name .exported).length ≤ limit := by
    rw [pairs.exporters exports]
    exact pos
  have answer := symbolFiles_few settled fits few
  rw [pairs.exporters exports, newestFirst, List.mergeSort_singleton] at answer
  exact answer

/-- Asked for the files that import it, an index answers the second if that does. -/
theorem Settled.answers_importer (settled : ix.Settled) {name : String} {a b : FileRow}
    (pairs : ix.tables.Pairs owner name a b) {binds : Bool}
    (imports : name ∈ b.record.importedNames ↔ binds = true)
    (fits : Action.fits ((limit : Int) + 1) = true) (pos : 1 ≤ limit) :
    (ix.linkSource Faults.none).symbolFiles owner name .imported ((limit : Int) + 1) =
      .ok (if binds then [b.summary] else []) := by
  have found : ix.tables.users owner name .imported = if binds then [b] else [] := by
    rw [pairs.importers]
    exact if_congr imports rfl rfl
  have few : (ix.tables.users owner name .imported).length ≤ limit := by
    rw [found]
    split
    · exact pos
    · exact Nat.zero_le _
  have answer := symbolFiles_few settled fits few
  rw [found, newestFirst] at answer
  refine answer.trans ?_
  split <;> simp

/-- Whatever was called on an index: when one file of an owner declares a public name, another
imports it, and no third one uses it, then the first exports the name, and the two are all that is
linked to each other when the name starts with an ASCII letter. Otherwise neither is linked to
anything. -/
theorem replay_shared (clock : Int) (calls : List IndexCall) (config : OutlineConfig)
    {name module declaration : String} (isName : PublicName name.toList)
    (isModule : ModulePath module.toList)
    (declares : declaration = "def " ++ name ++ "():" ∨ declaration = "class " ++ name ++ ":")
    (fits : Action.fits ((limit : Int) + 1) = true) (pos : 1 ≤ limit)
    {τ : Type} [Add τ] [LE τ] [DecidableLE τ] :
    let ix := (replay clock calls).2
    let source := ix.linkSource Faults.none
    ∀ a b, ix.tables.Pairs owner name a b →
      Language.ofPath a.path = .python → a.Holds config declaration →
      Language.ofPath b.path = .python →
      b.Holds config ("from " ++ module ++ " import " ++ name) →
      name ∈ a.record.exports ∧
      (name ∈ b.record.importedNames ↔ startsAscii name.toList = true) ∧
      ∀ (links : Links τ) (now : τ), links.candidateLimit = limit → links.Fresh source owner →
        (links.relatedFiles source now owner a.path).1 =
          .ok (if startsAscii name.toList then [Links.entry b.summary .importsTo name] else []) ∧
        (links.relatedFiles source now owner b.path).1 =
          .ok (if startsAscii name.toList then [Links.entry a.summary .importsFrom name] else []) := by
  intro ix source a b pairs pythonA holdsA pythonB holdsB
  have settled : ix.Settled := replay_settled clock calls
  obtain ⟨exportsA, importsA⟩ := Outline.exports_declaration config pythonA isName declares
  obtain ⟨exportsB, importsB⟩ :=
    Outline.imports_importation config pythonB isModule isName rfl
  rw [← holdsA.exports] at exportsA
  rw [← holdsB.exports] at exportsB
  rw [← holdsA.imports] at importsA
  rw [← holdsB.imports] at importsB
  have differ : a ≠ b := by
    rintro rfl
    exact List.cons_ne_nil name [] (exportsA.symm.trans exportsB)
  have path (r : FileRow) (member : r ∈ ix.tables.filesOf owner) : r.record.path = r.path := by
    rw [settled.sound.columns r (mem_filesOf.mp member).1]
    rfl
  have uses : name ∈ a.record.exports := by simp [exportsA]
  have binds : name ∈ b.record.importedNames ↔ startsAscii name.toList = true := by
    rw [IndexedFile.importedNames, importsB]
    split <;> simp [*]
  refine ⟨uses, binds, fun links now limited fresh => ?_⟩
  -- The one query that each file leads to, and its answer.
  have exporters := settled.answers_exporter pairs uses fits pos
  have importers := settled.answers_importer pairs binds fits pos
  have resolvedA : Links.resolve source links.candidateLimit owner a.record =
      .ok (if startsAscii name.toList then [Links.entry b.summary .importsTo name] else []) := by
    have apart : b.summary.path ≠ a.record.path := by
      rw [path a pairs.mem_first]
      exact (pairs.path_ne differ).symm
    rw [Links.resolve, limited, IndexedFile.importedNames, importsA, exportsA]
    cases binding : startsAscii name.toList with
    | true => exact Links.linkAll_single pos (by rw [importers, binding]; rfl) apart
    | false => exact Links.linkAll_unused (by rw [importers, binding]; rfl)
  have resolvedB : Links.resolve source links.candidateLimit owner b.record =
      .ok (if startsAscii name.toList then [Links.entry a.summary .importsFrom name] else []) := by
    have apart : a.summary.path ≠ b.record.path := by
      rw [path b pairs.mem_second]
      exact pairs.path_ne differ
    rw [Links.resolve, limited, IndexedFile.importedNames, importsB, exportsB]
    cases binding : startsAscii name.toList with
    | true =>
      rw [if_pos rfl, Links.linkAll_single pos exporters apart]
      rfl
    | false => rfl
  exact ⟨(Links.relatedFiles_ok fresh (recordsAt_only settled.opened pairs.first) resolvedA now).1,
    (Links.relatedFiles_ok fresh (recordsAt_only settled.opened pairs.second) resolvedB now).1⟩

/-- When the storage works, a file that is not current is put into the tables. -/
theorem Settled.tables_file (settled : ix.Settled) {t : Tables} (holds : ix.tables = t)
    (f : IndexedFile) (chunks : List IndexedChunk) (force : Bool)
    (stale : t.isCurrent f force = false) (storable : Storable f chunks) :
    ((IndexWrite.file f chunks force).run Faults.none ix).2.tables =
      t.put (t.rowFor f ix.now) chunks := by
  have ran := write_calm "upsert" (IndexWrite.file f chunks force).plan settled.opened
    settled.unbegun
  rw [IndexWrite.result_file settled.sound, holds, stale, if_neg Bool.false_ne_true,
    if_pos storable] at ran
  rw [IndexWrite.run_eq_write]
  exact congrArg (·.2.tables) ran

/-- A name of ASCII letters links the two files. -/
theorem replay_shared_linked :
    let file (path relativePath : String) (o : Outline) : IndexedFile := {
      owner := "alice", workspace := "/w", path, relativePath, name := relativePath
      extension := "py", language := .python, content := "", contentHash := "", imports := o.imports
      exports := o.exports, indexedAt := Timestamp.ofMicros 0 }
    let calls (exporter importer : Outline) := [file "/w/b.py" "b.py" importer,
      file "/w/a.py" "a.py" exporter].map
        fun f => (⟨.file f [] false, Faults.none, Faults.none_undoable, 0⟩ : IndexCall)
    let ix := (replay 0 (calls (Outline.analyze {} "/w/a.py" "def ete():")
      (Outline.analyze {} "/w/b.py" "from m import ete"))).2
    let links : Links Nat := .empty 3 1
    ∃ a b, ix.tables.filesOf "alice" = [a, b] ∧ a.path = "/w/a.py" ∧ b.path = "/w/b.py" ∧
      (links.relatedFiles (ix.linkSource Faults.none) 0 "alice" a.path).1 =
        .ok [Links.entry b.summary .importsTo "ete"] ∧
      (links.relatedFiles (ix.linkSource Faults.none) 0 "alice" b.path).1 =
        .ok [Links.entry a.summary .importsFrom "ete"] := by
  intro file calls ix links
  -- Whatever the outlines are, the two files are told apart by their paths.
  have stored (exporter importer : Outline) :
      ∃ a b, (replay 0 (calls exporter importer)).2.tables.filesOf "alice" = [a, b] ∧
        (a.path = "/w/a.py" ∧ b.path = "/w/b.py") ∧
        (a.record.imports = exporter.imports ∧ a.record.exports = exporter.exports) ∧
        (b.record.imports = importer.imports ∧ b.record.exports = importer.exports) ∧
        (a.relativePath = "a.py" ∧ b.relativePath = "b.py") := by
    have first := (settled_empty 0).tables_file rfl (file "/w/a.py" "a.py" exporter) [] false rfl rfl
    have between := (replay_settled 0 ((calls exporter importer).drop 1)).later
      ((replay 0 ((calls exporter importer).drop 1)).2.clock + 0)
    have second := between.tables_file first (file "/w/b.py" "b.py" importer) [] false rfl rfl
    exact ⟨.ofRecord 1 (file "/w/a.py" "a.py" exporter) 1 (.ofMicros 0),
      .ofRecord 2 (file "/w/b.py" "b.py" importer) 1 _,
      congrArg (Tables.filesOf · "alice") second, ⟨rfl, rfl⟩, ⟨rfl, rfl⟩, ⟨rfl, rfl⟩, rfl, rfl⟩
  obtain ⟨a, b, rows, ⟨pathA, pathB⟩, ⟨importsA, exportsA⟩, ⟨importsB, exportsB⟩, relativeA,
    relativeB⟩ := stored (Outline.analyze {} "/w/a.py" "def ete():")
      (Outline.analyze {} "/w/b.py" "from m import ete")
  have pythonA : Language.ofPath "/w/a.py" = .python := by decide +kernel
  have pythonB : Language.ofPath "/w/b.py" = .python := by decide +kernel
  have isName : PublicName "ete".toList :=
    ⟨by decide, List.all_eq_true.mp (by decide), by decide⟩
  have isModule : ModulePath "m".toList := ⟨by decide, List.all_eq_true.mp (by decide)⟩
  have declared := Outline.exports_declaration {} pythonA isName (.inl rfl)
  have imported := Outline.imports_importation {} pythonB isModule isName rfl
  have unexported : b.record.exports = [] := exportsB.trans imported.1
  have unimported : b.record.importedNames = ["ete"] ∧ a.record.importedNames = [] :=
    ⟨(congrArg importedNames importsB).trans (imported.2.trans rfl),
      (congrArg importedNames importsA).trans declared.2⟩
  have pairs : ix.tables.Pairs "alice" "ete" a b := by
    refine ⟨?_, ?_, ?_, ?_⟩ <;> rw [rows]
    · simp [FileRow.isNamed, pathA, pathB, relativeA, relativeB]
    · simp [FileRow.isNamed, pathA, pathB, relativeA, relativeB]
    · simp [unexported]
    · simp [unimported]
  have linked := (replay_shared 0 (calls _ _) {} isName isModule (.inl rfl)
    (show Action.fits ((3 : Nat) + 1 : Int) = true by decide) (by decide) a b pairs
    (pathA ▸ pythonA) ⟨pathA ▸ importsA, pathA ▸ exportsA⟩ (pathB ▸ pythonB)
    ⟨pathB ▸ importsB, pathB ▸ exportsB⟩).2.2 links 0 rfl (Links.fresh_empty _ _ _ _)
  exact ⟨a, b, rows, pathA, pathB, linked⟩

end Index

/-- A name of word characters that starts with no digit and no underscore is exported and not
imported. -/
theorem Outline.imports_unbound :
    ((∀ c ∈ "été".toList, Text.isWordChar c = true) ∧ ∀ c ∈ "été".toList.head?, c ≠ '_' ∧ ¬c.isDigit) ∧
      "été" ∈ (analyze {} "/w/a.py" "def été():").exports ∧
      "été" ∉ importedNames (analyze {} "/w/b.py" "from m import été").imports := by
  have isName : PublicName "été".toList :=
    ⟨by decide, List.all_eq_true.mp (by decide +kernel), by decide⟩
  have isModule : ModulePath "m".toList := ⟨by decide, List.all_eq_true.mp (by decide)⟩
  have pythonA : Language.ofPath "/w/a.py" = .python := by decide +kernel
  have pythonB : Language.ofPath "/w/b.py" = .python := by decide +kernel
  have exports := (exports_declaration {} pythonA isName (.inl rfl)).1
  have imports := (imports_importation {} pythonB isModule isName rfl).2
  refine ⟨⟨isName.word, ?_⟩, ?_, ?_⟩
  · rintro c ⟨⟩
    decide
  · exact exports ▸ List.mem_singleton_self "été"
  · rw [show "from m import été" = "from " ++ "m" ++ " import " ++ "été" from rfl, imports]
    decide

end CodeAtlas
