import CodeAtlas.Engine.Conditions
import CodeAtlas.Proofs.Config.Standard
import CodeAtlas.Proofs.Engine.Clean
import CodeAtlas.Proofs.Index.History
import Mathlib

/-!
# Indexing again

After a clean run over a tree that does not change, the content of every file of the walk stands in
the index, and nothing else does. So another run finds every file current, and it has nothing to
remove: it works no embedder, lets nobody know of anything and leaves all rows as they are.

## Main results

`IndexRun.process_current`: a current file is counted and passed over.
`Engine.indexWorkspace_repeats`: a run after a clean one passes over all files.
-/

namespace CodeAtlas

open Tables

namespace Engine

variable {τ σ : Type} {t : Tree} {c : Conditions} {owner : String} {workspace path : FilePath}
  {e : Engine τ σ}

/-- The content of a file that stands in the index needs no draft. -/
theorem draft_current (calm : c.Calm) (tree : c.tree = t) (opened : e.index.isOpen = true)
    (stands : e.Stands t owner workspace path) : e.draft c owner workspace path false = .ok none := by
  obtain ⟨read, given, stored⟩ := stands
  have given : ReadFile.of c.tree path = .ok read := tree ▸ given
  have asked : c.guard .fileHash Outage.text?
      (e.index.fileHash c.faults owner workspace.text path.text) = .ok (some read.contentHash) := by
    rw [calm.inOrder.guard_eq, calm.faultless, ← stored]
    simp only [Index.fileHash, Index.read, Faults.none, opened, if_true]
    rfl
  rw [draft_eq, given]
  simp only [Bool.false_eq_true, if_false, asked]
  exact if_pos (beq_self_eq_true _)

end Engine

namespace IndexRun

variable {τ σ ω : Type} {s : Surroundings ω} {t : Tree} {goal : RunGoal} {run : IndexRun τ σ ω}

/-- The run after it has passed over some files that are current. -/
def passedOver (s : Surroundings ω) (files : List FilePath) (run : IndexRun τ σ ω) :
    IndexRun τ σ ω :=
  { run with
    around := files.foldl (fun w path => s.react w (.finished path)) run.around
    report := { run.report with
      processed := run.report.processed + files.length
      skipped := run.report.skipped + files.length } }

theorem passedOver_nil : run.passedOver s [] = run := by
  simp [passedOver]

theorem passedOver_cons (path : FilePath) (rest : List FilePath) :
    run.passedOver s (path :: rest) = (run.passedOver s [path]).passedOver s rest := by
  have total (n : Int) : n + ((path :: rest).length : Int) =
      n + ([path].length : Int) + (rest.length : Int) := by
    simp only [List.length_cons, List.length_nil]
    omega
  simp only [passedOver, List.foldl_cons, List.foldl_nil, total]

section Time

set_option linter.unusedSectionVars false

variable [Add τ] [Sub τ] [LE τ] [DecidableLE τ] [LT τ] [DecidableLT τ] [OfNat τ 0]

/-- A current file is counted and passed over. -/
theorem process_current (calm : (s.conditions run.around).Calm)
    (tree : (s.conditions run.around).tree = t) (opened : run.engine.index.isOpen = true)
    (unforced : goal.force = false) (now : τ) {path : FilePath}
    (stands : run.engine.Stands t goal.owner goal.workspace path) :
    run.process s now goal path = run.passedOver s [path] := by
  have undrafted : run.engine.draft (s.conditions run.around) goal.owner goal.workspace path
      goal.force = .ok none := by
    rw [unforced]
    exact Engine.draft_current calm tree opened stands
  simp only [process, calm.ongoing, Bool.false_eq_true, if_false, Engine.entry, reported, undrafted]
  rfl

/-- Files that are all current are passed over one after another. -/
theorem processAll_current (calm : ∀ w, (s.conditions w).Calm)
    (tree : ∀ w, (s.conditions w).tree = t) (unforced : goal.force = false) (now : τ)
    {files : List FilePath} (opened : run.engine.index.isOpen = true)
    (stand : ∀ p ∈ files, run.engine.Stands t goal.owner goal.workspace p) :
    files.foldl (process s now goal) run = run.passedOver s files := by
  induction files generalizing run with
  | nil => exact passedOver_nil.symm
  | cons path rest ih =>
    have first := process_current (calm run.around) (tree run.around) opened unforced now
      (stand path List.mem_cons_self)
    -- The engine is the same after the first file, so the others are still current.
    have others : rest.foldl (process s now goal) (run.passedOver s [path]) =
        (run.passedOver s [path]).passedOver s rest :=
      ih opened fun p member => stand p (List.mem_cons_of_mem _ member)
    rw [List.foldl_cons, first, others, ← passedOver_cons]

end Time

variable (goal) in
/-- When all that is stored of the workspace was walked, the sweep removes nothing and lets nobody
know of anything, so that only the structure is left to save. -/
theorem finish_walked (order : (s.conditions run.around).InOrder)
    (settled : run.engine.index.Settled) (ongoing : run.report.cancelled = false)
    (restricting : goal.workspace.text ≠ "") {files : List FilePath} (unreadable : List String)
    (walked : ∀ r ∈ run.engine.index.tables.filesIn goal.owner goal.workspace.text,
      ∃ p ∈ files, r.path = p.text) :
    ∃ index : Index, index.Settled ∧ index.tables = run.engine.index.tables ∧
      run.finish s goal files unreadable = (none, saveStructure s goal { run with
        engine := { run.engine with index }
        report := { run.report with deleted := 0 } }) := by
  have swept := swept_sweep order.honest settled goal files unreadable
  have went := sweep_returns order settled goal files unreadable
  rw [finish, if_neg (Bool.eq_false_iff.mp ongoing)]
  generalize run.sweep s goal files unreadable = out at swept went ⊢
  cases swept with
  | failed index f settled' tables => cases went
  | removed index live gone deleted settled' tables live_ kept told count paths =>
    -- Every stored path is live, so no row is doomed.
    have none_ : Index.doomed goal.owner goal.workspace.text live run.engine.index.tables = [] := by
      refine List.eq_nil_iff_forall_not_mem.mpr fun r doomed => ?_
      obtain ⟨member, own, inside, dead⟩ := Index.mem_doomed_iff.mp doomed
      obtain ⟨p, given, text⟩ := walked r (mem_filesIn.mpr ⟨member, own, inside⟩)
      exact dead (text ▸ live_ p given)
    obtain rfl : gone = [] := by
      have told := paths restricting
      rw [none_] at told
      exact List.perm_nil.mp told
    obtain rfl : deleted = 0 := by
      rw [count, none_]
      rfl
    rw [none_, List.map_nil, drop_nil] at tables
    exact ⟨index, settled', tables, rfl⟩

variable (goal) in
/-- A run that has passed over all that is stored of the workspace removes nothing when it
finishes; it may save another structure of the workspace. -/
theorem finish_current (calm : ∀ w, (s.conditions w).Calm) (settled : run.engine.index.Settled)
    (ongoing : run.report.cancelled = false) (restricting : goal.workspace.text ≠ "")
    {files : List FilePath} (unreadable : List String)
    (walked : ∀ r ∈ run.engine.index.tables.filesIn goal.owner goal.workspace.text,
      ∃ p ∈ files, r.path = p.text) :
    ∃ (index : Index) (workspaces : List WorkspaceRow), index.Settled ∧
      index.tables = { run.engine.index.tables with workspaces } ∧
      run.finish s goal files unreadable = (none, { run with
        engine := { run.engine with index }
        report := { run.report with deleted := 0 } }) := by
  obtain ⟨index, after, tables, finished⟩ := finish_walked goal (calm run.around).inOrder settled
    ongoing restricting unreadable walked
  let swept : IndexRun τ σ ω := { run with
    engine := { run.engine with index }
    report := { run.report with deleted := 0 } }
  have honest : (s.conditions swept.around).Honest := (calm swept.around).inOrder.honest
  have ready : swept.engine.index.Settled := after
  obtain ⟨index', workspaces, after', tables', saved, _⟩ := saveStructure_cases honest ready goal
  refine ⟨index', workspaces, after', ?_, ?_⟩
  · rw [tables', ← tables]
  · exact finished.trans (congrArg (Prod.mk none) saved)

end IndexRun

namespace Surroundings

variable {ω : Type}

/-- No callback is called for a file that was only passed over. -/
theorem calling_finished (s : Surroundings ω) (owner : String) (callbacks : List (Callback ω))
    (files : List FilePath) (w : ω × List Callback.Call) :
    (files.foldl (fun w path => (s.calling owner callbacks).react w (.finished path)) w).2 = w.2 := by
  induction files generalizing w with
  | nil => rfl
  | cons path rest ih => exact ih _

end Surroundings

namespace Engine

variable {τ σ ω ω' : Type}
variable [Add τ] [Sub τ] [LE τ] [DecidableLE τ] [LT τ] [DecidableLT τ] [OfNat τ 0]

/-- When all files of the walk are current, a run that nothing forces passes over them and then
finishes. -/
theorem indexWorkspace_current {s : Surroundings ω} (calm : ∀ w, (s.conditions w).Calm) {t : Tree}
    (tree : ∀ w, (s.conditions w).tree = t) (named : t.Named) {e : Engine τ σ}
    (settled : e.index.Settled) {root : FilePath} {files : List FilePath}
    (walks : t.Walks e.config.scanner root files) {owner : String}
    (stand : ∀ p ∈ files, e.Stands t owner (t.workspace root) p) (now : τ) (w : ω) :
    e.indexWorkspace s now owner root false w = ((IndexRun.atStart e w []).passedOver s files).finish
      s ⟨owner, t.workspace root, false⟩ files [] := by
  obtain ⟨walk, left, started, drained, faultless⟩ := walks
  have here : (s.conditions w).tree = t := tree w
  have went := IndexRun.indexWorkspace_eq (here.symm ▸ named) (here.symm ▸ started)
    (here.symm ▸ drained) now owner false
  rw [here, faultless] at went
  have start : (IndexRun.atStart e w []).engine.index.isOpen = true := settled.opened
  rw [went, IndexRun.processAll_current calm tree rfl now start stand]
  rfl

/-- After a clean run another one over the same tree, which nothing forces and in which nothing is
out of order, passes over all files. It reports no write and no removal, calls no callback, does not
touch the embedder and so asks no provider, and all rows of files, chunks and symbols stay as they
are. The engine may be another one by then, as long as it has the same tables. -/
theorem indexWorkspace_repeats {s : Surroundings ω} (honest : ∀ w, (s.conditions w).Honest)
    {t : Tree} (tree : ∀ w, (s.conditions w).tree = t) (named : t.Named) {e : Engine τ σ}
    (settled : e.index.Settled) (now : τ) (owner : String) (root : FilePath) (force : Bool) (w : ω)
    (returned : (e.indexWorkspace s now owner root force w).1 = none)
    (clean : (e.indexWorkspace s now owner root force w).2.report.Clean)
    {s' : Surroundings ω'} (calm : ∀ w, (s'.conditions w).Calm)
    (tree' : ∀ w, (s'.conditions w).tree = t) {e' : Engine τ σ} (settled' : e'.index.Settled)
    (scanner : e'.config.scanner = e.config.scanner)
    (same : e'.index.tables =
      (e.indexWorkspace s now owner root force w).2.engine.index.tables)
    (now' : τ) (callbacks : List (Callback ω')) (w' : ω') :
    let out := e'.indexWorkspace (s'.calling owner callbacks) now' owner root false (w', [])
    out.1 = none ∧ out.2.report.Clean ∧ out.2.report.updated = 0 ∧
      out.2.report.skipped = out.2.report.processed ∧ out.2.report.embeddings = 0 ∧
      out.2.report.deleted = 0 ∧ out.2.changed = [] ∧ out.2.around.2 = [] ∧
      out.2.engine.embedder = e'.embedder ∧
      out.2.engine.index.tables.files = e'.index.tables.files ∧
      out.2.engine.index.tables.chunks = e'.index.tables.chunks ∧
      out.2.engine.index.tables.symbols = e'.index.tables.symbols := by
  intro out
  obtain ⟨files, walks, mirrors⟩ := mirrors_indexWorkspace honest tree named settled now owner root
    force w returned clean
  have root_ : (t.workspace root).Named := (walks.named named).1
  have calm' : ∀ w, ((s'.calling owner callbacks).conditions w).Calm := fun w => calm w.1
  have stand : ∀ p ∈ files, e'.Stands t owner (t.workspace root) p :=
    fun p member => (mirrors.stands p member).sameTables same
  have only : ∀ r ∈ e'.index.tables.filesIn owner (t.workspace root).text,
      ∃ p ∈ files, r.path = p.text := same ▸ mirrors.only
  have went : out = _ := indexWorkspace_current calm' (fun w => tree' w.1) named settled'
    (scanner ▸ walks) stand now' (w', [])
  let passed := (IndexRun.atStart e' (w', ([] : List Callback.Call)) []).passedOver
    (s'.calling owner callbacks) files
  have ready : passed.engine.index.Settled := settled'
  obtain ⟨index, workspaces, _, tables, finished⟩ := IndexRun.finish_current
    ⟨owner, t.workspace root, false⟩ calm' ready rfl root_.text_ne [] only
  rw [went, finished]
  refine ⟨rfl, ⟨rfl, rfl⟩, rfl, rfl, rfl, rfl, rfl, ?_, rfl, ?_, ?_, ?_⟩
  · exact Surroundings.calling_finished s' owner callbacks files (w', [])
  · rw [tables]
    rfl
  · rw [tables]
    rfl
  · rw [tables]
    rfl

/-- A file stands in the index and another one is gone from the tree. The first run removes what is
left of the other; the second changes nothing. -/
theorem indexWorkspace_repeats_standing :
    let tree : Tree := ⟨.dir [("a.py", .file [120] (.ofMicros 0))]⟩
    let file (name contentHash : String) : IndexedFile := {
      owner := "o", workspace := "/", path := "/" ++ name, relativePath := name, name
      extension := "py", language := .python, content := "x", contentHash
      indexedAt := Timestamp.ofMicros 0 }
    let scanner : ScanConfig := ⟨[], ["py"], [], ".ignored", 100⟩
    let e : Engine Int Unit :=
      create (fun _ => 300) { EngineConfig.standard with scanner } .standard none ()
        (Index.replay 0 [⟨.file (file "gone.py" "") [] false, Faults.none, Faults.none_undoable, 0⟩,
          ⟨.file (file "a.py" (Digest.ofText "x")) [] false, Faults.none, Faults.none_undoable, 0⟩]).2
    let run := (e.indexWorkspace (.quiet tree) 0 "o" ⟨"/", []⟩ false ()).2
    let again := run.engine.indexWorkspace ((Surroundings.quiet tree).calling "o" []) 60 "o" ⟨"/", []⟩
      false ((), [])
    run.report.Clean ∧ again.1 = none ∧ again.2.report.updated = 0 ∧ again.2.report.deleted = 0 ∧
      again.2.report.skipped = again.2.report.processed ∧
      again.2.engine.index.tables.files = run.engine.index.tables.files := by
  intro tree file scanner e run again
  let walk : Walk := ⟨scanner, ⟨"/", []⟩, {}, none, [⟨"/", []⟩], []⟩
  have calm : ∀ w, ((Surroundings.quiet tree).conditions w).Calm := Surroundings.calm_quiet tree
  have settled : e.index.Settled := Index.replay_settled 0 _
  have named : tree.Named := by decide
  have started : Walk.start scanner tree ⟨"/", []⟩ = .ok walk := by cbv
  have drained : walk.drain tree = ([⟨"/", ["a.py"]⟩], { walk with pending := [] }) := by cbv
  have walks : tree.Walks scanner ⟨"/", []⟩ [⟨"/", ["a.py"]⟩] := ⟨walk, _, started, drained, rfl⟩
  have root : tree.workspace ⟨"/", []⟩ = ⟨"/", []⟩ := by cbv
  have stands : e.Stands tree "o" (tree.workspace ⟨"/", []⟩) ⟨"/", ["a.py"]⟩ := by
    have content : String.ofList (Text.ofUtf8Repairing [120]) = "x" := by decide
    have found : tree.read ⟨"/", ["a.py"]⟩ = .ok ([120], .ofMicros 0) := by cbv
    refine ⟨⟨"x", Digest.ofText "x", .ofMicros 0⟩, ?_, ?_⟩
    · simp only [ReadFile.of, found, content]
    · rw [root]
      rfl
  have stand : ∀ p ∈ [(⟨"/", ["a.py"]⟩ : FilePath)], e.Stands tree "o" (tree.workspace ⟨"/", []⟩) p :=
    fun p member => List.mem_singleton.mp member ▸ stands
  -- The first run has nothing to write either, so it is clean.
  have first : e.indexWorkspace (.quiet tree) 0 "o" ⟨"/", []⟩ false () = _ :=
    indexWorkspace_current calm (fun _ => rfl) named settled walks stand 0 ()
  obtain ⟨returned, clean⟩ : (e.indexWorkspace (.quiet tree) 0 "o" ⟨"/", []⟩ false ()).1 = none ∧
      run.report.Clean := by
    simp only [run, first]
    exact IndexRun.finish_calm calm settled _ _ ⟨rfl, rfl⟩
  obtain ⟨ready, config⟩ : run.engine.index.Settled ∧ run.engine.config = e.config :=
    (IndexRun.kept_config (.quiet tree) e.config).indexWorkspace
      (fun w => (calm w).inOrder.honest) ⟨settled, rfl⟩ 0 "o" ⟨"/", []⟩ false ()
  obtain ⟨returned', _, updated, skipped, _, deleted, _, _, _, files, _⟩ :=
    indexWorkspace_repeats (s := Surroundings.quiet tree) (fun w => (calm w).inOrder.honest)
      (fun _ => rfl) named settled 0 "o" ⟨"/", []⟩ false () returned clean
      calm (fun _ => rfl) ready
      (congrArg (·.scanner) config) rfl 60 [] ()
  exact ⟨clean, returned', updated, deleted, skipped, files⟩

end Engine

end CodeAtlas
