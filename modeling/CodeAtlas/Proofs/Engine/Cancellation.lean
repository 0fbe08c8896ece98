import CodeAtlas.Proofs.Engine.Report
import CodeAtlas.Proofs.Index.Table
import CodeAtlas.Proofs.Index.History
import Mathlib

/-!
# Runs that are called off

A run looks before each file whether it was called off. From then on it deals with no file, and the
sweep is left out; what it did before stays. A run that finds no file never looks, so it sweeps
even when it was called off from the start.

## Main results

`Engine.indexWorkspace_calledOff`: a run called off from the start leaves all files alone, provided
that there is a file to look at. `Engine.indexWorkspace_truncated`: a run called off after so many
files has done for these what the whole run does, and nothing else.
-/

namespace CodeAtlas

open Tables

/-- Surroundings in which a run is called off, at the latest, once so many files were dealt with.
They count the files. -/
def Surroundings.cancelledAfter {ω : Type} (s : Surroundings ω) (count : Nat) :
    Surroundings (ω × Nat) where
  conditions w :=
    { s.conditions w.1 with
      cancelled := (s.conditions w.1).cancelled || decide (count ≤ w.2) }
  react w event :=
    (s.react w.1 event, match event with
      | .finished _ => w.2 + 1
      | .changed _ => w.2)

namespace IndexRun

variable {τ σ ω : Type} {s : Surroundings ω} {goal : RunGoal} {run run' : IndexRun τ σ ω}

/-- The run without the count of its surroundings. -/
def uncounted (run : IndexRun τ σ (ω × Nat)) : IndexRun τ σ ω :=
  { run with around := run.around.1 }

/-! ### What a run leaves alone -/

theorem sameAt_dealt {path : FilePath} (settled : run.engine.index.Settled)
    (dealt : Dealt s goal path run run') {owner workspace text : String}
    (other : (goal.owner, goal.workspace.text, path.text) ≠ (owner, workspace, text)) :
    SameAt owner workspace text run.engine.index.tables run'.engine.index.tables := by
  cases dealt with
  | cancelled off after => exact after ▸ .of_eq rfl rfl rfl
  | failed embedder index f work settled' tables engine =>
    rw [engine]
    exact .of_eq (by rw [tables]) (by rw [tables]) (by rw [tables])
  | skipped embedder index read work settled' tables engine =>
    rw [engine]
    exact .of_eq (by rw [tables]) (by rw [tables]) (by rw [tables])
  | written embedder index read outline d embeddings work settled' tables engine report changed
      around given outlined draft =>
    obtain ⟨memory, forgot⟩ := Engine.forget_engine (s.conditions run.around) goal.owner
      { run.engine with embedder, index }
    rw [engine, forgot]
    show SameAt owner workspace text run.engine.index.tables index.tables
    rw [tables]
    refine sameAt_put settled.sound accepts_rowFor fun same => other ?_
    rw [← same, rowFor_key, draft]
    rfl

/-- Besides the files only the structure of the workspace is saved. -/
theorem workspaces_dealt {path : FilePath} (dealt : Dealt s goal path run run') :
    run'.engine.index.tables.workspaces = run.engine.index.tables.workspaces := by
  cases dealt with
  | cancelled off after => rw [after]; rfl
  | failed embedder index f work settled' tables engine => rw [engine, ← tables]
  | skipped embedder index read work settled' tables engine => rw [engine, ← tables]
  | written embedder index read outline d embeddings work settled' tables engine =>
    obtain ⟨memory, forgot⟩ := Engine.forget_engine (s.conditions run.around) goal.owner
      { run.engine with embedder, index }
    rw [engine, forgot]
    show index.tables.workspaces = _
    rw [tables, put_workspaces]

variable (goal) in
/-- The sweep spares the files of the walk, and the structure is saved beside the files. -/
theorem sameAt_finish (honest : ∀ w, (s.conditions w).Honest) (settled : run.engine.index.Settled)
    {files : List FilePath} {path : FilePath} (walked : path ∈ files) (unreadable : List String) :
    SameAt goal.owner goal.workspace.text path.text run.engine.index.tables
      (run.finish s goal files unreadable).2.engine.index.tables := by
  have saved {run : IndexRun τ σ ω} (settled : run.engine.index.Settled) :
      SameAt goal.owner goal.workspace.text path.text run.engine.index.tables
        (run.saveStructure s goal).engine.index.tables := by
    obtain ⟨index, workspaces, _, tables, saved, _⟩ :=
      saveStructure_cases (honest run.around) settled goal
    rw [saved]
    exact .of_eq (by rw [tables]) (by rw [tables]) (by rw [tables])
  have swept := swept_sweep (honest run.around) settled goal files unreadable
  simp only [finish]
  split
  · exact saved settled
  · generalize run.sweep s goal files unreadable = out at swept ⊢
    cases swept with
    | failed index f settled' tables =>
      exact .of_eq (congrArg (·.files) tables) (congrArg (·.chunks) tables)
        (congrArg (·.symbols) tables)
    | removed index live gone deleted settled' tables live_ =>
      have index_ := (tellAll_same s goal.owner gone
        (({ run with engine := { run.engine with index } } : IndexRun τ σ ω).reported
          fun r => { r with deleted := deleted })).1
      refine .trans ?_ (saved (index_ ▸ settled'))
      rw [index_]
      show SameAt _ _ _ run.engine.index.tables index.tables
      rw [tables]
      refine sameAt_drop settled.sound fun r found lost => ?_
      obtain ⟨member, atKey⟩ := mem_of_file? found
      have dead := ((Index.mem_doomed settled.sound member).mp lost).2.2
      have atPath : r.path = path.text := congrArg (·.2.2) atKey
      exact dead (atPath ▸ live_ path walked)

theorem honest_counted (honest : ∀ w, (s.conditions w).Honest) (count : Nat) (w : ω × Nat) :
    ((s.cancelledAfter count).conditions w).Honest :=
  ⟨(honest w.1).failing, (honest w.1).undoable⟩

/-! ### Once a run is called off -/

variable (goal) in
/-- A run that was called off reports so and removes nothing, and saves the structure of the
workspace beside the files. -/
theorem finish_cancelled (honest : ∀ w, (s.conditions w).Honest)
    (settled : run.engine.index.Settled) (off : run.report.cancelled = true)
    (files : List FilePath) (unreadable : List String) :
    (run.finish s goal files unreadable).1 = none ∧
      (run.finish s goal files unreadable).2.report = run.report ∧
      (run.finish s goal files unreadable).2.changed = run.changed ∧
      ∃ workspaces, (run.finish s goal files unreadable).2.engine.index.tables =
          { run.engine.index.tables with workspaces } ∧
        ∀ w : WorkspaceRow, w.key ≠ (goal.owner, goal.workspace.text) →
          (w ∈ workspaces ↔ w ∈ run.engine.index.tables.workspaces) := by
  obtain ⟨index, workspaces, _, tables, saved, others⟩ :=
    saveStructure_cases (honest run.around) settled goal
  simp only [finish, off, if_true, saved]
  exact ⟨trivial, trivial, trivial, workspaces, tables, others⟩

/-- What follows the files does not look whether the run was called off. -/
theorem finish_ongoing (honest : ∀ w, (s.conditions w).Honest) (settled : run.engine.index.Settled)
    (files : List FilePath) (unreadable : List String) :
    (run.finish s goal files unreadable).2.report.cancelled = run.report.cancelled := by
  have saved (run : IndexRun τ σ ω) : (run.saveStructure s goal).report = run.report := by
    simp only [saveStructure]
    split <;> rfl
  have swept := swept_sweep (honest run.around) settled goal files unreadable
  simp only [finish]
  split
  · rw [saved]
  · generalize run.sweep s goal files unreadable = out at swept ⊢
    cases swept with
    | failed index f settled' tables => rfl
    | removed index live gone deleted settled' tables =>
      have told := (tellAll_same s goal.owner gone
        (({ run with engine := { run.engine with index } } : IndexRun τ σ ω).reported
          fun r => { r with deleted := deleted })).2.1
      show (saveStructure s goal _).report.cancelled = _
      rw [saved, told]
      rfl

variable (goal) in
/-- When the walk gave nothing, the sweep leaves nothing of the workspace. -/
theorem finish_emptied (honest : ∀ w, (s.conditions w).Honest)
    (order : (s.conditions run.around).InOrder) (settled : run.engine.index.Settled)
    (ongoing : run.report.cancelled = false) :
    (run.finish s goal [] []).1 = none ∧
      (run.finish s goal [] []).2.report.deleted =
        (run.engine.index.tables.filesIn goal.owner goal.workspace.text).length ∧
      (run.finish s goal [] []).2.engine.index.tables.filesIn goal.owner goal.workspace.text = [] := by
  have swept := swept_sweep (honest run.around) settled goal [] []
  have went := sweep_returns order settled goal [] []
  simp only [finish, ongoing, Bool.false_eq_true, if_false]
  generalize run.sweep s goal [] [] = out at swept went ⊢
  cases swept with
  | failed index f settled' tables => cases went
  | removed index live gone deleted settled' tables walked kept told count =>
    -- Neither a file of the walk nor a path out of reach is live.
    have dead : ∀ p, p ∉ live := fun p member => by
      have none_ := kept p member
      simp [isUnderAny] at none_
    have all : Index.doomed goal.owner goal.workspace.text live run.engine.index.tables =
        run.engine.index.tables.filesIn goal.owner goal.workspace.text :=
      List.filter_congr fun r _ => by simp [dead]
    have same := tellAll_same s goal.owner gone
      (({ run with engine := { run.engine with index } } : IndexRun τ σ ω).reported
        fun r => { r with deleted := deleted })
    generalize gone.foldl (tell s goal.owner) _ = last at same ⊢
    obtain ⟨index_, report, _⟩ := same
    have index_ : last.engine.index = index := index_
    obtain ⟨index', workspaces, _, tables', saved, _⟩ :=
      saveStructure_cases (honest last.around) (index_.symm ▸ settled') goal
    simp only [saved]
    refine ⟨trivial, ?_, ?_⟩
    · rw [report, ← all, ← count]
      rfl
    · rw [tables', index_, tables]
      refine List.eq_nil_iff_forall_not_mem.mpr fun r left => ?_
      obtain ⟨member, own, inside⟩ := mem_filesIn.mp left
      obtain ⟨member, spared⟩ := (mem_drop r).mp member
      exact spared ((Index.mem_doomed settled.sound member).mpr ⟨own, inside, dead r.path⟩)

section Time

set_option linter.unusedSectionVars false

variable [Add τ] [Sub τ] [LE τ] [DecidableLE τ] [LT τ] [DecidableLT τ] [OfNat τ 0] {now : τ}

/-- When a run has been called off, it passes over all files that are left. -/
theorem processAll_cancelled (off : (s.conditions run.around).cancelled = true)
    {files : List FilePath} (left : files ≠ []) :
    files.foldl (process s now goal) run = run.reported fun r => { r with cancelled := true } := by
  have passes (run : IndexRun τ σ ω) (off : (s.conditions run.around).cancelled = true)
      (path : FilePath) :
      process s now goal run path = run.reported fun r => { r with cancelled := true } := by
    rw [process, if_pos off]
  induction files generalizing run with
  | nil => exact absurd rfl left
  | cons path rest ih =>
    rw [List.foldl_cons, passes run off]
    cases rest with
    | nil => rfl
    -- The surroundings are the same for the next file.
    | cons next rest => exact ih off (List.cons_ne_nil next rest)

/-! ### Until a run is called off -/

section Counted

variable {count : Nat} {run : IndexRun τ σ (ω × Nat)}

theorem conditions_counted (going : run.around.2 < count) :
    (s.cancelledAfter count).conditions run.around = s.conditions run.uncounted.around := by
  have early : decide (count ≤ run.around.2) = false := by simpa using going
  simp [Surroundings.cancelledAfter, uncounted, early]

theorem conditions_reached (reached : count ≤ run.around.2) :
    ((s.cancelledAfter count).conditions run.around).cancelled = true := by
  simp [Surroundings.cancelledAfter, reached]

theorem write_uncounted (here : (s.cancelledAfter count).conditions run.around =
      s.conditions run.uncounted.around) (path : FilePath) (entry : IndexEntry) :
    (run.write (s.cancelledAfter count) goal path entry).uncounted =
      run.uncounted.write s goal path entry := by
  obtain ⟨engine, around, report, changed⟩ := run
  simp only [uncounted] at here ⊢
  cases done : (s.conditions around.1).guardOn .upsert Outage.outcome (Index.upsert
    (s.conditions around.1).faults entry.file entry.chunks goal.force) engine.index with
  | mk outcome index =>
    simp only [write, here, done]
    cases outcome with
    | error f => rfl
    | ok outcome =>
      cases outcome with
      | unchanged => rfl
      | created =>
        simp only [tell, reported, here]
        rfl
      | updated =>
        simp only [tell, reported, here]
        rfl

/-- A file that finds the run going is dealt with as without the count. -/
theorem process_uncounted (going : run.around.2 < count)
    (path : FilePath) : (process (s.cancelledAfter count) now goal run path).uncounted =
      process s now goal run.uncounted path := by
  have here := conditions_counted (s := s) going
  obtain ⟨engine, around, report, changed⟩ := run
  cases made : engine.entry (s.conditions around.1) now goal.owner goal.workspace path goal.force with
  | mk found engine' =>
    simp only [uncounted] at here
    simp only [process, here, reported, made, uncounted]
    by_cases off : (s.conditions around.1).cancelled = true
    · simp only [off, if_true]
    · simp only [off, Bool.false_eq_true, if_false]
      cases found with
      | error f => rfl
      | ok found =>
        cases found with
        | none => rfl
        | some entry =>
          have wrote : (write (s.cancelledAfter count) goal path entry
              ⟨engine', around, report.countProcessed, changed⟩).uncounted =
                write s goal path entry ⟨engine', around.1, report.countProcessed, changed⟩ :=
            write_uncounted here path entry
          dsimp only
          rw [← wrote]
          rfl

variable (goal now) in
/-- A file that finds the run going counts, for the surroundings and in the report. -/
theorem process_counted (honest : ∀ w, (s.conditions w).Honest)
    (ongoing : ∀ w, (s.conditions w).cancelled = false) (settled : run.engine.index.Settled)
    (going : run.around.2 < count) (path : FilePath) :
    (process (s.cancelledAfter count) now goal run path).around.2 = run.around.2 + 1 ∧
      (process (s.cancelledAfter count) now goal run path).report.processed =
        run.report.processed + 1 ∧
      (process (s.cancelledAfter count) now goal run path).engine.index.Settled := by
  have dealt : Dealt (s.cancelledAfter count) goal path run
      (process (s.cancelledAfter count) now goal run path) :=
    dealt_process (honest_counted honest count run.around) settled path
  refine and_assoc.mp ⟨?_, dealt.settled settled⟩
  cases dealt with
  | cancelled off =>
    rw [conditions_counted going] at off
    exact absurd off (by simp [ongoing])
  | failed embedder index f work settled' tables engine report changed around =>
    exact ⟨congrArg (·.2) around, congrArg (·.processed) report⟩
  | skipped embedder index read work settled' tables engine report changed around =>
    exact ⟨congrArg (·.2) around, congrArg (·.processed) report⟩
  | written embedder index read outline d embeddings work settled' tables engine report changed
      around =>
    exact ⟨congrArg (·.2) around, congrArg (·.processed) report⟩

variable (goal now) in
/-- Files that all find the run going are dealt with as without the count, and are counted. -/
theorem processAll_counted (honest : ∀ w, (s.conditions w).Honest)
    (ongoing : ∀ w, (s.conditions w).cancelled = false) (settled : run.engine.index.Settled)
    {files : List FilePath} (going : run.around.2 + files.length ≤ count) :
    (files.foldl (process (s.cancelledAfter count) now goal) run).uncounted =
        files.foldl (process s now goal) run.uncounted ∧
      (files.foldl (process (s.cancelledAfter count) now goal) run).around.2 =
        run.around.2 + files.length ∧
      (files.foldl (process (s.cancelledAfter count) now goal) run).report.processed =
        run.report.processed + files.length := by
  induction files generalizing run with
  | nil => simp
  | cons path rest ih =>
    rw [List.length_cons] at going
    have first : run.around.2 < count := by omega
    obtain ⟨around, processed, settled'⟩ :=
      process_counted goal now honest ongoing settled first path
    obtain ⟨same, around', processed'⟩ := ih settled' (by omega)
    simp only [List.foldl_cons, List.length_cons, same, process_uncounted first, around', around,
      processed', processed, true_and]
    omega

end Counted

variable (goal now) in
/-- A run that is cut off after some files has dealt with these as without the count, and has only
noted since that it was called off. -/
theorem processAll_truncated {count : Nat} {run : IndexRun τ σ (ω × Nat)}
    (honest : ∀ w, (s.conditions w).Honest) (ongoing : ∀ w, (s.conditions w).cancelled = false)
    (settled : run.engine.index.Settled) (start : run.around.2 = 0) {files : List FilePath}
    (fewer : count < files.length) : ∃ cut : IndexRun τ σ (ω × Nat),
      files.foldl (process (s.cancelledAfter count) now goal) run =
        cut.reported (fun r => { r with cancelled := true }) ∧
      cut.uncounted = (files.take count).foldl (process s now goal) run.uncounted ∧
      cut.report.processed = run.report.processed + count ∧ cut.engine.index.Settled := by
  have length : (files.take count).length = count := List.length_take_of_le (by omega)
  have going : run.around.2 + (files.take count).length ≤ count := by omega
  obtain ⟨same, around, processed⟩ := processAll_counted goal now honest ongoing settled going
  refine ⟨(files.take count).foldl (process (s.cancelledAfter count) now goal) run, ?_, same, ?_,
    settled_processAll (honest_counted honest count) now goal _ settled⟩
  · -- All files that are left find the run called off.
    have left : files.drop count ≠ [] := by
      rw [ne_eq, List.drop_eq_nil_iff]
      omega
    have reached : count ≤ ((files.take count).foldl
        (process (s.cancelledAfter count) now goal) run).around.2 := by omega
    rw [← processAll_cancelled (conditions_reached reached) left, ← List.foldl_append,
      List.take_append_drop]
  · rw [processed, length]

variable (goal now) in
/-- Files leave all others alone. -/
theorem sameAt_processAll (honest : ∀ w, (s.conditions w).Honest)
    (settled : run.engine.index.Settled) (files : List FilePath) {owner workspace text : String}
    (other : ∀ p ∈ files, (goal.owner, goal.workspace.text, p.text) ≠ (owner, workspace, text)) :
    SameAt owner workspace text run.engine.index.tables
      (files.foldl (process s now goal) run).engine.index.tables := by
  induction files generalizing run with
  | nil => exact .of_eq rfl rfl rfl
  | cons path rest ih =>
    have dealt : Dealt s goal path run (process s now goal run path) :=
      dealt_process (honest run.around) settled path
    exact (sameAt_dealt settled dealt (other path List.mem_cons_self)).trans
      (ih (dealt.settled settled) fun p member => other p (List.mem_cons_of_mem _ member))

variable (goal now) in
theorem workspaces_processAll (honest : ∀ w, (s.conditions w).Honest)
    (settled : run.engine.index.Settled) (files : List FilePath) :
    (files.foldl (process s now goal) run).engine.index.tables.workspaces =
      run.engine.index.tables.workspaces := by
  induction files generalizing run with
  | nil => rfl
  | cons path rest ih =>
    have dealt : Dealt s goal path run (process s now goal run path) :=
      dealt_process (honest run.around) settled path
    exact (ih (dealt.settled settled)).trans (workspaces_dealt dealt)

variable (goal now) in
/-- A run that is cut off before the last file leaves of the first files what the whole run leaves,
and of all others what was there before. -/
theorem finish_truncated {count : Nat} {run : IndexRun τ σ (ω × Nat)}
    (honest : ∀ w, (s.conditions w).Honest) (ongoing : ∀ w, (s.conditions w).cancelled = false)
    (settled : run.engine.index.Settled) (start : run.around.2 = 0) {files : List FilePath}
    (distinct : (files.map (·.text)).Nodup) (fewer : count < files.length)
    (unreadable : List String) :
    let last := files.foldl (process (s.cancelledAfter count) now goal) run
    let out := last.finish (s.cancelledAfter count) goal files unreadable
    let whole := (files.foldl (process s now goal) run.uncounted).finish s goal files unreadable
    let after := out.2.engine.index.tables
    out.1 = none ∧ out.2.report = last.report ∧ last.report.cancelled = true ∧
      last.report.processed = run.report.processed + count ∧
      (∀ p ∈ files.take count, SameAt goal.owner goal.workspace.text p.text after
        whole.2.engine.index.tables) ∧
      (∀ owner workspace path,
        (∀ p ∈ files.take count, (goal.owner, goal.workspace.text, p.text) ≠ (owner, workspace, path)) →
          SameAt owner workspace path run.engine.index.tables after) ∧
      ∀ row : WorkspaceRow, row.key ≠ (goal.owner, goal.workspace.text) →
        (row ∈ after.workspaces ↔ row ∈ run.engine.index.tables.workspaces) := by
  intro last out whole after
  obtain ⟨cut, all, same, processed, settled'⟩ :=
    processAll_truncated goal now honest ongoing settled start fewer
  have off : (cut.reported fun r => { r with cancelled := true }).engine.index.Settled := settled'
  obtain ⟨returned, report, _, workspaces, tables, others⟩ := finish_cancelled goal
    (honest_counted honest count) off rfl files unreadable
  simp only [after, out, last, all]
  generalize (cut.reported fun r => { r with cancelled := true }).finish (s.cancelledAfter count) goal
    files unreadable = out at returned report tables ⊢
  have first : cut.engine.index.tables =
      ((files.take count).foldl (process s now goal) run.uncounted).engine.index.tables :=
    congrArg (·.engine.index.tables) same
  have files_ : out.2.engine.index.tables.files = cut.engine.index.tables.files :=
    congrArg (·.files) tables
  have chunks : out.2.engine.index.tables.chunks = cut.engine.index.tables.chunks :=
    congrArg (·.chunks) tables
  have symbols : out.2.engine.index.tables.symbols = cut.engine.index.tables.symbols :=
    congrArg (·.symbols) tables
  have settled₀ : run.uncounted.engine.index.Settled := settled
  refine ⟨returned, report, rfl, processed, ?_, ?_, ?_⟩
  · -- The whole run goes on with the other files and then sweeps, and neither concerns these.
    intro p among
    have settledFirst := settled_processAll honest now goal (files.take count) settled₀
    have member : p ∈ files := List.mem_of_mem_take among
    have rest : ∀ q ∈ files.drop count,
        (goal.owner, goal.workspace.text, q.text) ≠ (goal.owner, goal.workspace.text, p.text) := by
      intro q later same
      rw [← List.take_append_drop count files, List.map_append, List.nodup_append] at distinct
      exact distinct.2.2 _ (List.mem_map_of_mem among) _ (List.mem_map_of_mem later)
        (congrArg (·.2.2) same).symm
    have further := sameAt_processAll goal now honest settledFirst _ rest
    rw [← List.foldl_append, List.take_append_drop, ← first] at further
    have swept := sameAt_finish goal honest
      (settled_processAll honest now goal files settled₀) member unreadable
    exact .trans (.of_eq files_.symm chunks.symm symbols.symm) (further.trans swept)
  · intro owner workspace path other
    have same := sameAt_processAll goal now honest settled₀ _ other
    rw [← first] at same
    exact same.trans (.of_eq files_ chunks symbols)
  · intro row other
    have kept := workspaces_processAll goal now honest settled₀ (files.take count)
    rw [← first] at kept
    rw [tables]
    exact (others row other).trans (iff_of_eq (congrArg (row ∈ ·) kept))

end Time

end IndexRun

namespace Engine

variable {τ σ ω : Type}
variable [Add τ] [Sub τ] [LE τ] [DecidableLE τ] [LT τ] [DecidableLT τ] [OfNat τ 0]

/-- A run that was called off before it starts leaves all files, chunks and symbols alone, as soon
as the walk finds a file. When it finds none, the run does not notice that it was called off. -/
theorem indexWorkspace_calledOff {s : Surroundings ω} (honest : ∀ w, (s.conditions w).Honest)
    {w : ω} (off : (s.conditions w).cancelled = true) (named : (s.conditions w).tree.Named)
    {e : Engine τ σ} (settled : e.index.Settled) {root : FilePath} {walk : Walk}
    (started : Walk.start e.config.scanner (s.conditions w).tree root = .ok walk) (now : τ)
    (owner : String) (force : Bool) :
    let out := e.indexWorkspace s now owner root force w
    (out.2.report.cancelled = true ↔ (walk.drain (s.conditions w).tree).1 ≠ []) ∧
      ((walk.drain (s.conditions w).tree).1 ≠ [] →
        out.1 = none ∧ out.2.report.deleted = 0 ∧ out.2.changed = [] ∧
          out.2.engine.index.tables.files = e.index.tables.files ∧
          out.2.engine.index.tables.chunks = e.index.tables.chunks ∧
          out.2.engine.index.tables.symbols = e.index.tables.symbols) := by
  intro out
  cases drained : walk.drain (s.conditions w).tree with | mk files left =>
  have went := IndexRun.indexWorkspace_eq named started drained now owner force
  simp only [out, went]
  have start : (IndexRun.atStart e w left.faults).engine.index.Settled := settled
  by_cases found : files = []
  · subst found
    rw [List.foldl_nil, IndexRun.finish_ongoing honest start]
    simp [IndexRun.atStart]
  · have off' : (s.conditions (IndexRun.atStart e w left.faults).around).cancelled = true := off
    rw [IndexRun.processAll_cancelled off' found]
    have settled' : ((IndexRun.atStart e w left.faults).reported
        fun r => { r with cancelled := true }).engine.index.Settled := settled
    obtain ⟨returned, report, changed, workspaces, tables, _⟩ := IndexRun.finish_cancelled
      ⟨owner, (s.conditions w).tree.workspace root, force⟩ honest settled' rfl files
      (left.faults.map (·.path))
    rw [report, changed, tables]
    exact ⟨iff_of_true rfl found, fun _ => ⟨returned, rfl, rfl, rfl, rfl, rfl⟩⟩

/-- A file that is not in the tree any more survives a run that was called off. -/
theorem indexWorkspace_calledOff_vanished :
    let f : IndexedFile := {
      owner := "o", workspace := "/", path := "/a.py", relativePath := "a.py", name := "a.py"
      extension := "py", language := .python, content := "x", contentHash := ""
      indexedAt := Timestamp.ofMicros 0 }
    let scanner : ScanConfig := ⟨[], ["py"], [], ".ignored", 100⟩
    let e : Engine Int Unit :=
      create (fun _ => 300) { EngineConfig.standard with scanner } .standard none ()
        (Index.replay 0 [⟨.file f [] false, Faults.none, Faults.none_undoable, 0⟩]).2
    let tree : Tree := ⟨.dir [("b.py", .file [120] (.ofMicros 0))]⟩
    let off : Conditions := { tree, cancelled := true }
    let out := e.indexWorkspace ⟨fun _ => off, fun w _ => w⟩ 0 "o" ⟨"/", []⟩ false ()
    out.2.report.cancelled = true ∧ out.1 = none ∧ out.2.report.deleted = 0 ∧
      out.2.changed = [] ∧ e.index.tables.files.length = 1 ∧
      out.2.engine.index.tables.files = e.index.tables.files := by
  intro f scanner e tree off out
  have order : off.InOrder := ⟨fun _ => rfl, rfl⟩
  let walk : Walk := ⟨scanner, ⟨"/", []⟩, {}, none, [⟨"/", []⟩], []⟩
  have started : Walk.start scanner tree ⟨"/", []⟩ = .ok walk := by cbv
  have found : (walk.drain tree).1 = [⟨"/", ["b.py"]⟩] := by cbv
  have some_ : (walk.drain tree).1 ≠ [] := by
    rw [found]
    exact List.cons_ne_nil _ _
  obtain ⟨cancelled, frame⟩ := indexWorkspace_calledOff (s := ⟨fun _ => off, fun w _ => w⟩)
    (fun _ => order.honest) (w := ()) rfl (by decide) (e := e) (Index.replay_settled 0 _) started 0
    "o" false
  obtain ⟨returned, deleted, changed, files, _, _⟩ := frame some_
  exact ⟨cancelled.mpr some_, returned, deleted, changed, rfl, files⟩

/-- A run that finds no file removes all files of the workspace, also when it was called off. -/
theorem indexWorkspace_emptied {s : Surroundings ω} (honest : ∀ w, (s.conditions w).Honest) {w : ω}
    (order : (s.conditions w).InOrder) (named : (s.conditions w).tree.Named) {e : Engine τ σ}
    (settled : e.index.Settled) {root : FilePath}
    (walks : (s.conditions w).tree.Walks e.config.scanner root []) (now : τ) (owner : String)
    (force : Bool) :
    let workspace := (s.conditions w).tree.workspace root
    let out := e.indexWorkspace s now owner root force w
    out.1 = none ∧ out.2.report.cancelled = false ∧
      out.2.report.deleted = (e.index.tables.filesIn owner workspace.text).length ∧
      out.2.engine.index.tables.filesIn owner workspace.text = [] := by
  intro workspace out
  obtain ⟨walk, left, started, drained, faultless⟩ := walks
  have went := IndexRun.indexWorkspace_eq named started drained now owner force
  simp only [out, went, faultless, List.foldl_nil, List.map_nil]
  have start : (IndexRun.atStart e w []).engine.index.Settled := settled
  obtain ⟨returned, deleted, left⟩ := IndexRun.finish_emptied ⟨owner, workspace, force⟩ honest
    order start rfl
  exact ⟨returned, IndexRun.finish_ongoing honest start [] [], deleted, left⟩

/-- A run that is called off before it starts and finds no file: the one file that was stored is
removed, and the report says nothing of the cancellation. -/
theorem indexWorkspace_calledOff_emptied :
    let f : IndexedFile := {
      owner := "o", workspace := "/", path := "/a.py", relativePath := "a.py", name := "a.py"
      extension := "py", language := .python, content := "x", contentHash := ""
      indexedAt := Timestamp.ofMicros 0 }
    let e : Engine Int Unit := create (fun _ => 300) .standard .standard none ()
      (Index.replay 0 [⟨.file f [] false, Faults.none, Faults.none_undoable, 0⟩]).2
    let off : Conditions := { tree := ⟨.dir []⟩, cancelled := true }
    let out := e.indexWorkspace ⟨fun _ => off, fun w _ => w⟩ 0 "o" ⟨"/", []⟩ false ()
    out.1 = none ∧ out.2.report.cancelled = false ∧ out.2.report.deleted = 1 ∧
      (e.index.tables.filesIn "o" "/").length = 1 ∧
      out.2.engine.index.tables.filesIn "o" "/" = [] := by
  intro f e off out
  have order : off.InOrder := ⟨fun _ => rfl, rfl⟩
  have workspace : (off.tree.workspace ⟨"/", []⟩).text = "/" := by cbv
  have one : (e.index.tables.filesIn "o" "/").length = 1 := rfl
  obtain ⟨returned, ongoing, deleted, left⟩ := indexWorkspace_emptied
    (s := ⟨fun _ => off, fun w _ => w⟩) (fun _ => order.honest) (w := ()) order (by decide) (e := e) (Index.replay_settled 0 _)
    (.nothing e.config.scanner) 0 "o" false
  rw [workspace] at deleted left
  exact ⟨returned, ongoing, deleted.trans (congrArg _ one), one, left⟩

/-- A run that is called off after some files, before the last, says so and counts these. It has
left for them what the whole run leaves, and has changed and removed nothing else. -/
theorem indexWorkspace_truncated {s : Surroundings ω} (honest : ∀ w, (s.conditions w).Honest)
    (ongoing : ∀ w, (s.conditions w).cancelled = false) {w : ω}
    (named : (s.conditions w).tree.Named) (distinct : (s.conditions w).tree.Distinct)
    {e : Engine τ σ} (settled : e.index.Settled) {root : FilePath} {walk : Walk}
    (started : Walk.start e.config.scanner (s.conditions w).tree root = .ok walk) {count : Nat}
    (fewer : count < (walk.drain (s.conditions w).tree).1.length) (now : τ) (owner : String)
    (force : Bool) :
    let workspace := (s.conditions w).tree.workspace root
    let first := (walk.drain (s.conditions w).tree).1.take count
    let out := e.indexWorkspace (s.cancelledAfter count) now owner root force (w, 0)
    let whole := e.indexWorkspace s now owner root force w
    let before := e.index.tables
    let after := out.2.engine.index.tables
    out.1 = none ∧ out.2.report.cancelled = true ∧ out.2.report.processed = count ∧
      out.2.report.deleted = 0 ∧ before.removedSince after = [] ∧
      (∀ p ∈ first, SameAt owner workspace.text p.text after whole.2.engine.index.tables) ∧
      (∀ owner' workspace' path,
        (∀ p ∈ first, (owner, workspace.text, p.text) ≠ (owner', workspace', path)) →
          SameAt owner' workspace' path before after) ∧
      ∀ row : WorkspaceRow, row.key ≠ (owner, workspace.text) →
        (row ∈ after.workspaces ↔ row ∈ before.workspaces) := by
  intro workspace first out whole before after
  have honest' := IndexRun.honest_counted honest count
  have texts := Walk.nodup_drain named distinct started
  have restricting := (Walk.named_start named started).1.text_ne
  cases drained : walk.drain (s.conditions w).tree with | mk files left =>
  simp only [first, drained] at fewer texts ⊢
  have tree : ((s.cancelledAfter count).conditions (w, 0)).tree.Named := named
  let goal : RunGoal := ⟨owner, workspace, force⟩
  let run : IndexRun τ σ (ω × Nat) := .atStart e (w, 0) left.faults
  have settled' : run.engine.index.Settled := settled
  have cut : out = (files.foldl (IndexRun.process (s.cancelledAfter count) now goal) run).finish
      (s.cancelledAfter count) goal files (left.faults.map (·.path)) :=
    IndexRun.indexWorkspace_eq (s := s.cancelledAfter count) tree started drained now owner force
  have uncut : whole = (files.foldl (IndexRun.process s now goal) run.uncounted).finish s goal
      files (left.faults.map (·.path)) :=
    IndexRun.indexWorkspace_eq named started drained now owner force
  obtain ⟨returned, report, off, processed, agree, other, workspaces⟩ :=
    IndexRun.finish_truncated goal now honest ongoing settled' rfl texts fewer
      (left.faults.map (·.path))
  obtain ⟨rows, tallied⟩ := IndexRun.tallied_processAll honest' settled.sound now files
    ((List.nil_append _).symm ▸ texts)
    (IndexRun.tallied_atStart settled goal (w, 0) left.faults)
  rw [List.nil_append] at tallied
  have accounts := IndexRun.accounts_finish honest' settled.sound restricting tallied _ returned
  rw [← cut] at returned report agree other workspaces accounts
  rw [← uncut] at agree
  have kept : out.2.report.deleted = 0 := by
    rw [report]
    exact tallied.deleted
  refine ⟨returned, by rw [report]; exact off, ?_, kept, ?_, agree, other, workspaces⟩
  · have none_ : run.report.processed = 0 := rfl
    rw [report, processed, none_, Int.zero_add]
  · have none_ := accounts.deleted.symm.trans kept
    exact List.length_eq_zero_iff.mp (Int.ofNat_eq_zero.mp none_)

/-- Of two files the first is dealt with, and the other is left. -/
theorem indexWorkspace_truncated_first :
    let tree : Tree :=
      ⟨.dir [("a.py", .file [120] (.ofMicros 0)), ("b.py", .file [121] (.ofMicros 0))]⟩
    let s := Surroundings.quiet tree
    let scanner : ScanConfig := ⟨[], ["py"], [], ".ignored", 100⟩
    let e : Engine Int Unit :=
      create (fun _ => 300) { EngineConfig.standard with scanner } .standard none () { clock := 0 }
    let out := e.indexWorkspace (s.cancelledAfter 1) 0 "o" ⟨"/", []⟩ false ((), 0)
    let whole := e.indexWorkspace s 0 "o" ⟨"/", []⟩ false ()
    out.1 = none ∧ out.2.report.cancelled = true ∧ out.2.report.processed = 1 ∧
      SameAt "o" (tree.workspace ⟨"/", []⟩).text "/a.py" out.2.engine.index.tables
        whole.2.engine.index.tables ∧
      SameAt "o" (tree.workspace ⟨"/", []⟩).text "/b.py" e.index.tables
        out.2.engine.index.tables := by
  intro tree s scanner e out whole
  let walk : Walk := ⟨scanner, ⟨"/", []⟩, {}, none, [⟨"/", []⟩], []⟩
  have started : Walk.start scanner tree ⟨"/", []⟩ = .ok walk := by cbv
  have found : (walk.drain tree).1 = [⟨"/", ["a.py"]⟩, ⟨"/", ["b.py"]⟩] := by cbv
  have fewer : 1 < (walk.drain tree).1.length := by
    rw [found]
    exact Nat.one_lt_two
  obtain ⟨returned, cancelled, processed, _, _, agree, other, _⟩ := indexWorkspace_truncated (s := s)
    (fun w => (Surroundings.calm_quiet tree w).inOrder.honest) (fun _ => rfl) (w := ()) (by decide)
    (by decide) (e := e) (Index.settled_empty 0) started fewer 0 "o" false
  have here : (s.conditions ()).tree = tree := rfl
  rw [here, found] at agree other
  refine ⟨returned, cancelled, processed, ?_, ?_⟩
  · have first : (⟨"/", ["a.py"]⟩ : FilePath).text = "/a.py" := by decide
    exact first ▸ agree ⟨"/", ["a.py"]⟩ (List.mem_singleton.mpr rfl)
  · refine other "o" _ "/b.py" fun p among same => ?_
    rw [List.mem_singleton.mp among] at same
    have apart : (⟨"/", ["a.py"]⟩ : FilePath).text ≠ "/b.py" := by decide
    exact apart (congrArg (·.2.2) same)

end Engine

end CodeAtlas
