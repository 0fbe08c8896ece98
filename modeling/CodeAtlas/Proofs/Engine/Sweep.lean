import CodeAtlas.Proofs.Engine.Cancellation

/-!
# What the sweep removes

The sweep removes the files of the workspace that the walk did not give, except those that stand at
or below a path that could not be inspected. Below is meant by whole components: a sibling whose
name only starts alike is not below.

## Main results

`IndexRun.sweep_drops`: a sweep that goes through drops just the stale rows.
`Engine.indexWorkspace_sweeps`: of all that was stored before a run, just the stale rows are gone
after it, and all else is as the files left it.
-/

namespace CodeAtlas

open Tables

namespace IndexRun

/-! ### Paths below others -/

/-- The components of a path, as it is stored: what stands between its slashes. -/
def components (path : String) : List (List Char) :=
  path.toList.splitOn '/'

/-- A path as it is stored, without slashes at its end. -/
def bare (path : String) : String :=
  String.ofList (Text.dropTrailing '/' path.toList)

/-- A path is a root, or its components go on after those of the root. -/
def LiesUnder (root path : String) : Prop :=
  path = root ∨ ∃ name rest, components path = components (bare root) ++ name :: rest

private theorem intercalate_append (sep : Char) {first : List (List Char)} (some_ : first ≠ [])
    (name : List Char) (rest : List (List Char)) :
    [sep].intercalate (first ++ name :: rest) =
      [sep].intercalate first ++ sep :: [sep].intercalate (name :: rest) := by
  induction first with
  | nil => exact absurd rfl some_
  | cons l first ih =>
    cases first with
    | nil => simp [List.intercalate_cons_cons]
    | cons next first =>
      have shorter := ih (List.cons_ne_nil next first)
      simp only [List.cons_append, List.intercalate_cons_cons, List.append_assoc] at shorter ⊢
      rw [shorter]

/-- What starts with a path and a slash are the paths whose components go on after its own. -/
theorem isPrefixOf_slash {base path : String} : (base ++ "/").isPrefixOf path = true ↔
    ∃ name rest, components path = components base ++ name :: rest := by
  rw [String.isPrefixOf, String.startsWith_string_iff, String.toList_append]
  constructor
  · rintro ⟨rest, joined⟩
    have parted : components path = components base ++ List.splitOn '/' rest := by
      rw [components, ← joined, List.append_assoc]
      exact List.splitOn_append_cons_self _ _
    cases pieces : List.splitOn '/' rest with
    | nil => exact absurd pieces (List.splitOn_ne_nil '/' rest)
    | cons name rest' => exact ⟨name, rest', pieces ▸ parted⟩
  · rintro ⟨name, rest, parted⟩
    -- The path is its components with slashes between them.
    have joined (p : String) : ['/'].intercalate (components p) = p.toList :=
      List.intercalate_splitOn '/'
    have apart := intercalate_append '/' (List.splitOn_ne_nil '/' base.toList) name rest
    rw [show List.splitOn '/' base.toList = components base from rfl, ← parted, joined, joined]
      at apart
    rw [apart]
    exact ⟨['/'].intercalate (name :: rest), List.append_assoc _ _ _⟩

theorem isUnderAny_iff {roots : List String} {path : String} :
    isUnderAny roots path = true ↔ ∃ root ∈ roots, LiesUnder root path := by
  simp only [isUnderAny, List.any_eq_true, Bool.or_eq_true, beq_iff_eq, LiesUnder]
  exact exists_congr fun root => and_congr_right fun _ => or_congr_right isPrefixOf_slash

/-- A sibling whose name only starts with that of the root does not lie under it. -/
theorem not_liesUnder_sibling (root more : String) (proper : bare root = root) (some_ : more ≠ "")
    (name : '/' ∉ more.toList) : ¬ LiesUnder root (root ++ more) := by
  rintro (same | below)
  · have length := congrArg (fun path => path.toList.length) same
    simp only [String.toList_append, List.length_append] at length
    have empty : more.toList = [] := List.length_eq_zero_iff.mp (by omega)
    exact some_ (String.toList_inj.mp empty)
  · rw [proper, ← isPrefixOf_slash, String.isPrefixOf, String.startsWith_string_iff,
      String.toList_append, String.toList_append, List.prefix_append_right_inj] at below
    exact name (below.subset List.mem_cons_self)

/-! ### Stale rows -/

/-- The sweep of a goal has to remove what is stored under a key: it belongs to the workspace of the
owner, the walk did not give it, and it lies under no path that could not be inspected. -/
structure Stale (goal : RunGoal) (files : List FilePath) (unreadable : List String)
    (key : String × String × String) : Prop where
  own : key.1 = goal.owner
  inside : key.2.1 = goal.workspace.text
  unwalked : key.2.2 ∉ files.map (·.text)
  inspected : ∀ root ∈ unreadable, ¬ LiesUnder root key.2.2

variable {τ σ ω : Type} {s : Surroundings ω} {goal : RunGoal} {files : List FilePath}
  {unreadable : List String} {run run' : IndexRun τ σ ω}

/-- A sweep that goes through drops the stale rows and leaves all others. -/
theorem sweep_drops (honest : (s.conditions run.around).Honest)
    (settled : run.engine.index.Settled) (went : (run.sweep s goal files unreadable).1 = none) :
    ∃ stale : List FileRow,
      (∀ r, r ∈ stale ↔ r ∈ run.engine.index.tables.files ∧ Stale goal files unreadable r.key) ∧
      (run.sweep s goal files unreadable).2.engine.index.Settled ∧
      (run.sweep s goal files unreadable).2.engine.index.tables =
        run.engine.index.tables.drop (stale.map (·.id)) := by
  have swept := swept_sweep honest settled goal files unreadable
  generalize run.sweep s goal files unreadable = out at swept went ⊢
  cases swept with
  | failed index f settled' tables => cases went
  | removed index live gone deleted settled' tables walked kept told count paths spared =>
    have same := (tellAll_same s goal.owner gone
      (({ run with engine := { run.engine with index } } : IndexRun τ σ ω).reported
        fun r => { r with deleted := deleted })).1
    refine ⟨_, fun r => ?_, same ▸ settled', (congrArg (·.tables) same).trans tables⟩
    rw [Index.mem_doomed_iff]
    refine and_congr_right fun member => ?_
    constructor
    · rintro ⟨own, inside, dead⟩
      refine ⟨own, inside, fun given => ?_, fun root out below => ?_⟩
      · obtain ⟨p, given, text⟩ := List.mem_map.mp given
        have text : p.text = r.path := text
        exact dead (text ▸ walked p given)
      · exact dead (spared r member own inside (isUnderAny_iff.mpr ⟨root, out, below⟩))
    · rintro ⟨own, inside, unwalked, inspected⟩
      refine ⟨own, inside, fun alive => ?_⟩
      rcases kept r.path alive with given | under
      · exact unwalked given
      · obtain ⟨root, out, below⟩ := isUnderAny_iff.mp under
        exact inspected root out below

variable (goal files unreadable) in
/-- A run that was not called off finishes in one of two ways: it drops the stale rows, or it fails
and drops nothing. -/
theorem finish_drops (honest : ∀ w, (s.conditions w).Honest) (settled : run.engine.index.Settled)
    (ongoing : run.report.cancelled = false) : ∃ (stale : List FileRow) (workspaces : _),
      ((run.finish s goal files unreadable).1 = none → ∀ r, r ∈ stale ↔
        r ∈ run.engine.index.tables.files ∧ Stale goal files unreadable r.key) ∧
      ((run.finish s goal files unreadable).1 ≠ none → stale = []) ∧
      (run.finish s goal files unreadable).2.engine.index.tables =
        { run.engine.index.tables.drop (stale.map (·.id)) with workspaces } := by
  simp only [finish, ongoing, Bool.false_eq_true, if_false]
  cases went : (run.sweep s goal files unreadable).1 with
  | some f =>
    have swept := swept_sweep (honest run.around) settled goal files unreadable
    generalize run.sweep s goal files unreadable = out at swept went ⊢
    cases swept with
    | failed index f settled' tables =>
      refine ⟨[], run.engine.index.tables.workspaces, ?_, fun _ => rfl, ?_⟩
      · intro returned
        cases returned
      · rw [List.map_nil, drop_nil]
        exact tables
    | removed => cases went
  | none =>
    obtain ⟨stale, exact_, settled', tables⟩ := sweep_drops (honest run.around) settled went
    generalize run.sweep s goal files unreadable = out at went settled' tables ⊢
    obtain ⟨_, last⟩ := out
    cases went
    obtain ⟨index, workspaces, _, saved, ran, _⟩ :=
      saveStructure_cases (honest last.around) settled' goal
    refine ⟨stale, workspaces, fun _ => exact_, fun other => absurd rfl other, ?_⟩
    simp only [ran]
    rw [saved]
    exact congrArg (fun t : Tables => { t with workspaces }) tables

variable (goal files unreadable) in
/-- Once a run that was not called off is finished, the stale rows are gone with all that belongs to
them. All else stays as it is, and when the sweep fails all does. -/
theorem finish_sweeps (honest : ∀ w, (s.conditions w).Honest) (settled : run.engine.index.Settled)
    (ongoing : run.report.cancelled = false) :
    let out := run.finish s goal files unreadable
    let before := run.engine.index.tables
    let after := out.2.engine.index.tables
    (out.1 = none → ∀ r ∈ before.files, Stale goal files unreadable r.key →
      after.file? r.owner r.workspace r.path = none ∧
        (∀ c ∈ after.chunks, c.file ≠ r.id) ∧ ∀ u ∈ after.symbols, u.file ≠ r.id) ∧
    ∀ owner workspace path,
      (out.1 = none → ¬ Stale goal files unreadable (owner, workspace, path)) →
        SameAt owner workspace path before after := by
  intro out before after
  obtain ⟨stale, workspaces, exact_, spared, tables⟩ :=
    finish_drops goal files unreadable honest settled ongoing
  have files_ : after.files = (before.drop (stale.map (·.id))).files := congrArg (·.files) tables
  have chunks : after.chunks = (before.drop (stale.map (·.id))).chunks :=
    congrArg (·.chunks) tables
  have symbols : after.symbols = (before.drop (stale.map (·.id))).symbols :=
    congrArg (·.symbols) tables
  refine ⟨fun returned r member dead => ?_, fun owner workspace path alive => ?_⟩
  · have lost : r.id ∈ stale.map (·.id) :=
      List.mem_map_of_mem ((exact_ returned r).mpr ⟨member, dead⟩)
    refine ⟨?_, fun c left same => ?_, fun u left same => ?_⟩
    · refine file?_eq_none_iff.mpr fun r' left atKey => ?_
      -- The row was the only one of its key.
      obtain ⟨member', kept⟩ := (mem_drop r').mp (files_ ▸ left)
      exact kept (settled.sound.eq_of_key member' member atKey ▸ lost)
    · rw [chunks, drop, List.mem_filter, same] at left
      simp [lost] at left
    · rw [symbols, drop, List.mem_filter, same] at left
      simp [lost] at left
  · have kept : SameAt owner workspace path before (before.drop (stale.map (·.id))) := by
      refine sameAt_drop settled.sound fun r found lost => ?_
      obtain ⟨member, atKey⟩ := mem_of_file? found
      obtain ⟨r', among, same⟩ := List.mem_map.mp lost
      by_cases returned : out.1 = none
      · obtain ⟨member', dead⟩ := (exact_ returned r').mp among
        rw [settled.sound.eq_of_id member' member same, atKey] at dead
        exact alive returned dead
      · rw [spared returned] at among
        exact absurd among List.not_mem_nil
    exact kept.trans (.of_eq files_ chunks symbols)

/-! ### What files leave in place -/

/-- A file that is stored stays so, whatever a run does with other files or with this one. -/
theorem present_dealt {path : FilePath} (settled : run.engine.index.Settled)
    (dealt : Dealt s goal path run run') {owner workspace text : String}
    (present : (run.engine.index.tables.file? owner workspace text).isSome = true) :
    (run'.engine.index.tables.file? owner workspace text).isSome = true := by
  by_cases own : (goal.owner, goal.workspace.text, path.text) = (owner, workspace, text)
  · cases dealt with
    | cancelled off after => exact after ▸ present
    | failed embedder index f work settled' tables engine =>
      rw [engine]
      exact tables ▸ present
    | skipped embedder index read work settled' tables engine =>
      rw [engine]
      exact tables ▸ present
    | written embedder index read outline d embeddings work settled' tables engine =>
      obtain ⟨memory, forgot⟩ := Engine.forget_engine (s.conditions run.around) goal.owner
        { run.engine with embedder, index }
      rw [engine, forgot]
      show (index.tables.file? owner workspace text).isSome = true
      rw [tables, file?_put settled.sound accepts_rowFor]
      split
      · rfl
      · exact present
  · rw [(sameAt_dealt settled dealt own).file]
    exact present

section Time

set_option linter.unusedSectionVars false

variable [Add τ] [Sub τ] [LE τ] [DecidableLE τ] [LT τ] [DecidableLT τ] [OfNat τ 0]

theorem present_processAll (honest : ∀ w, (s.conditions w).Honest) (now : τ) (goal : RunGoal)
    (files : List FilePath) (settled : run.engine.index.Settled) {owner workspace text : String}
    (present : (run.engine.index.tables.file? owner workspace text).isSome = true) :
    ((files.foldl (process s now goal) run).engine.index.tables.file?
      owner workspace text).isSome = true := by
  induction files generalizing run with
  | nil => exact present
  | cons path rest ih =>
    have dealt : Dealt s goal path run (process s now goal run path) :=
      dealt_process (honest run.around) settled path
    exact ih (dealt.settled settled) (present_dealt settled dealt present)

/-- A run that nothing calls off does not report that it was. -/
theorem ongoing_processAll (honest : ∀ w, (s.conditions w).Honest)
    (never : ∀ w, (s.conditions w).cancelled = false) (now : τ) (goal : RunGoal)
    (files : List FilePath) (settled : run.engine.index.Settled)
    (ongoing : run.report.cancelled = false) :
    (files.foldl (process s now goal) run).report.cancelled = false := by
  induction files generalizing run with
  | nil => exact ongoing
  | cons path rest ih =>
    have dealt : Dealt s goal path run (process s now goal run path) :=
      dealt_process (honest run.around) settled path
    refine ih (dealt.settled settled) ?_
    cases dealt with
    | cancelled off => exact absurd off (by simp [never])
    | failed embedder index f work settled' tables engine report => exact report ▸ ongoing
    | skipped embedder index read work settled' tables engine report => exact report ▸ ongoing
    | written embedder index read outline d embeddings work settled' tables engine report =>
      exact report ▸ ongoing

end Time

end IndexRun

namespace Engine

variable {τ σ ω : Type}
variable [Add τ] [Sub τ] [LE τ] [DecidableLE τ] [LT τ] [DecidableLT τ] [OfNat τ 0]

/-- The sweep of a run that was not called off is exact. Of all that was stored before the run just
the stale rows are gone, with all their chunks and symbols; when the sweep fails, nothing is. What
is not stale is as the files left it, and these changed nothing but what the walk gave. -/
theorem indexWorkspace_sweeps {s : Surroundings ω} (honest : ∀ w, (s.conditions w).Honest) {w : ω}
    (named : (s.conditions w).tree.Named) {e : Engine τ σ} (settled : e.index.Settled)
    {root : FilePath} {walk : Walk}
    (started : Walk.start e.config.scanner (s.conditions w).tree root = .ok walk) (now : τ)
    (owner : String) (force : Bool) :
    let goal : RunGoal := ⟨owner, (s.conditions w).tree.workspace root, force⟩
    let files := (walk.drain (s.conditions w).tree).1
    let faults := (walk.drain (s.conditions w).tree).2.faults
    let Stale := IndexRun.Stale goal files (faults.map (·.path))
    let out := e.indexWorkspace s now owner root force w
    let before := e.index.tables
    let between :=
      (files.foldl (IndexRun.process s now goal) (.atStart e w faults)).engine.index.tables
    let after := out.2.engine.index.tables
    out.2.report.cancelled = false →
      (out.1 = none →
        (∀ r ∈ before.files, r ∈ before.removedSince after ↔ Stale r.key) ∧
        ∀ r ∈ before.files, Stale r.key →
          (∀ c ∈ after.chunks, c.file ≠ r.id) ∧ ∀ u ∈ after.symbols, u.file ≠ r.id) ∧
      (out.1 ≠ none → before.removedSince after = []) ∧
      (∀ owner' workspace' path, ¬ Stale (owner', workspace', path) →
        SameAt owner' workspace' path between after) ∧
      ∀ owner' workspace' path,
        (∀ p ∈ files, (owner, goal.workspace.text, p.text) ≠ (owner', workspace', path)) →
          SameAt owner' workspace' path before between := by
  intro goal files faults Stale out before between after ongoing
  have went : out = (files.foldl (IndexRun.process s now goal) (.atStart e w faults)).finish s goal
      files (faults.map (·.path)) :=
    IndexRun.indexWorkspace_eq named started rfl now owner force
  have start : (IndexRun.atStart e w faults).engine.index.Settled := settled
  have settled' := IndexRun.settled_processAll honest now goal files start
  rw [went, IndexRun.finish_ongoing honest settled'] at ongoing
  obtain ⟨removed, kept⟩ :=
    IndexRun.finish_sweeps goal files (faults.map (·.path)) honest settled' ongoing
  rw [← went] at removed kept
  have untouched (owner' workspace' path)
      (other : ∀ p ∈ files, (owner, goal.workspace.text, p.text) ≠ (owner', workspace', path)) :
      SameAt owner' workspace' path before between :=
    IndexRun.sameAt_processAll goal now honest start files other
  -- No stale file is among those of the walk, so the sweep finds its row as it was.
  have survives (r : FileRow) (member : r ∈ before.files) (dead : Stale r.key) :
      r ∈ between.files := by
    have other : ∀ p ∈ files,
        (owner, goal.workspace.text, p.text) ≠ (r.owner, r.workspace, r.path) := fun p given same =>
      dead.unwalked (List.mem_map.mpr ⟨p, given, congrArg (·.2.2) same⟩)
    have still := (untouched r.owner r.workspace r.path other).file
    exact (mem_of_file? (still.trans (settled.sound.file?_iff.mpr ⟨member, rfl⟩))).1
  have stays (r : FileRow) (member : r ∈ before.files) (alive : out.1 = none → ¬ Stale r.key) :
      r ∉ before.removedSince after := by
    have here : before.file? r.owner r.workspace r.path = some r :=
      settled.sound.file?_iff.mpr ⟨member, rfl⟩
    have present := IndexRun.present_processAll honest now goal files start
      (Option.isSome_of_eq_some here)
    have same := (kept r.owner r.workspace r.path alive).file
    intro removed
    have gone := (List.mem_filter.mp removed).2
    rw [same, ← Option.not_isSome] at gone
    exact absurd present (by simpa using gone)
  refine ⟨fun returned => ⟨fun r member => ⟨fun lost => ?_, fun dead => ?_⟩, fun r member dead => ?_⟩,
    fun failed => ?_, fun owner' workspace' path alive => ?_, untouched⟩
  · by_contra alive
    exact stays r member (fun _ => alive) lost
  · have gone := (removed returned r (survives r member dead) dead).1
    exact List.mem_filter.mpr ⟨member, Option.isNone_iff_eq_none.mpr gone⟩
  · exact (removed returned r (survives r member dead) dead).2
  · refine List.eq_nil_iff_forall_not_mem.mpr fun r lost => ?_
    exact stays r (List.mem_filter.mp lost).1 (fun returned => absurd returned failed) lost
  · exact kept owner' workspace' path fun _ => alive

/-- A link that leads to itself cannot be inspected. Of two stored files that are not in the tree any
more, the one below the link is kept; the other, whose name only starts alike, is removed. -/
theorem indexWorkspace_sweeps_sibling :
    let file (name : String) : IndexedFile := {
      owner := "o", workspace := "/", path := "/" ++ name, relativePath := name, name
      extension := "py", language := .python, content := "x", contentHash := ""
      indexedAt := Timestamp.ofMicros 0 }
    let scanner : ScanConfig := ⟨[], ["py"], [], ".ignored", 100⟩
    let e : Engine Int Unit :=
      create (fun _ => 300) { EngineConfig.standard with scanner } .standard none ()
        (Index.replay 0 [⟨.file (file "loopy.py") [] false, Faults.none, Faults.none_undoable, 0⟩,
          ⟨.file (file "loop/x.py") [] false, Faults.none, Faults.none_undoable, 0⟩]).2
    let tree : Tree := ⟨.dir [("a.py", .file [120] (.ofMicros 0)), ("loop", .link "loop")]⟩
    let out := e.indexWorkspace (Surroundings.quiet tree) 0 "o" ⟨"/", []⟩ false ()
    out.1 = none ∧ out.2.report.cancelled = false ∧
      e.index.tables.files.map (·.path) = ["/loop/x.py", "/loopy.py"] ∧
      ∀ r ∈ e.index.tables.files,
        r ∈ e.index.tables.removedSince out.2.engine.index.tables ↔ r.path = "/loopy.py" := by
  intro file scanner e tree out
  let walk : Walk := ⟨scanner, ⟨"/", []⟩, {}, none, [⟨"/", []⟩], []⟩
  have calm : ∀ w, ((Surroundings.quiet tree).conditions w).Calm := Surroundings.calm_quiet tree
  have honest : ∀ w, ((Surroundings.quiet tree).conditions w).Honest :=
    fun w => (calm w).inOrder.honest
  have settled : e.index.Settled := Index.replay_settled 0 _
  have started : Walk.start scanner tree ⟨"/", []⟩ = .ok walk := by cbv
  have files : (walk.drain ((Surroundings.quiet tree).conditions ()).tree).1.map (·.text) =
      ["/a.py"] := by cbv
  have faults : (walk.drain ((Surroundings.quiet tree).conditions ()).tree).2.faults.map (·.path) =
      ["/loop"] := by cbv
  have root : (tree.workspace ⟨"/", []⟩).text = "/" := by cbv
  have named : tree.Named := by decide
  have returned : out.1 = none :=
    IndexRun.indexWorkspace_returns calm settled ⟨walk, started⟩ 0 "o" false
  have went : out = _ :=
    IndexRun.indexWorkspace_eq (s := Surroundings.quiet tree) (e := e) named started rfl 0 "o" false
  have ongoing : out.2.report.cancelled = false := by
    rw [went, IndexRun.finish_ongoing honest (IndexRun.settled_processAll honest 0 _ _ settled)]
    exact IndexRun.ongoing_processAll honest (fun w => (calm w).ongoing) 0 _ _ settled rfl
  have keys : e.index.tables.files.map FileRow.key =
      [("o", "/", "/loop/x.py"), ("o", "/", "/loopy.py")] := by rfl
  have paths : e.index.tables.files.map (·.path) = ["/loop/x.py", "/loopy.py"] := by
    have texts := congrArg (List.map (·.2.2)) keys
    rwa [List.map_map] at texts
  refine ⟨returned, ongoing, paths, fun r member => ?_⟩
  have sweeps := indexWorkspace_sweeps (s := Surroundings.quiet tree) honest (w := ()) named settled
    started 0 "o" false ongoing
  rw [(sweeps.1 returned).1 r member]
  have among : r.key ∈ [("o", "/", "/loop/x.py"), ("o", "/", "/loopy.py")] :=
    keys ▸ List.mem_map_of_mem member
  have below : IndexRun.LiesUnder "/loop" "/loop/x.py" := .inr ⟨['x', '.', 'p', 'y'], [], by decide⟩
  have beside : ¬ IndexRun.LiesUnder "/loop" "/loopy.py" :=
    IndexRun.not_liesUnder_sibling "/loop" "y.py" (by decide) (by decide) (by decide)
  constructor
  · intro dead
    rcases List.mem_cons.mp among with first | second
    · have inspected := dead.inspected "/loop" (faults ▸ List.mem_singleton_self _)
      rw [first] at inspected
      exact absurd below inspected
    · exact congrArg (·.2.2) (List.mem_singleton.mp second)
  · intro path
    have atKey : r.key = ("o", "/", "/loopy.py") := by
      rcases List.mem_cons.mp among with first | second
      · exact absurd (path.symm.trans (congrArg (·.2.2) first)) (by decide)
      · exact List.mem_singleton.mp second
    refine ⟨congrArg (·.1) atKey, ?_, ?_, ?_⟩
    · rw [atKey]
      exact root.symm
    · rw [atKey, files]
      decide
    · rw [atKey, faults]
      intro loop out
      exact List.mem_singleton.mp out ▸ beside

end Engine

end CodeAtlas
