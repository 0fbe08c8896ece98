import CodeAtlas.Proofs.Index.Column
import CodeAtlas.Proofs.Index.Owner
import CodeAtlas.Proofs.Outline.Distinct
import Mathlib.Algebra.BigOperators.Group.List.Basic
import Mathlib.Data.List.Count
import Mathlib.Data.Set.List

/-!
# The statistics of an owner and the list of the owner's files

## Main result

`Index.replay_statistics`: after any history the statistics count the files that are listed, and
name the structures that were saved last, unless the sum of the lines leaves what a table can hold.

## Proof strategy

Statistics and list come from the same rows, so that only the order differs. Sums and frequencies
are characterised by themselves; the saved structures are followed along the history.
-/

namespace CodeAtlas

/-! ## Sums -/

namespace Tables

variable {numbers : List Int}

/-- Every sum on the way from the first number to the last fits in a table. -/
def Countable (numbers : List Int) : Prop :=
  ∀ first ∈ numbers.inits, Action.fits first.sum = true

instance : DecidablePred Countable := fun numbers =>
  List.decidableBAll (fun first : List Int => Action.fits first.sum = true) numbers.inits

theorem total?_concat (numbers : List Int) (n : Int) : total? (numbers ++ [n]) =
    (total? numbers).bind fun s => if Action.fits (s + n) then some (s + n) else none := by
  rw [total?, List.foldl_append]
  rfl

theorem countable_concat_iff {n : Int} : Countable (numbers ++ [n]) ↔
    Countable numbers ∧ Action.fits (numbers.sum + n) = true := by
  simp [Countable, List.mem_inits, or_imp, forall_and, and_comm]

/-- A sum is found when every sum on the way fits, and it is the sum of the numbers. The induction
is on the numbers from the last one back, as the sum goes on at the end. -/
theorem total?_eq (numbers : List Int) :
    total? numbers = if Countable numbers then some numbers.sum else none := by
  induction numbers using List.reverseRecOn with
  | nil => rfl
  | append_singleton numbers n ih =>
    rw [total?_concat, ih]
    by_cases countable : Countable numbers
    · simp [countable, countable_concat_iff]
    · simp [countable, countable_concat_iff]

end Tables

/-! ## Frequencies -/

/-- What occurs among all, each once: the most frequent first, and by name among equals. -/
structure Ranking {α : Type} [DecidableEq α] (name : α → String) (all ranked : List α) :
    Prop where
  mem : ∀ a, a ∈ ranked ↔ a ∈ all
  once : ranked.Nodup
  order : ranked.Pairwise fun a b =>
    all.count b < all.count a ∨ all.count a = all.count b ∧ name a < name b

namespace Ranking

variable {α : Type} [DecidableEq α] {name : α → String} {all ranked : List α}

/-- The order in which things stand does not matter. -/
theorem perm {all' : List α} (same : all.Perm all') (ranking : Ranking name all ranked) :
    Ranking name all' ranked where
  mem a := (ranking.mem a).trans same.mem_iff
  once := ranking.once
  order := by simpa only [same.count_eq] using ranking.order

/-- What is counted by kinds is counted once. -/
theorem sum_count (ranking : Ranking name all ranked) :
    (ranked.map fun a => all.count a).sum = all.length := by
  have same : ranked.Perm all.dedup :=
    (List.perm_ext_iff_of_nodup ranking.once all.nodup_dedup).mpr fun a =>
      (ranking.mem a).trans List.mem_dedup.symm
  rw [(same.map _).sum_eq]
  exact List.sum_map_count_dedup_eq_length all

/-- Names that tell things apart rank the things. -/
theorem exists_of_injective (injective : Function.Injective name) {words : List String}
    (ranking : Ranking id (all.map name) words) :
    ∃ ranked, words = ranked.map name ∧ Ranking name all ranked := by
  have named : words ∈ Set.range (List.map name) := by
    rw [Set.range_list_map]
    intro word mem
    obtain ⟨a, -, same⟩ := List.mem_map.mp ((ranking.mem word).mp mem)
    exact ⟨a, same⟩
  obtain ⟨ranked, rfl⟩ := named
  refine ⟨ranked, rfl, ?_, ?_, ?_⟩
  · intro a
    have mem := ranking.mem (name a)
    rwa [List.mem_map_of_injective injective, List.mem_map_of_injective injective] at mem
  · exact ranking.once.of_map name
  · have order := ranking.order
    rw [List.pairwise_map] at order
    simpa only [List.count_map_of_injective _ name injective, id_eq] using order

end Ranking

namespace Tables

theorem mem_frequencies {words : List String} {e : String × Nat} :
    e ∈ frequencies words ↔ e.1 ∈ words ∧ e.2 = words.count e.1 := by
  rw [frequencies, List.mem_mergeSort, List.mem_map]
  constructor
  · rintro ⟨word, mem, rfl⟩
    exact ⟨mem_distinct.mp mem, rfl⟩
  · rintro ⟨mem, same⟩
    exact ⟨e.1, mem_distinct.mpr mem, Prod.ext rfl same.symm⟩

theorem nodup_frequencies (words : List String) : ((frequencies words).map (·.1)).Nodup := by
  have same := (List.mergeSort_perm ((distinct words).map fun word => (word, words.count word))
    fun a b => decide (b.2 < a.2) || (a.2 == b.2 && decide (a.1 ≤ b.1))).map Prod.fst
  rw [List.map_map] at same
  refine same.nodup_iff.mpr ?_
  rw [show (Prod.fst ∘ fun word => (word, words.count word)) = id from rfl, List.map_id]
  exact nodup_distinct words

/-- The most frequent stands first, and by the text among equals. -/
theorem pairwise_frequencies (words : List String) :
    (frequencies words).Pairwise fun a b => b.2 < a.2 ∨ a.2 = b.2 ∧ a.1 ≤ b.1 := by
  have sorted : (frequencies words).Pairwise fun a b =>
      decide (b.2 < a.2) || (a.2 == b.2 && decide (a.1 ≤ b.1)) := by
    refine List.pairwise_mergeSort (fun a b c first second => ?_) (fun a b => ?_) _
    · simp only [Bool.or_eq_true, Bool.and_eq_true, decide_eq_true_eq, beq_iff_eq]
        at first second ⊢
      rcases first with more | ⟨same, le⟩
      · rcases second with more' | ⟨same', -⟩ <;> exact .inl (by omega)
      · rcases second with more' | ⟨same', le'⟩
        · exact .inl (by omega)
        · exact .inr ⟨same.trans same', le.trans le'⟩
    · simp only [Bool.or_eq_true, Bool.and_eq_true, decide_eq_true_eq, beq_iff_eq]
      rcases Nat.lt_trichotomy a.2 b.2 with less | same | more
      · exact .inr (.inl less)
      · exact (le_total a.1 b.1).imp (fun le => .inr ⟨same, le⟩) fun le => .inr ⟨same.symm, le⟩
      · exact .inl (.inl more)
  refine sorted.imp fun before => ?_
  simpa using before

/-- The frequencies of words are those of the words ranked. -/
theorem ranking_frequencies (words : List String) :
    ∃ ranked, Ranking id words ranked ∧
      frequencies words = ranked.map fun word => (word, words.count word) := by
  have paired : frequencies words =
      ((frequencies words).map (·.1)).map fun word => (word, words.count word) := by
    rw [List.map_map]
    refine ((List.map_congr_left fun e mem => ?_).trans (List.map_id _)).symm
    exact Prod.ext rfl (mem_frequencies.mp mem).2.symm
  refine ⟨_, ⟨fun word => ?_, nodup_frequencies words, ?_⟩, paired⟩
  · rw [List.mem_map]
    constructor
    · rintro ⟨e, mem, rfl⟩
      exact (mem_frequencies.mp mem).1
    · exact fun mem => ⟨(word, words.count word), mem_frequencies.mpr ⟨mem, rfl⟩, rfl⟩
  · have different := List.pairwise_map.mp (nodup_frequencies words)
    refine List.pairwise_map.mpr (((pairwise_frequencies words).and different).imp_of_mem ?_)
    rintro a b mem mem' ⟨before, different⟩
    rw [(mem_frequencies.mp mem).2, (mem_frequencies.mp mem').2] at before
    exact before.imp_right fun ⟨same, le⟩ => ⟨same, lt_of_le_of_ne le different⟩

end Tables

/-! ## Saved structures -/

/-- The structure that was saved last for an owner and a workspace. A write that failed saved none.
-/
def WriteLog.saved (key : String × String) : WriteLog → Option ProjectStructure
  | [] => none
  | (.structure_ owner workspace found, .ok _) :: earlier =>
    if key = (owner, workspace) then some found else saved key earlier
  | _ :: earlier => saved key earlier

@[simp] theorem WriteLog.saved_error {key : String × String} {w : IndexWrite} {f : Failure}
    {earlier : WriteLog} : WriteLog.saved key ((w, .error f) :: earlier) = saved key earlier := by
  cases w <;> rfl

/-- The tables have of each workspace just the structure that was saved last. -/
def Tables.Recalls (t : Tables) (log : WriteLog) : Prop :=
  ∀ key found, (∃ w ∈ t.workspaces, w.key = key ∧ w.structure_ = found) ↔
    log.saved key = some found

namespace IndexWrite

open Index Tables

variable {t t' : Tables} {log : WriteLog} {now : Timestamp}

theorem mem_putWorkspace_self (row : WorkspaceRow) : row ∈ (t.putWorkspace row).workspaces := by
  simp only [putWorkspace]
  split
  next present =>
    obtain ⟨w, member, same⟩ := List.any_eq_true.mp present
    exact List.mem_map.mpr ⟨w, member, if_pos same⟩
  next => simp

/-- A structure that is saved is the last one of its workspace; nothing changes for the others. -/
theorem recalls_putWorkspace (sound : t.Sound) (recalls : t.Recalls log) {owner workspace : String}
    {found : ProjectStructure} {answer : Answer} :
    (t.putWorkspace ⟨owner, workspace, found, now⟩).Recalls
      ((.structure_ owner workspace found, .ok answer) :: log) := by
  intro key last
  rw [WriteLog.saved]
  split
  next atKey =>
    -- Keys are told apart, so that the row that was put is the only one with its key.
    have own := mem_putWorkspace_self (t := t) ⟨owner, workspace, found, now⟩
    rw [Option.some.injEq]
    constructor
    · rintro ⟨w, member, same, rfl⟩
      have keys := (sound_putWorkspace sound ⟨owner, workspace, found, now⟩).workspaces
      have only := List.inj_on_of_nodup_map keys member own (same.trans atKey)
      rw [only]
    · rintro rfl
      exact ⟨_, own, atKey.symm, rfl⟩
  next elsewhere =>
    rw [← recalls key last]
    constructor
    · rintro ⟨w, member, rfl, rfl⟩
      exact ⟨w, (mem_putWorkspace elsewhere).mp member, rfl, rfl⟩
    · rintro ⟨w, member, rfl, rfl⟩
      exact ⟨w, (mem_putWorkspace elsewhere).mpr member, rfl, rfl⟩

/-- What is done to the tables is what the log then says of the structures. -/
theorem recalls_of_result (sound : t.Sound) (recalls : t.Recalls log) (w : IndexWrite)
    (done : Action.result (w.plan t now).1 t = .ok t') :
    t'.Recalls ((w, .ok (w.plan t now).2) :: log) := by
  cases w with
  | file f chunks force =>
    have kept : t'.workspaces = t.workspaces := by
      rw [result_file sound] at done
      split at done
      · cases done
        rfl
      · split at done
        · cases done
          exact put_workspaces
        · cases done
    intro key last
    rw [kept]
    exact recalls key last
  | removal owner workspace live =>
    rw [result_removal] at done
    cases done
    exact recalls
  | structure_ owner workspace found =>
    rw [result_structure] at done
    cases done
    exact recalls_putWorkspace sound recalls

end IndexWrite

/-- The tables always have of each workspace what the log leaves of it. -/
theorem Index.replay_recalls (clock : Int) (calls : List IndexCall) :
    (replay clock calls).2.tables.Recalls (replay clock calls).1 := by
  induction calls with
  | nil => exact fun key found => ⟨fun ⟨_, member, _⟩ => (List.not_mem_nil member).elim, nofun⟩
  | cons c earlier ih =>
    have settled := (replay_settled clock earlier).later
      ((replay clock earlier).2.clock + c.pause)
    -- A write is done as it was planned and answered so, or it is refused and changes nothing.
    obtain ⟨_, ⟨done, answered⟩ | ⟨kept, f, refused⟩⟩ := c.write.run_cases c.undoable settled
    · have saved := c.write.recalls_of_result settled.sound ih done
      simpa only [replay, answered] using saved
    · intro key found
      simpa only [replay, refused, kept, WriteLog.saved_error] using ih key found

/-! ## Statistics -/

theorem Language.ofId?_id (language : Language) : Language.ofId? language.id = some language := by
  cases language <;> rfl

theorem Language.id_injective : Function.Injective Language.id := fun a b same =>
  Option.some.inj ((ofId?_id a).symm.trans (same ▸ ofId?_id b))

/-- The files listed are those that a log leaves, each as it was last written. -/
structure WriteLog.Lists (log : WriteLog) (owner : String) (files : List FileSummary) : Prop where
  once : (files.map fun f => (f.workspace, f.path)).Nodup
  all : ∀ workspace path, (log.written (owner, workspace, path)).isSome →
    ∃ f ∈ files, f.workspace = workspace ∧ f.path = path
  each : ∀ f ∈ files, ∃ w, log.written (owner, f.workspace, f.path) = some w ∧ f.Carries w.file

/-- The numbers are those of the files. -/
structure IndexStatistics.Tallies (s : IndexStatistics) (files : List FileSummary) : Prop where
  totalFiles : s.totalFiles = files.length
  totalLines : s.totalLines = (files.map (·.lineCount)).sum
  /-- Every language once, with the number of its files. -/
  languages : ∃ ranked, Ranking Language.id (files.map (·.language)) ranked ∧
    s.languages.map (fun share => (share.language, share.fileCount)) =
      ranked.map fun language => (language.id, ((files.map (·.language)).count language : Int))
  shared : (s.languages.map (·.fileCount)).sum = s.totalFiles
  /-- The first three frameworks, or all when there are fewer. -/
  frameworks : ∃ ranked, Ranking id (files.filterMap (·.framework)) ranked ∧
    s.frameworks = ranked.take 3

/-- The workspaces of the owner are those whose structure was saved, each once, by path and with the
structure that was saved last. -/
structure IndexStatistics.Recalls (s : IndexStatistics) (log : WriteLog) (owner : String) :
    Prop where
  ordered : s.workspaces.Pairwise fun a b => a.path < b.path
  saved : ∀ path found, (∃ w ∈ s.workspaces, w.path = path ∧ w.structure_ = found) ↔
    log.saved (owner, path) = some found

namespace Tables

variable {t : Tables} {log : WriteLog} {owner : String}

theorem listed_perm (t : Tables) (owner : String) :
    (t.listed owner none).Perm (t.filesOf owner) := by
  have all : (t.filesOf owner).filter (fun r => restricts none (r.workspace == ·)) =
      t.filesOf owner := List.filter_eq_self.mpr fun _ _ => rfl
  rw [listed, all]
  exact List.mergeSort_perm _ _

/-- Every language has one share, with the number of its files. -/
theorem ranking_languages (rows : List FileRow) :
    ∃ ranked, Ranking Language.id (rows.map (·.language)) ranked ∧
      ((frequencies (rows.map (·.language.id))).map fun (word, count) =>
          shareOf rows word count).map (fun share => (share.language, share.fileCount)) =
        ranked.map fun language =>
          (language.id, ((rows.map (·.language)).count language : Int)) := by
  obtain ⟨words, ranking, frequent⟩ := ranking_frequencies (rows.map (·.language.id))
  have named : rows.map (·.language.id) = (rows.map (·.language)).map Language.id := by
    rw [List.map_map]
    rfl
  rw [named] at ranking frequent
  obtain ⟨ranked, rfl, ranking'⟩ := ranking.exists_of_injective Language.id_injective
  refine ⟨ranked, ranking', ?_⟩
  rw [named, frequent, List.map_map, List.map_map, List.map_map]
  refine List.map_congr_left fun language _ => ?_
  simp only [Function.comp_apply, shareOf, List.count_map_of_injective _ _ Language.id_injective]

/-- What is tallied of some rows are the numbers of their summaries, in any order. -/
theorem tallies_of_tally {rows : List FileRow} {workspaces : List WorkspaceRecord}
    {files : List FileSummary} {s : IndexStatistics} (same : (rows.map (·.summary)).Perm files)
    (tallied : tally rows workspaces = .ok s) : s.Tallies files ∧ s.workspaces = workspaces := by
  simp only [tally, total?_eq] at tallied
  split at tallied
  · cases tallied
  next total counted =>
    obtain ⟨-, sum⟩ := Option.ite_none_right_eq_some.mp counted
    cases tallied
    have ofSummary {β : Type} (f : FileSummary → β) :
        (rows.map fun r => f r.summary).Perm (files.map f) := by
      simpa only [List.map_map, Function.comp_def] using same.map f
    -- Rows and summaries tell of the same files in two orders, and no number depends on the order.
    obtain ⟨ranked, ranking, languages⟩ := ranking_languages rows
    obtain ⟨ranked', ranking', frameworks⟩ := ranking_frequencies (rows.filterMap (·.framework))
    have given : (rows.filterMap (·.framework)).Perm (files.filterMap (·.framework)) := by
      have mapped := same.filterMap (·.framework)
      rwa [List.filterMap_map] at mapped
    refine ⟨⟨?_, ?_, ⟨ranked, ranking.perm (ofSummary (·.language)), ?_⟩, ?_,
      ⟨ranked', ranking'.perm given, ?_⟩⟩, rfl⟩
    · simpa using same.length_eq
    · exact (Option.some.inj sum).symm.trans (ofSummary (·.lineCount)).sum_eq
    · refine languages.trans (List.map_congr_left fun language _ => ?_)
      have counted := (ofSummary (·.language)).count_eq language
      exact congrArg (fun n : Nat => (language.id, (n : Int))) counted
    · have counts := congrArg (List.map Prod.snd) languages
      have whole := congrArg (Nat.cast : Nat → Int) ranking.sum_count
      rw [Nat.cast_list_sum, List.map_map, List.length_map] at whole
      simp only [List.map_map] at counts ⊢
      exact (congrArg List.sum counts).trans whole
    · rw [frameworks, ← List.map_take, List.map_map]
      exact List.map_id _

/-- No two workspaces of an owner have the same path. -/
theorem nodup_paths_workspaces (sound : t.Sound) (owner : String) :
    ((t.workspaces.filter fun w => w.owner == owner).map (·.path)).Nodup := by
  have keys := (List.filter_sublist (p := fun w : WorkspaceRow => w.owner == owner)).map
    WorkspaceRow.key |>.nodup sound.workspaces
  have keyed : (t.workspaces.filter fun w => w.owner == owner).map WorkspaceRow.key =
      ((t.workspaces.filter fun w => w.owner == owner).map (·.path)).map (owner, ·) := by
    rw [List.map_map]
    refine List.map_congr_left fun w member => ?_
    have own : w.owner = owner := by simpa using (List.mem_filter.mp member).2
    exact Prod.ext own rfl
  rw [keyed] at keys
  exact keys.of_map _

/-- The workspaces of an owner are those of the log. -/
theorem recalls_workspacesOf (sound : t.Sound) (recalls : t.Recalls log)
    {s : IndexStatistics} (workspaces : s.workspaces = t.workspacesOf owner) :
    s.Recalls log owner := by
  constructor
  · have sorted : ((t.workspaces.filter fun w => w.owner == owner).mergeSort fun a b =>
        decide (a.path ≤ b.path)).Pairwise fun a b => decide (a.path ≤ b.path) := by
      refine List.pairwise_mergeSort (fun a b c first second => ?_) (fun a b => ?_) _
      · rw [decide_eq_true_eq] at first second ⊢
        exact first.trans second
      · rw [Bool.or_eq_true, decide_eq_true_eq, decide_eq_true_eq]
        exact le_total _ _
    have different := List.pairwise_map.mp (((List.mergeSort_perm _
      fun a b : WorkspaceRow => decide (a.path ≤ b.path)).map (·.path)).nodup_iff.mpr
        (nodup_paths_workspaces sound owner))
    rw [workspaces, workspacesOf]
    refine List.pairwise_map.mpr ((sorted.and different).imp fun before => ?_)
    exact lt_of_le_of_ne (of_decide_eq_true before.1) before.2
  · intro path found
    rw [← recalls, workspaces, workspacesOf]
    simp only [List.mem_map, List.mem_mergeSort, List.mem_filter, beq_iff_eq, WorkspaceRow.key,
      Prod.mk.injEq]
    constructor
    · rintro ⟨_, ⟨w, ⟨member, own⟩, rfl⟩, rfl, rfl⟩
      exact ⟨w, member, ⟨own, rfl⟩, rfl⟩
    · rintro ⟨w, member, ⟨own, rfl⟩, rfl⟩
      exact ⟨_, ⟨w, ⟨member, own⟩, rfl⟩, rfl, rfl⟩

end Tables

namespace Index

open Tables

variable {ix : Index} {log : WriteLog}

/-- The list of an owner has the files of the log. -/
theorem Represents.lists (represents : ix.Represents log) (owner : String) :
    log.Lists owner ((ix.tables.listed owner none).map (·.summary)) := by
  have member {r : FileRow} :
      r ∈ ix.tables.listed owner none ↔ r ∈ ix.tables.files ∧ r.owner = owner :=
    (listed_perm ix.tables owner).mem_iff.trans mem_filesOf
  refine ⟨?_, fun workspace path written => ?_, fun f mem => ?_⟩
  · have keys := (List.filter_sublist (p := fun r : FileRow => r.owner == owner)).map
      FileRow.key |>.nodup represents.keys
    have keyed : (ix.tables.filesOf owner).map FileRow.key =
        ((ix.tables.filesOf owner).map fun r => (r.workspace, r.path)).map (owner, ·) := by
      rw [List.map_map]
      exact List.map_congr_left fun r mem => Prod.ext (mem_filesOf.mp mem).2 rfl
    rw [List.map_map]
    refine (((listed_perm ix.tables owner).map fun r => (r.workspace, r.path)).nodup_iff).mpr ?_
    exact List.Nodup.of_map (owner, ·) (keyed ▸ keys)
  · obtain ⟨r, stored, key⟩ := (represents.rows (owner, workspace, path)).mpr written
    cases key
    exact ⟨r.summary, List.mem_map.mpr ⟨r, member.mpr ⟨stored, rfl⟩, rfl⟩, rfl, rfl⟩
  · obtain ⟨r, listed, rfl⟩ := List.mem_map.mp mem
    obtain ⟨stored, rfl⟩ := member.mp listed
    obtain ⟨w, written, generation, record⟩ := represents.records r stored
    refine ⟨w, written, carries_of_agrees (represents.columns r stored) ?_⟩
    rw [IndexedFile.IsCopy, record]

/-- After any history the list of an owner has just the files that were written and not removed. As
long as the sums of their lines fit in a table, the statistics are answered, count these files and
have the structures saved last; otherwise they fail. -/
theorem replay_statistics (clock : Int) (calls : List IndexCall) (owner : String) :
    let log := (replay clock calls).1
    let ix := (replay clock calls).2
    ∃ files, ix.list Faults.none owner none = .ok files ∧ log.Lists owner files ∧
      if Countable ((ix.tables.filesOf owner).map (·.lineCount)) then
        ∃ s, ix.statistics Faults.none owner = .ok s ∧ s.Tallies files ∧ s.Recalls log owner
      else ix.statistics Faults.none owner = .error (readFailure "integer overflow") := by
  intro log ix
  have settled : ix.Settled := replay_settled clock calls
  refine ⟨_, list_calm settled.opened owner none, (replay_represents clock calls).lists owner, ?_⟩
  rw [statistics_calm settled.opened]
  split
  next countable =>
    cases tallied : tally (ix.tables.filesOf owner) (ix.tables.workspacesOf owner) with
    | error f => simp [tally, total?_eq, countable] at tallied
    | ok s =>
      obtain ⟨tallies, workspaces⟩ :=
        tallies_of_tally ((listed_perm ix.tables owner).symm.map (·.summary)) tallied
      exact ⟨s, rfl, tallies,
        recalls_workspacesOf settled.sound (replay_recalls clock calls) workspaces⟩
  next uncountable => simp only [tally, total?_eq, if_neg uncountable]

/-- Two files of one workspace with `2 ^ 62` lines each. -/
def vastFiles : List IndexedFile := ["a.js", "b.js"].map fun name =>
  { owner := "alice", workspace := "/ws", path := "/ws/src/" ++ name
    relativePath := "src/" ++ name, name, extension := "js", language := .javascript
    content := "// source", contentHash := "h1", lineCount := 2 ^ 62
    indexedAt := Timestamp.ofMicros 0 }

/-- Each number fits in a table and their sum does not: the files are listed, and there are no
statistics of them. -/
theorem replay_statistics_overflow :
    let calls := vastFiles.map fun f =>
      (⟨.file f [] false, Faults.none, Faults.none_undoable, 0⟩ : IndexCall)
    let ix := (replay 0 calls).2
    (∃ files, ix.list Faults.none "alice" none = .ok files ∧
      files.length = 2 ∧ (files.map (·.lineCount)).sum = 2 ^ 63) ∧
    ix.statistics Faults.none "alice" = .error (readFailure "integer overflow") := by
  intro calls ix
  have opened : ix.isOpen = true := (replay_settled 0 calls).opened
  have lines : (ix.tables.filesOf "alice").map (·.lineCount) = [2 ^ 62, 2 ^ 62] := by
    decide +kernel
  have listed := (listed_perm ix.tables "alice").map (·.lineCount)
  rw [lines] at listed
  refine ⟨⟨_, list_calm opened "alice" none, ?_, ?_⟩, ?_⟩
  · simpa using listed.length_eq
  · rw [List.map_map]
    exact listed.sum_eq
  · have overflow : total? [2 ^ 62, 2 ^ 62] = none := by decide
    rw [statistics_calm opened, tally, lines, overflow]

end Index

end CodeAtlas
