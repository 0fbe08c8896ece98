import CodeAtlas.Proofs.Links.Candidates
import CodeAtlas.Proofs.Text.Utf8
import Mathlib.Data.List.Permutation

/-!
# The latest first

The files of a path and the files that use a symbol are answered in the order of the times at which
they were written, the latest first. The tables hold a time as a text, and it is the bytes of these
texts that are compared; what decides is nevertheless what the clock showed when each file was last
written.

## Main results

`Index.replay_dated`: after any history the time in a row is that of the last write of its file.
`Index.replay_latestFirst`: bytes of stored times are in the order of the times, and what an index
answers is in the order of the last writes.

## Proof strategy

`Index.lastWrite` follows the history and looks at nothing but the answers of its writes. One write
takes the rows along (`IndexWrite.stamped_of_result`): it dates the row that it writes by the clock
and leaves the others.
-/

namespace CodeAtlas

/-- A file was put into the tables under a key, by what the write of it answered. -/
def IndexWrite.puts (key : String × String × String) :
    IndexWrite → Except Failure IndexWrite.Answer → Bool
  | .file f _ _, .ok (.outcome outcome) => f.key == key && outcome != .unchanged
  | _, _ => false

@[simp] theorem IndexWrite.puts_error {key : String × String × String} {w : IndexWrite}
    {f : Failure} : w.puts key (.error f) = false := by
  cases w <;> rfl

namespace Index

/-- What the clock showed at each of some calls, the latest first. -/
def readings (clock : Int) : List IndexCall → List Int
  | [] => []
  | c :: earlier => ((replay clock earlier).2.clock + c.pause) :: readings clock earlier

/-- What the clock showed when the file of a key was last written. -/
def lastWrite (clock : Int) (key : String × String × String) : List IndexCall → Option Int
  | [] => none
  | c :: earlier =>
    let ix := (replay clock earlier).2
    let time := ix.clock + c.pause
    if c.write.puts key (c.write.run c.faults { ix with clock := time }).1 then some time
    else lastWrite clock key earlier

theorem mem_readings_of_lastWrite {clock time : Int} {key : String × String × String}
    {calls : List IndexCall} (written : lastWrite clock key calls = some time) :
    time ∈ readings clock calls := by
  induction calls with
  | nil => cases written
  | cons c earlier ih =>
    simp only [lastWrite] at written
    split at written
    · cases written
      exact List.mem_cons_self
    · exact List.mem_cons_of_mem _ (ih written)

end Index

/-! ## Rows and their times -/

/-- Every row has the time of the last write of its file. -/
def Tables.Stamped (t : Tables) (last : String × String × String → Option Int) : Prop :=
  ∀ r ∈ t.files, ∃ time, last r.key = some time ∧ r.indexedAt = Timestamp.ofMicros time

namespace IndexWrite

open Index Tables

variable {t t' : Tables} {last : String × String × String → Option Int} {time : Int}

/-- A write that is done at a time dates the file that it puts, and no other. -/
theorem stamped_of_result (sound : t.Sound) (stamped : t.Stamped last) (w : IndexWrite)
    (done : Action.result (w.plan t (Timestamp.ofMicros time)).1 t = .ok t') :
    t'.Stamped fun key =>
      if w.puts key (.ok (w.plan t (Timestamp.ofMicros time)).2) then some time else last key := by
  intro r member
  cases w with
  | file f chunks force =>
    rw [result_file sound] at done
    simp only [puts, plan, fileActions_answer]
    split at done
    next current =>
      -- A current file answers that it is unchanged.
      cases done
      simpa [current] using stamped r member
    next stale =>
      split at done
      next =>
        cases done
        have outcome : (if t.isCurrent f force = true then WriteOutcome.unchanged
            else if (t.file? f.owner f.workspace f.path).isSome = true then .updated
            else .created) ≠ .unchanged := by
          rw [if_neg stale]
          split <;> simp
        have accepts : t.Accepts (t.rowFor f (.ofMicros time)) := accepts_rowFor
        rcases (mem_put sound accepts r).mp member with ⟨old, other⟩ | rfl
        · have elsewhere : f.key ≠ r.key := fun same => other
            ((accepts.id_iff_key sound old).mpr (by rw [rowFor_key]; exact same.symm))
          simpa [elsewhere] using stamped r old
        · refine ⟨time, ?_, rowFor_indexedAt⟩
          have own : f.key = (t.rowFor f (.ofMicros time)).key := rowFor_key.symm
          rw [if_pos]
          simp [own, outcome]
      next => cases done
  | removal owner workspace live =>
    rw [result_removal] at done
    cases done
    exact stamped r ((mem_drop r).mp member).1
  | structure_ owner workspace found =>
    rw [result_structure] at done
    cases done
    obtain ⟨workspaces, put⟩ :=
      putWorkspace_files (t := t) ⟨owner, workspace, found, Timestamp.ofMicros time⟩
    rw [put] at member
    exact stamped r member

end IndexWrite

/-- Rows have points in universal time, and these are the times of the last writes of their
files. -/
def Dated (last : String × String × String → Option Int) (rows : List FileRow) : Prop :=
  ∀ r ∈ rows, r.indexedAt.IsUtc ∧ last r.key = some r.indexedAt.toMicros

theorem Dated.mono {last : String × String × String → Option Int} {rows rows' : List FileRow}
    (dated : Dated last rows') (among : rows ⊆ rows') : Dated last rows :=
  fun r member => dated r (among member)

namespace Index

open Tables Timestamp

/-- After any history every row has the time of the last write of its file. -/
theorem replay_stamped (clock : Int) (calls : List IndexCall) :
    (replay clock calls).2.tables.Stamped fun key => lastWrite clock key calls := by
  induction calls with
  | nil =>
    intro r member
    cases member
  | cons c earlier ih =>
    have settled := (replay_settled clock earlier).later
      ((replay clock earlier).2.clock + c.pause)
    -- A write that failed left the tables as they were, and wrote no file.
    obtain ⟨_, ⟨done, answered⟩ | ⟨kept, f, refused⟩⟩ := c.write.run_cases c.undoable settled
    · have stamped := c.write.stamped_of_result settled.sound ih done
      intro r member
      obtain ⟨time, last, shown⟩ := stamped r member
      refine ⟨time, ?_, shown⟩
      simp only [lastWrite, answered]
      exact last
    · intro r member
      obtain ⟨time, last, shown⟩ := ih r (kept ▸ member)
      refine ⟨time, ?_, shown⟩
      simp only [lastWrite, refused, IndexWrite.puts_error]
      exact last

/-- When the clock shows years from 1 to 9999, every row has a time in universal time, and it is
that of the last write of its file. -/
theorem replay_dated {clock : Int} {calls : List IndexCall}
    (shown : ∀ time ∈ readings clock calls,
      -62135596800000000 ≤ time ∧ time < 253402300800000000) :
    Dated (fun key => lastWrite clock key calls) (replay clock calls).2.tables.files := by
  intro r member
  obtain ⟨time, last, stamp⟩ := replay_stamped clock calls r member
  obtain ⟨low, high⟩ := shown time (mem_readings_of_lastWrite last)
  rw [stamp, toMicros_ofMicros low]
  exact ⟨isUtc_ofMicros low high, last⟩

end Index

/-! ## Answers -/

/-- What tells the file of a summary apart, for an owner. -/
def FileSummary.key (owner : String) (s : FileSummary) : String × String × String :=
  (owner, s.workspace, s.path)

/-- From one file to the next the times of the last writes do not increase. -/
def LatestFirst (last : String × String × String → Option Int)
    (keys : List (String × String × String)) : Prop :=
  ∃ times : List Int, keys.map last = times.map some ∧ times.Pairwise (· ≥ ·)

/-- The front of some files in the order of their last writes; a negative limit leaves all. -/
structure IsLatest (last : String × String × String → Option Int) (limit : Int)
    (all answer : List (String × String × String)) : Prop where
  ordered : LatestFirst last answer
  /-- What is left out comes behind what is answered. -/
  front : ∃ ranked, ranked.Perm all ∧ LatestFirst last ranked ∧
    answer = if limit < 0 then ranked else ranked.take limit.toNat

/-- A question is answered with the latest of some files. Faults do no more than prevent it. -/
structure AnswersLatest {α : Type} (last : String × String × String → Option Int) (limit : Int)
    (all : List (String × String × String)) (key : α → String × String × String)
    (answer : Faults → Except Failure (List α)) : Prop where
  answers (fits : Action.fits limit = true) : ∃ found, answer Faults.none = .ok found
  latest {faults : Faults} {found : List α} (answered : answer faults = .ok found) :
    IsLatest last limit all (found.map key)

section Rows

open Tables

variable {last : String × String × String → Option Int} {rows : List FileRow}

theorem LatestFirst.take {keys : List (String × String × String)}
    (ordered : LatestFirst last keys) (count : Nat) : LatestFirst last (keys.take count) := by
  obtain ⟨times, dated, descending⟩ := ordered
  refine ⟨times.take count, ?_, descending.sublist (List.take_sublist count times)⟩
  rw [List.map_take, List.map_take, dated]

/-- Rows in the order of the texts of their times are in the order of the last writes. -/
theorem latestFirst_newestFirst (dated : Dated last rows) :
    LatestFirst last ((newestFirst rows).map FileRow.key) := by
  have dated := dated.mono (newestFirst_perm rows).subset
  refine ⟨(newestFirst rows).map (·.indexedAt.toMicros), ?_, ?_⟩
  · rw [List.map_map, List.map_map]
    exact List.map_congr_left fun r member => (dated r member).2
  · refine List.pairwise_map.mpr ((newestFirst_pairwise rows).imp_of_mem ?_)
    intro r r' member member' noNewer
    exact noNewer.2 (dated r' member').1 (dated r member).1

theorem isLatest_newestFirst (dated : Dated last rows) (limit : Int) :
    IsLatest last limit (rows.map FileRow.key)
      ((if limit < 0 then newestFirst rows else (newestFirst rows).take limit.toNat).map
        FileRow.key) := by
  have ordered := latestFirst_newestFirst dated
  have cut : (if limit < 0 then newestFirst rows else (newestFirst rows).take limit.toNat).map
      FileRow.key = if limit < 0 then (newestFirst rows).map FileRow.key
        else ((newestFirst rows).map FileRow.key).take limit.toNat := by
    rw [apply_ite (List.map FileRow.key), List.map_take]
  rw [cut]
  refine ⟨?_, _, (newestFirst_perm rows).map _, ordered, rfl⟩
  split
  · exact ordered
  · exact ordered.take _

end Rows

namespace Index

open Tables

section Answers

variable {ix : Index} {last : String × String × String → Option Int} (settled : ix.Settled)
  (dated : Dated last ix.tables.files)

include settled dated

/-- The records of a path are answered in the order of the last writes. -/
theorem answersLatest_records (owner path : String) :
    AnswersLatest last (-1) (((ix.tables.filesOf owner).filter (·.isNamed path)).map FileRow.key)
      IndexedFile.key fun faults => ix.recordsAt faults owner path where
  answers _ := ⟨_, recordsAt_calm settled.opened owner path⟩
  latest {faults records} answered := by
    -- A fault that did not prevent the answer did not change it.
    have calm := (follows_calm faults ix owner).records answered
    simp only [linkSource, recordsAt_calm settled.opened, Except.ok.injEq] at calm
    have stored : (ix.tables.filesOf owner).filter (·.isNamed path) ⊆ ix.tables.files :=
      fun r member => (mem_filesOf.mp (List.mem_of_mem_filter member)).1
    have keys : records.map IndexedFile.key =
        (newestFirst ((ix.tables.filesOf owner).filter (·.isNamed path))).map FileRow.key := by
      rw [← calm, List.map_map, namedFiles]
      refine List.map_congr_left fun r member => ?_
      have columns := settled.sound.columns r (stored ((newestFirst_perm _).mem_iff.mp member))
      rw [columns]
      rfl
    rw [keys]
    exact isLatest_newestFirst (dated.mono stored) (-1)

/-- The files that use a symbol are answered in the order of the last writes. -/
theorem answersLatest_users (owner symbol : String) (use : SymbolUse) (limit : Int) :
    AnswersLatest last limit ((ix.tables.users owner symbol use).map FileRow.key)
      (FileSummary.key owner) fun faults => ix.symbolFiles faults owner symbol use limit where
  answers fits := by
    rw [symbolFiles_calm settled.opened, if_pos fits]
    exact ⟨_, rfl⟩
  latest {faults summaries} answered := by
    have calm := (follows_calm faults ix owner).summaries answered
    simp only [linkSource, symbolFiles_calm settled.opened, settled.sound.symbolFiles_eq] at calm
    split at calm
    next =>
      have calm := Except.ok.inj calm
      have stored (r : FileRow) (member : r ∈ ix.tables.users owner symbol use) :
          r ∈ ix.tables.files ∧ r.owner = owner :=
        mem_filesOf.mp (List.mem_of_mem_filter member)
      have keys : summaries.map (FileSummary.key owner) = (if limit < 0
          then newestFirst (ix.tables.users owner symbol use)
          else (newestFirst (ix.tables.users owner symbol use)).take limit.toNat).map
            FileRow.key := by
        rw [← calm, List.map_map]
        refine List.map_congr_left fun r member => ?_
        have among : r ∈ newestFirst (ix.tables.users owner symbol use) := by
          split at member
          · exact member
          · exact List.mem_of_mem_take member
        obtain ⟨-, own⟩ := stored r ((newestFirst_perm _).mem_iff.mp among)
        rw [FileRow.key, own]
        rfl
      rw [keys]
      exact isLatest_newestFirst (dated.mono fun r member => (stored r member).1) limit
    next => cases calm

end Answers

/-- Stored times are in the order of time, byte by byte. So whatever was called on an index while
its clock showed years from 1 to 9999, the records of a path, the files that export a symbol and
those that import one are answered in the order of the last writes, the latest first. -/
theorem replay_latestFirst :
    (∀ {t t' : Timestamp}, t.IsUtc → t'.IsUtc → (t.toMicros < t'.toMicros ↔
      Text.utf8 t.storedText.toList < Text.utf8 t'.storedText.toList)) ∧
    ∀ (clock : Int) (calls : List IndexCall),
      (∀ time ∈ readings clock calls,
        -62135596800000000 ≤ time ∧ time < 253402300800000000) →
      ∀ owner,
      let ix := (replay clock calls).2
      let last := fun key => lastWrite clock key calls
      (∀ path, AnswersLatest last (-1)
        (((ix.tables.filesOf owner).filter (·.isNamed path)).map FileRow.key) IndexedFile.key
        fun faults => ix.recordsAt faults owner path) ∧
      ∀ symbol limit,
        AnswersLatest last limit ((ix.tables.users owner symbol .exported).map FileRow.key)
          (FileSummary.key owner) (fun faults => ix.exporters faults owner symbol limit) ∧
        AnswersLatest last limit ((ix.tables.users owner symbol .imported).map FileRow.key)
          (FileSummary.key owner) (fun faults => ix.importers faults owner symbol limit) := by
  constructor
  · intro t t' utc utc'
    rw [Text.utf8_lt_utf8_iff, ← String.lt_iff_toList_lt, Timestamp.storedText_lt_iff utc utc']
  · intro clock calls shown owner ix last
    have settled : ix.Settled := replay_settled clock calls
    have dated := replay_dated shown
    refine ⟨answersLatest_records settled dated owner, fun symbol limit => ⟨?_, ?_⟩⟩
    · exact answersLatest_users settled dated owner symbol .exported limit
    · exact answersLatest_users settled dated owner symbol .imported limit

/-- A file that was written again comes in front of one that was written a microsecond before, at a
whole second: the text of that time is the lesser one. -/
theorem replay_latestFirst_fraction :
    let file (path contentHash : String) : IndexedFile := {
      owner := "o", workspace := "/w", path, relativePath := "a.py", name := "a.py"
      extension := "py", language := .python, content := "", contentHash
      indexedAt := Timestamp.ofMicros 0 }
    let call (path contentHash : String) (pause : Int) : IndexCall :=
      ⟨.file (file path contentHash) [] false, Faults.none, Faults.none_undoable, pause⟩
    let calls := [call "/w/a.py" "1" (-999999), call "/w/b.py" "0" 0, call "/w/a.py" "0" 0]
    let whole := Timestamp.ofMicros 1000000
    let fraction := Timestamp.ofMicros 1000001
    readings 0 calls = [1000001, 1000000, 0] ∧
      Text.utf8 whole.storedText.toList < Text.utf8 fraction.storedText.toList ∧
      ∃ records, (replay 0 calls).2.recordsAt Faults.none "o" "a.py" = .ok records ∧
        records.map IndexedFile.key = [("o", "/w", "/w/a.py"), ("o", "/w", "/w/b.py")] := by
  intro file call calls whole fraction
  have shown : readings 0 calls = [1000001, 1000000, 0] := rfl
  obtain ⟨inOrder, answers⟩ := replay_latestFirst
  have utc : whole.IsUtc := Timestamp.isUtc_ofMicros (by decide) (by decide)
  have utc' : fraction.IsUtc := Timestamp.isUtc_ofMicros (by decide) (by decide)
  have less := (inOrder utc utc').mp (by decide)
  refine ⟨shown, less, ?_⟩
  have answered := (answers 0 calls (by rw [shown]; decide) "o").1 "a.py"
  obtain ⟨records, found⟩ := answered.answers rfl
  refine ⟨records, found, ?_⟩
  obtain ⟨⟨times, dated, descending⟩, ranked, perm, -, front⟩ := answered.latest found
  have perm : (records.map IndexedFile.key).Perm
      [("o", "/w", "/w/a.py"), ("o", "/w", "/w/b.py")] := front ▸ perm
  rcases List.perm_pair.mp perm with here | turned
  · exact here
  · -- The other way round the times would increase.
    rw [turned] at dated
    have dated : [some 1000000, some 1000001] = times.map some := dated
    have times_eq : times = [1000000, 1000001] :=
      List.map_injective_iff.mpr (Option.some_injective _) dated.symm
    rw [times_eq] at descending
    exact absurd descending (by decide)

end Index

end CodeAtlas
