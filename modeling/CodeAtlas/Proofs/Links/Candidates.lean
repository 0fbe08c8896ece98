import CodeAtlas.Proofs.Links.Symmetry
import CodeAtlas.Proofs.Value.Timestamp

/-!
# How many files a symbol links to

For each symbol an index is asked for one file more than the limit, and of what it answers the file
in question is left out and the rest cut to the limit. A file is stored once for each workspace that
it was indexed in, and each time takes a place in the answer. So fewer files may be linked than
there are: as many fewer, at most, as there are rows of a file that has another already.

## Main results

`Index.replay_candidates`: over every history of an index, which files a symbol links to, and at
least how many. `Index.replay_candidates_hidden`: two rows of the file in question hide another.

## Proof strategy

What is linked begins the rows of other files, the latest first (`chosen_begins`): so what is left
out is no later, and the count is one of lengths. The one row more makes up for one row of the file
in question, and every other place that is lost is lost to a second row of some file.
-/

namespace CodeAtlas

/-- A file was not written later than another, by the texts of the times; in universal time that is
by the times themselves. -/
def FileRow.NoNewer (r r' : FileRow) : Prop :=
  r.indexedAt.storedText ≤ r'.indexedAt.storedText ∧
    (r.indexedAt.IsUtc → r'.indexedAt.IsUtc → r.indexedAt.toMicros ≤ r'.indexedAt.toMicros)

namespace Tables

theorem newestFirst_perm (rows : List FileRow) : (newestFirst rows).Perm rows :=
  List.mergeSort_perm _ _

theorem newestFirst_pairwise (rows : List FileRow) :
    (newestFirst rows).Pairwise fun r r' => r'.NoNewer r := by
  have placed : (newestFirst rows).Pairwise fun r r' =>
      decide (r'.indexedAt.storedText ≤ r.indexedAt.storedText) := by
    refine List.pairwise_mergeSort (fun a b c first second => ?_) (fun a b => ?_) rows
    · rw [decide_eq_true_eq] at first second ⊢
      exact second.trans first
    · rw [Bool.or_eq_true, decide_eq_true_eq, decide_eq_true_eq]
      exact le_total _ _
  refine placed.imp fun le => ?_
  rw [decide_eq_true_eq] at le
  exact ⟨le, fun utc utc' => (Timestamp.storedText_le_iff utc utc').mp le⟩

/-- Rows written one after another are found the other way round. -/
theorem newestFirst_eq_reverse {rows : List FileRow} (ascending : rows.Pairwise fun r r' =>
    r.indexedAt.storedText < r'.indexedAt.storedText) : newestFirst rows = rows.reverse := by
  have turned : rows.reverse.Pairwise fun r r' =>
      r'.indexedAt.storedText < r.indexedAt.storedText := List.pairwise_reverse.mpr ascending
  have apart : (rows.map (·.indexedAt.storedText)).Nodup :=
    List.pairwise_map.mpr (ascending.imp fun less => less.ne)
  refine List.Perm.eq_of_pairwise (fun r r' member member' le le' => ?_)
    ((newestFirst_pairwise rows).imp And.left) (turned.imp fun less => less.le)
    ((newestFirst_perm rows).trans rows.reverse_perm.symm)
  exact List.inj_on_of_nodup_map apart ((newestFirst_perm rows).mem_iff.mp member)
    (List.mem_reverse.mp member') (le'.antisymm le)

end Tables

theorem length_distinct_le {names names' : List String} (sub : names ⊆ names') :
    (distinct names).length ≤ names'.length :=
  ((nodup_distinct names).subperm fun _ member => sub (mem_distinct.mp member)).length_le

namespace Links

open Tables

/-- The files that use a symbol, the one in question apart, each once. -/
def otherPaths (users : List FileRow) (ownPath : String) : List String :=
  distinct ((users.filter (·.path != ownPath)).map (·.path))

/-- The files to which one symbol links. -/
structure Candidates (users : List FileRow) (ownPath : String) (limit : ℕ) (linked : List String) :
    Prop where
  nodup : linked.Nodup
  subset : linked ⊆ otherPaths users ownPath
  le : linked.length ≤ limit
  /-- What is left out was not written later. -/
  latest : ∀ path ∈ linked, ∃ r ∈ users, r.path = path ∧
    ∀ r' ∈ users, r'.path ≠ ownPath → r'.path ∉ linked → r'.NoNewer r
  /-- No more are missing than there are rows of files that have one already. -/
  enough : min limit (otherPaths users ownPath).length ≤
    linked.length + (users.length - (distinct (users.map (·.path))).length)

/-- Where every file has one row, none is missing. -/
theorem Candidates.length_eq {users : List FileRow} {ownPath : String} {limit : ℕ}
    {linked : List String} (candidates : Candidates users ownPath limit linked)
    (once : (users.map (·.path)).Nodup) :
    linked.length = min limit (otherPaths users ownPath).length := by
  have few := (candidates.nodup.subperm candidates.subset).length_le
  have all : users.length ≤ (distinct (users.map (·.path))).length := by
    have sub : users.map (·.path) ⊆ distinct (users.map (·.path)) := fun _ => mem_distinct.mpr
    simpa using (once.subperm sub).length_le
  have enough := candidates.enough
  have le := candidates.le
  omega

/-- The rows to which a symbol links. -/
def chosen (users : List FileRow) (ownPath : String) (limit : ℕ) : List FileRow :=
  (((newestFirst users).take (limit + 1)).filter (·.path != ownPath)).take limit

theorem others_map (limit : ℕ) (ownPath : String) (rows : List FileRow) :
    others limit ownPath (rows.map (·.summary)) =
      ((rows.filter (·.path != ownPath)).take limit).map (·.summary) := by
  rw [others, List.filter_map, List.map_take]
  rfl

theorem mem_paths_chosen {users : List FileRow} {ownPath path : String} {limit : ℕ} :
    path ∈ distinct ((chosen users ownPath limit).map (·.path)) ↔
      ∃ r ∈ chosen users ownPath limit, r.path = path := by
  rw [mem_distinct, List.mem_map]

section Chosen

variable (users : List FileRow) (ownPath : String) (limit : ℕ)

/-- They begin the rows of other files. -/
theorem chosen_begins :
    chosen users ownPath limit <+: (newestFirst users).filter (·.path != ownPath) :=
  (List.take_prefix _ _).trans ((List.take_prefix _ _).filter _)

/-- The rows of the file in question take no more places than there are of them. -/
theorem le_length_chosen : min limit (min (limit + 1) users.length -
    (users.length - (users.filter (·.path != ownPath)).length)) ≤
      (chosen users ownPath limit).length := by
  let asked := (newestFirst users).take (limit + 1)
  have own : (asked.filter fun r => !(r.path != ownPath)).length ≤
      (users.filter fun r => !(r.path != ownPath)).length := by
    rw [← ((newestFirst_perm users).filter _).length_eq]
    exact ((List.take_sublist _ _).filter _).length_le
  have size : asked.length = min (limit + 1) users.length := by
    rw [List.length_take, (newestFirst_perm users).length_eq]
  -- What the file in question takes of the answer it takes of all rows.
  have parts := asked.length_eq_length_filter_add (·.path != ownPath)
  have parts' := users.length_eq_length_filter_add (·.path != ownPath)
  change _ ≤ ((asked.filter (·.path != ownPath)).take limit).length
  rw [List.length_take]
  omega

/-- Paths of rows are those of other files and perhaps the own one. -/
theorem length_paths_le : (distinct (users.map (·.path))).length ≤
    (otherPaths users ownPath).length +
      min 1 (users.length - (users.filter (·.path != ownPath)).length) := by
  have shorter := List.length_filter_le (fun r : FileRow => r.path != ownPath) users
  by_cases absent : (users.filter (·.path != ownPath)).length = users.length
  · have all := List.filter_eq_self.mpr (List.length_filter_eq_length_iff.mp absent)
    have same : otherPaths users ownPath = distinct (users.map (·.path)) := by
      rw [otherPaths, all]
    rw [same]
    exact Nat.le_add_right _ _
  · have sub : users.map (·.path) ⊆ ownPath :: otherPaths users ownPath := by
      intro path member
      obtain ⟨r, among, rfl⟩ := List.mem_map.mp member
      by_cases own : r.path = ownPath
      · exact List.mem_cons.mpr (.inl own)
      · exact List.mem_cons_of_mem _ (mem_distinct.mpr (List.mem_map_of_mem
          (List.mem_filter.mpr ⟨among, by simpa using own⟩)))
    have le := length_distinct_le sub
    rw [List.length_cons] at le
    omega

/-- What is not chosen stands behind what is, and so it was not written later. -/
theorem noNewer_of_chosen {r r' : FileRow} (taken : r ∈ chosen users ownPath limit)
    (member : r' ∈ users) (apart : r'.path ≠ ownPath) (left : r' ∉ chosen users ownPath limit) :
    r'.NoNewer r := by
  obtain ⟨late, whole⟩ := chosen_begins users ownPath limit
  have ordered := (newestFirst_pairwise users).filter (·.path != ownPath)
  rw [← whole, List.pairwise_append] at ordered
  have placed : r' ∈ chosen users ownPath limit ++ late := by
    rw [whole, ((newestFirst_perm users).filter _).mem_iff, List.mem_filter]
    exact ⟨member, by simpa using apart⟩
  exact ordered.2.2 r taken r' ((List.mem_append.mp placed).resolve_left left)

/-- A file of which no row is chosen is missing with all its rows. -/
theorem length_otherPaths_le :
    (otherPaths users ownPath).length + (chosen users ownPath limit).length ≤
      (distinct ((chosen users ownPath limit).map (·.path))).length +
        (users.filter (·.path != ownPath)).length := by
  obtain ⟨late, whole⟩ := chosen_begins users ownPath limit
  have perm := (newestFirst_perm users).filter (·.path != ownPath)
  have size : (chosen users ownPath limit).length + late.length =
      (users.filter (·.path != ownPath)).length := by
    rw [← perm.length_eq, ← whole, List.length_append]
  have sub : (users.filter (·.path != ownPath)).map (·.path) ⊆
      distinct ((chosen users ownPath limit).map (·.path)) ++ late.map (·.path) := by
    intro path member
    rw [← (perm.map _).mem_iff, ← whole, List.map_append] at member
    simpa using member
  have paths := length_distinct_le sub
  rw [List.length_append, List.length_map] at paths
  rw [otherPaths]
  omega

theorem candidates_chosen :
    Candidates users ownPath limit (distinct ((chosen users ownPath limit).map (·.path))) where
  nodup := nodup_distinct _
  subset := by
    intro path member
    obtain ⟨r, taken, rfl⟩ := mem_paths_chosen.mp member
    have among := (chosen_begins users ownPath limit).subset taken
    rw [((newestFirst_perm users).filter _).mem_iff] at among
    exact mem_distinct.mpr (List.mem_map_of_mem among)
  le := by
    calc (distinct ((chosen users ownPath limit).map (·.path))).length
      _ ≤ ((chosen users ownPath limit).map (·.path)).length := length_distinct_le fun _ => id
      _ ≤ limit := by
        rw [List.length_map]
        exact List.length_take_le _ _
  latest := by
    intro path member
    obtain ⟨r, taken, rfl⟩ := mem_paths_chosen.mp member
    have among := (chosen_begins users ownPath limit).subset taken
    rw [((newestFirst_perm users).filter _).mem_iff, List.mem_filter] at among
    refine ⟨r, among.1, rfl, fun r' member' apart absent => ?_⟩
    exact noNewer_of_chosen users ownPath limit taken member' apart fun taken' =>
      absent (mem_paths_chosen.mpr ⟨r', taken', rfl⟩)
  enough := by
    -- Rows are lost to the file in question, to other rows of a file, and to the limit.
    have own := length_paths_le users ownPath
    have places := le_length_chosen users ownPath limit
    have rows := length_otherPaths_le users ownPath limit
    have shorter := List.length_filter_le (fun r : FileRow => r.path != ownPath) users
    have merged : (otherPaths users ownPath).length ≤
        ((users.filter (·.path != ownPath)).map (·.path)).length := length_distinct_le fun _ => id
    rw [List.length_map] at merged
    omega

end Chosen

end Links

namespace Index

open Tables

variable {ix : Index} {owner path : String} {limit : ℕ} {a : FileRow} {older : List FileRow}
  {τ : Type} [Add τ] [LE τ] [DecidableLE τ] {links : Links τ}

/-- A file that is found has links, by each symbol of its latest record to what is chosen for it. -/
theorem relatedFiles_told (settled : ix.Settled) (fits : Action.fits ((limit : Int) + 1) = true)
    (found : ix.tables.namedFiles owner path = a :: older) (limited : links.candidateLimit = limit)
    (fresh : links.Fresh (ix.linkSource Faults.none) owner) (now : τ) :
    ∃ related, (links.relatedFiles (ix.linkSource Faults.none) now owner path).1 = .ok related ∧
      ∀ path' direction symbol, Links.Tells related path' direction symbol ↔
        symbol ∈ a.record.uses direction.own ∧
          ∃ r ∈ Links.chosen (ix.tables.users owner symbol direction.other) a.path limit,
            r.path = path' := by
  have answers (symbol : String) (use : SymbolUse) :
      (ix.linkSource Faults.none).symbolFiles owner symbol use ((limit : Int) + 1) =
        .ok (((newestFirst (ix.tables.users owner symbol use)).take (limit + 1)).map
          (·.summary)) := symbolFiles_asked settled fits symbol use
  have record : (ix.linkSource Faults.none).recordsAt owner path =
      .ok (a.record :: older.map (·.record)) := by
    have answer := recordsAt_calm settled.opened owner path
    rwa [found, List.map_cons] at answer
  have own : a.record.path = a.path := by
    have named : a ∈ ix.tables.namedFiles owner path := found ▸ List.mem_cons_self
    rw [namedFiles, newestFirst, List.mem_mergeSort, List.mem_filter, mem_filesOf] at named
    rw [settled.sound.columns a named.1.1]
    rfl
  obtain ⟨related, resolves, -, told⟩ := Links.resolve_told answers a.record
  rw [← limited] at resolves
  obtain ⟨answer, -⟩ := Links.relatedFiles_ok fresh record resolves now
  refine ⟨related, answer, fun path' direction symbol => ?_⟩
  rw [told, own, Links.others_map]
  refine and_congr_right fun _ => ?_
  constructor
  · rintro ⟨s, member, same⟩
    obtain ⟨r, taken, rfl⟩ := List.mem_map.mp member
    exact ⟨r, taken, same⟩
  · rintro ⟨r, taken, same⟩
    exact ⟨r.summary, List.mem_map_of_mem taken, same⟩

/-- Whatever was called on an index, a file that is found has links: by each symbol that its latest
record imports to files that export it, and by each that it exports to files that import it. It
makes no difference what is kept, as long as it is up to date. The number after the limit is one
that an index can be asked for. -/
theorem replay_candidates (clock : Int) (calls : List IndexCall)
    (fits : Action.fits ((limit : Int) + 1) = true)
    (found : (replay clock calls).2.tables.namedFiles owner path = a :: older)
    (limited : links.candidateLimit = limit)
    (fresh : links.Fresh ((replay clock calls).2.linkSource Faults.none) owner) (now : τ) :
    let ix := (replay clock calls).2
    ∃ related, (links.relatedFiles (ix.linkSource Faults.none) now owner path).1 = .ok related ∧
      ∀ (direction : LinkDirection), ∀ symbol ∈ a.record.uses direction.own, ∃ linked,
        (∀ path', path' ∈ linked ↔ Links.Tells related path' direction symbol) ∧
          Links.Candidates (ix.tables.users owner symbol direction.other) a.path limit linked := by
  intro ix
  have settled : ix.Settled := replay_settled clock calls
  obtain ⟨related, answer, told⟩ := relatedFiles_told settled fits found limited fresh now
  refine ⟨related, answer, fun direction symbol uses => ⟨_, fun path' => ?_,
    Links.candidates_chosen _ _ _⟩⟩
  rw [Links.mem_paths_chosen, told]
  exact (and_iff_right uses).symm

/-- Of two files that export a symbol a limit of one leaves the one that was written later. -/
theorem replay_candidates_later :
    let file (path relativePath : String) (imports : List ImportRef) (exports : List String) :
        IndexedFile := {
      owner := "alice", workspace := "/w", path, relativePath, name := relativePath
      extension := "py", language := .python, content := "", contentHash := "", imports, exports
      indexedAt := Timestamp.ofMicros 0 }
    let calls := [file "/w/c.py" "c.py" [⟨"a", ["add"], 1⟩] [], file "/w/b.py" "b.py" [] ["add"],
      file "/w/a.py" "a.py" [] ["add"]].map
        fun f => (⟨.file f [] false, Faults.none, Faults.none_undoable, 0⟩ : IndexCall)
    let ix := (replay 0 calls).2
    let links : Links Nat := .empty 1 1
    ∃ related, (links.relatedFiles (ix.linkSource Faults.none) 0 "alice" "/w/c.py").1 =
        .ok related ∧ Links.Tells related "/w/b.py" .importsFrom "add" ∧
      ¬ Links.Tells related "/w/a.py" .importsFrom "add" := by
  intro file calls ix links
  obtain ⟨a, b, users, pathA, pathB, earlier⟩ : ∃ a b,
      ix.tables.users "alice" "add" .exported = [a, b] ∧ a.path = "/w/a.py" ∧ b.path = "/w/b.py" ∧
        a.indexedAt.storedText < b.indexedAt.storedText := ⟨_, _, rfl, rfl, rfl, by decide +kernel⟩
  obtain ⟨c, rows, imports, pathC⟩ : ∃ c,
      (ix.tables.filesOf "alice").filter (·.isNamed "/w/c.py") = [c] ∧
        c.record.importedNames = ["add"] ∧ c.path = "/w/c.py" := ⟨_, rfl, rfl, rfl⟩
  have found : ix.tables.namedFiles "alice" "/w/c.py" = [c] := by
    rw [namedFiles, rows, newestFirst, List.mergeSort_singleton]
  obtain ⟨related, answer, linkedBy⟩ := replay_candidates 0 calls (by decide) found rfl
    (Links.fresh_empty _ "alice" 1 (1 : Nat)) 0
  have uses : "add" ∈ c.record.uses LinkDirection.importsFrom.own := by
    simp [IndexedFile.uses, LinkDirection.own, imports]
  obtain ⟨linked, told, candidates⟩ := linkedBy .importsFrom "add" uses
  have others : Links.otherPaths [a, b] c.path = ["/w/a.py", "/w/b.py"] := by
    simp [Links.otherPaths, pathA, pathB, pathC]
    rfl
  rw [show ix.tables.users "alice" "add" LinkDirection.importsFrom.other = [a, b] from users]
    at candidates
  -- One file is linked, and it is not the earlier one.
  have size := candidates.length_eq (by simp [pathA, pathB])
  rw [others] at size
  obtain ⟨path, rfl⟩ := List.length_eq_one_iff.mp size
  have later : path = "/w/b.py" := by
    have among := candidates.subset (List.mem_singleton_self path)
    rw [others] at among
    by_contra other
    obtain rfl : path = "/w/a.py" := by simpa [other] using among
    obtain ⟨r, member, same, latest⟩ := candidates.latest _ (List.mem_singleton_self _)
    have first : r = a := by
      rcases List.mem_pair.mp member with rfl | rfl
      · rfl
      · exact absurd (pathB.symm.trans same) (by decide)
    have noNewer := latest b (by simp) (by rw [pathB, pathC]; decide) (by rw [pathB]; decide)
    rw [first] at noNewer
    exact absurd earlier noNewer.1.not_gt
  refine ⟨related, answer, (told _).mp ?_, fun wrong => ?_⟩
  · rw [later, List.mem_singleton]
  · rw [← told, later] at wrong
    exact absurd wrong (by decide)

/-- The file in question is stored for two workspaces, one within the other, and these two rows are
the answer to the query. So a limit of one leaves no link to the file that exports what it imports,
though that is the only other file there is. -/
theorem replay_candidates_hidden :
    let file (workspace path relativePath : String) (imports : List ImportRef) : IndexedFile := {
      owner := "alice", workspace, path, relativePath, name := "a.py", extension := "py"
      language := .python, content := "", contentHash := "", imports, exports := ["add"]
      indexedAt := Timestamp.ofMicros 0 }
    let calls := [file "/w/s" "/w/s/a.py" "a.py" [⟨"b", ["add"], 1⟩],
      file "/w" "/w/s/a.py" "s/a.py" [⟨"b", ["add"], 1⟩], file "/w" "/w/b.py" "b.py" []].map
        fun f => (⟨.file f [] false, Faults.none, Faults.none_undoable, 0⟩ : IndexCall)
    let ix := (replay 0 calls).2
    let links : Links Nat := .empty 1 1
    ∃ a older, ix.tables.namedFiles "alice" "/w/s/a.py" = a :: older ∧
      "add" ∈ a.record.importedNames ∧
      Links.otherPaths (ix.tables.users "alice" "add" .exported) a.path = ["/w/b.py"] ∧
      ∃ related, (links.relatedFiles (ix.linkSource Faults.none) 0 "alice" "/w/s/a.py").1 =
        .ok related ∧ ∀ path, ¬ Links.Tells related path .importsFrom "add" := by
  intro file calls ix links
  obtain ⟨b, outer, inner, users, named, pathB, pathOuter, pathInner, imports, earlier, later⟩ :
      ∃ b outer inner, ix.tables.users "alice" "add" .exported = [b, outer, inner] ∧
        (ix.tables.filesOf "alice").filter (·.isNamed "/w/s/a.py") = [outer, inner] ∧
        b.path = "/w/b.py" ∧ outer.path = "/w/s/a.py" ∧ inner.path = "/w/s/a.py" ∧
        inner.record.importedNames = ["add"] ∧
        b.indexedAt.storedText < outer.indexedAt.storedText ∧
        outer.indexedAt.storedText < inner.indexedAt.storedText :=
    ⟨_, _, _, rfl, rfl, rfl, rfl, rfl, rfl, by decide +kernel, by decide +kernel⟩
  have found : ix.tables.namedFiles "alice" "/w/s/a.py" = [inner, outer] := by
    rw [namedFiles, named, newestFirst_eq_reverse (List.pairwise_pair.mpr later)]
    rfl
  have asked : newestFirst [b, outer, inner] = [inner, outer, b] :=
    newestFirst_eq_reverse (.cons (List.forall_mem_cons.mpr ⟨earlier,
      List.forall_mem_singleton.mpr (earlier.trans later)⟩) (List.pairwise_pair.mpr later))
  have settled : ix.Settled := replay_settled 0 calls
  have limited : links.candidateLimit = 1 := rfl
  obtain ⟨related, answer, told⟩ := relatedFiles_told settled (by decide) found limited
    (Links.fresh_empty _ "alice" 1 (1 : Nat)) 0
  refine ⟨inner, [outer], found, by simp [imports], ?_, related, answer, fun path tells => ?_⟩
  · rw [users]
    simp [Links.otherPaths, pathB, pathOuter, pathInner]
    rfl
  · obtain ⟨-, r, member, -⟩ := (told path .importsFrom "add").mp tells
    rw [show ix.tables.users "alice" "add" LinkDirection.importsFrom.other = [b, outer, inner]
      from users, Links.chosen, asked] at member
    simp [pathOuter, pathInner] at member

end Index

end CodeAtlas
