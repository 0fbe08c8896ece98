import CodeAtlas.Links.Resolve
import CodeAtlas.Proofs.Cache
import CodeAtlas.Proofs.Index.Owner
import CodeAtlas.Proofs.Index.Representation

/-!
# Links go both ways

The links of a file are found symbol by symbol, by one query for the files that export what it
imports and another for those that import what it exports. What is found is merged into one entry
for each file and direction. As long as no query is cut off, both directions say the same: a file
links to another by a symbol when that one links back by it.

## Main results

`Links.tells_link`: what one link adds to the entries. `Links.resolve_ok`: what the entries of a
file tell in the end. `Index.replay_links`: what two files of an index tell of each other.
-/

namespace CodeAtlas

namespace RelatedFile

variable {r : RelatedFile} {s : FileSummary} {direction : LinkDirection} {symbol name : String}

@[simp]
theorem path_addSymbol : (r.addSymbol symbol).path = r.path := by
  unfold addSymbol
  split <;> rfl

@[simp]
theorem direction_addSymbol : (r.addSymbol symbol).direction = r.direction := by
  unfold addSymbol
  split <;> rfl

theorem mem_addSymbol : name ∈ (r.addSymbol symbol).symbols ↔ name ∈ r.symbols ∨ name = symbol := by
  unfold addSymbol
  split
  next present =>
    have present : symbol ∈ r.symbols := by simpa using present
    exact ⟨.inl, fun told => told.elim id fun same => same ▸ present⟩
  next => simp

theorem nodup_addSymbol (nodup : r.symbols.Nodup) : (r.addSymbol symbol).symbols.Nodup := by
  unfold addSymbol
  split
  · exact nodup
  next absent =>
    have absent : symbol ∉ r.symbols := by simpa using absent
    exact List.nodup_append.mpr ⟨nodup, List.nodup_singleton _, fun a member b one same =>
      absent (List.mem_singleton.mp one ▸ same ▸ member)⟩

theorem isFor_iff : r.isFor s direction = true ↔ r.path = s.path ∧ r.direction = direction := by
  simp [isFor]

end RelatedFile

/-- The symbols that a file uses in a way. -/
def IndexedFile.uses (f : IndexedFile) : SymbolUse → List String
  | .exported => f.exports
  | .imported => f.importedNames

namespace LinkDirection

/-- How the file in question uses the symbol of a link. -/
def own : LinkDirection → SymbolUse
  | importsFrom => .imported
  | importsTo => .exported

/-- How the other file uses it. -/
def other : LinkDirection → SymbolUse
  | importsFrom => .exported
  | importsTo => .imported

end LinkDirection

namespace Links

/-! ### Entries -/

/-- An entry for a file and direction has a symbol. -/
def Tells (entries : List RelatedFile) (path : String) (direction : LinkDirection)
    (symbol : String) : Prop :=
  ∃ r ∈ entries, r.path = path ∧ r.direction = direction ∧ symbol ∈ r.symbols

/-- At most one entry for each file and direction, with some symbols, each of them once. -/
structure Tidy (entries : List RelatedFile) : Prop where
  keys : (entries.map fun r => (r.path, r.direction)).Nodup
  some : ∀ r ∈ entries, r.symbols ≠ []
  symbols : ∀ r ∈ entries, r.symbols.Nodup

variable {entries : List RelatedFile} {s : FileSummary} {direction direction' : LinkDirection}
  {symbol symbol' path : String}

/-- The entry with one more symbol, when it is for that file and direction. -/
def extend (direction : LinkDirection) (symbol : String) (s : FileSummary) (r : RelatedFile) :
    RelatedFile :=
  if r.isFor s direction then r.addSymbol symbol else r

@[simp]
theorem path_extend (r : RelatedFile) : (extend direction symbol s r).path = r.path := by
  unfold extend
  split <;> simp

@[simp]
theorem direction_extend (r : RelatedFile) :
    (extend direction symbol s r).direction = r.direction := by
  unfold extend
  split <;> simp

theorem mem_extend {r : RelatedFile} : symbol' ∈ (extend direction symbol s r).symbols ↔
    symbol' ∈ r.symbols ∨ (r.path = s.path ∧ r.direction = direction) ∧ symbol' = symbol := by
  rw [← RelatedFile.isFor_iff, extend]
  split
  next own => simp [own, RelatedFile.mem_addSymbol]
  next other => simp [other]

theorem extend_ne_nil {r : RelatedFile} (some : r.symbols ≠ []) :
    (extend direction symbol s r).symbols ≠ [] := by
  obtain ⟨first, member⟩ := List.exists_mem_of_ne_nil _ some
  exact List.ne_nil_of_mem (mem_extend.mpr (.inl member))

theorem nodup_extend {r : RelatedFile} (nodup : r.symbols.Nodup) :
    (extend direction symbol s r).symbols.Nodup := by
  unfold extend
  split
  · exact RelatedFile.nodup_addSymbol nodup
  · exact nodup

theorem link_present (present : entries.any (·.isFor s direction) = true) :
    link direction symbol entries s = entries.map (extend direction symbol s) :=
  if_pos present

theorem link_absent (absent : ¬ entries.any (·.isFor s direction) = true) :
    link direction symbol entries s =
      entries ++ [{ RelatedFile.ofSummary s direction with symbols := [symbol] }] :=
  if_neg absent

/-- One link tells of one more symbol. -/
theorem tells_link : Tells (link direction symbol entries s) path direction' symbol' ↔
    Tells entries path direction' symbol' ∨
      s.path = path ∧ direction = direction' ∧ symbol = symbol' := by
  by_cases present : entries.any (·.isFor s direction) = true
  · -- One entry gets the symbol, and all others stay as they are.
    rw [link_present present]
    obtain ⟨own, among, mine⟩ := List.any_eq_true.mp present
    obtain ⟨samePath, sameDirection⟩ := RelatedFile.isFor_iff.mp mine
    constructor
    · rintro ⟨_, member, rfl, rfl, told⟩
      obtain ⟨r, old, rfl⟩ := List.mem_map.mp member
      rw [path_extend, direction_extend]
      rcases mem_extend.mp told with before | ⟨⟨ofFile, inDirection⟩, new⟩
      · exact .inl ⟨r, old, rfl, rfl, before⟩
      · exact .inr ⟨ofFile.symm, inDirection.symm, new.symm⟩
    · have kept (r : RelatedFile) (old : r ∈ entries)
          (told : symbol' ∈ (extend direction symbol s r).symbols) :
          Tells (entries.map (extend direction symbol s)) r.path r.direction symbol' :=
        ⟨_, List.mem_map_of_mem old, path_extend r, direction_extend r, told⟩
      rintro (⟨r, old, rfl, rfl, told⟩ | ⟨rfl, rfl, rfl⟩)
      · exact kept r old (mem_extend.mpr (.inl told))
      · have told := kept own among (mem_extend.mpr (.inr ⟨⟨samePath, sameDirection⟩, rfl⟩))
        rwa [samePath, sameDirection] at told
  · -- The new entry has this symbol alone.
    rw [link_absent present]
    simp [Tells, or_and_right, exists_or, RelatedFile.ofSummary, eq_comm]

theorem Tidy.link (tidy : Tidy entries) : Tidy (link direction symbol entries s) := by
  by_cases present : entries.any (·.isFor s direction) = true
  · rw [link_present present]
    refine ⟨?_, fun r member => ?_, fun r member => ?_⟩
    · simpa [List.map_map, Function.comp_def] using tidy.keys
    · obtain ⟨r, old, rfl⟩ := List.mem_map.mp member
      exact extend_ne_nil (tidy.some r old)
    · obtain ⟨r, old, rfl⟩ := List.mem_map.mp member
      exact nodup_extend (tidy.symbols r old)
  · rw [link_absent present]
    refine ⟨?_, fun r member => ?_, fun r member => ?_⟩
    · rw [List.map_append, List.nodup_append]
      refine ⟨tidy.keys, List.nodup_singleton _, fun key old new one same => present ?_⟩
      obtain ⟨r, member, rfl⟩ := List.mem_map.mp old
      cases List.mem_singleton.mp one
      obtain ⟨ofFile, inDirection⟩ := Prod.mk.inj same
      exact List.any_eq_true.mpr ⟨r, member, RelatedFile.isFor_iff.mpr ⟨ofFile, inDirection⟩⟩
    · rcases List.mem_append.mp member with old | new
      · exact tidy.some r old
      · cases List.mem_singleton.mp new
        exact List.cons_ne_nil _ _
    · rcases List.mem_append.mp member with old | new
      · exact tidy.symbols r old
      · cases List.mem_singleton.mp new
        exact List.nodup_singleton _

theorem tells_links {files : List FileSummary} :
    Tells (files.foldl (link direction symbol) entries) path direction' symbol' ↔
      Tells entries path direction' symbol' ∨
        (∃ s ∈ files, s.path = path) ∧ direction = direction' ∧ symbol = symbol' := by
  induction files generalizing entries with
  | nil => simp
  | cons s files ih =>
    rw [List.foldl_cons, ih, tells_link, List.exists_mem_cons_iff, or_and_right, or_assoc]

theorem Tidy.links {files : List FileSummary} (tidy : Tidy entries) :
    Tidy (files.foldl (Links.link direction symbol) entries) := by
  induction files generalizing entries with
  | nil => exact tidy
  | cons s files ih => exact ih tidy.link

/-! ### Resolution -/

variable {source : LinkSource} {limit : Nat} {owner : String}

/-- What a limit leaves of the files that are found for a symbol, the file itself apart. -/
def others (limit : Nat) (ownPath : String) (files : List FileSummary) : List FileSummary :=
  (files.filter (·.path != ownPath)).take limit

/-- Each symbol links to what the limit leaves of the files that are found for it. -/
theorem linkAll_told {use : SymbolUse} {files : String → List FileSummary}
    (answers : ∀ symbol, source.symbolFiles owner symbol use ((limit : Int) + 1) =
      .ok (files symbol)) (ownPath : String) (direction : LinkDirection) (symbols : List String)
    (tidy : Tidy entries) :
    ∃ related, linkAll source limit owner ownPath use direction symbols entries = .ok related ∧
      Tidy related ∧ ∀ path direction' symbol, Tells related path direction' symbol ↔
        Tells entries path direction' symbol ∨
          direction = direction' ∧ symbol ∈ symbols ∧
            ∃ s ∈ others limit ownPath (files symbol), s.path = path := by
  induction symbols generalizing entries with
  | nil => exact ⟨entries, rfl, tidy, by simp⟩
  | cons first rest ih =>
    let found := others limit ownPath (files first)
    have tidied : Tidy (found.foldl (link direction first) entries) := tidy.links
    obtain ⟨related, linked, tidy', told⟩ := ih tidied
    refine ⟨related, ?_, tidy', fun path direction' symbol => ?_⟩
    · simp only [linkAll, answers]
      exact linked
    · rw [told, tells_links, List.mem_cons]
      grind

/-- The entries of a file tell of what the limit leaves of the files that export what it imports,
and of those that import what it exports. -/
theorem resolve_told {files : String → SymbolUse → List FileSummary}
    (answers : ∀ symbol use, source.symbolFiles owner symbol use ((limit : Int) + 1) =
      .ok (files symbol use)) (f : IndexedFile) :
    ∃ related, resolve source limit owner f = .ok related ∧ Tidy related ∧
      ∀ path direction symbol, Tells related path direction symbol ↔
        symbol ∈ f.uses direction.own ∧
          ∃ s ∈ others limit f.path (files symbol direction.other), s.path = path := by
  have nothing : Tidy [] := ⟨List.nodup_nil, nofun, nofun⟩
  obtain ⟨entries, imports, tidy, told⟩ := linkAll_told (fun symbol => answers symbol .exported)
    f.path .importsFrom f.importedNames nothing
  obtain ⟨related, exports, tidy', told'⟩ := linkAll_told (fun symbol => answers symbol .imported)
    f.path .importsTo (distinct f.exports) tidy
  refine ⟨related, ?_, tidy', fun path direction symbol => ?_⟩
  · simp only [resolve, imports]
    exact exports
  · rw [told', told]
    cases direction with
    | importsFrom => simp [Tells, IndexedFile.uses, LinkDirection.own, LinkDirection.other]
    | importsTo => simp [Tells, IndexedFile.uses, LinkDirection.own, LinkDirection.other]

/-- When no answer is cut off, the entries of a file tell which other files export what it imports,
and which import what it exports. -/
theorem resolve_ok {files : String → SymbolUse → List FileSummary}
    (answers : ∀ symbol use, source.symbolFiles owner symbol use ((limit : Int) + 1) =
      .ok (files symbol use)) (few : ∀ symbol use, (files symbol use).length ≤ limit)
    (f : IndexedFile) :
    ∃ related, resolve source limit owner f = .ok related ∧ Tidy related ∧
      ∀ path direction symbol, Tells related path direction symbol ↔
        symbol ∈ f.uses direction.own ∧ path ≠ f.path ∧
          ∃ s ∈ files symbol direction.other, s.path = path := by
  obtain ⟨related, resolves, tidy, told⟩ := resolve_told answers f
  refine ⟨related, resolves, tidy, fun path direction symbol => ?_⟩
  -- No more are found than the limit, so none is dropped.
  have whole : others limit f.path (files symbol direction.other) =
      (files symbol direction.other).filter (·.path != f.path) :=
    List.take_of_length_le (Nat.le_trans (List.length_filter_le _ _) (few symbol _))
  have among : (∃ s ∈ others limit f.path (files symbol direction.other), s.path = path) ↔
      path ≠ f.path ∧ ∃ s ∈ files symbol direction.other, s.path = path := by
    rw [whole]
    constructor
    · rintro ⟨s, member, rfl⟩
      obtain ⟨found, apart⟩ := List.mem_filter.mp member
      exact ⟨by simpa using apart, s, found, rfl⟩
    · rintro ⟨apart, s, found, rfl⟩
      exact ⟨s, List.mem_filter.mpr ⟨found, by simpa using apart⟩, rfl⟩
  rw [told, among]

/-! ### What is kept -/

section Kept

variable {τ : Type} {links : Links τ}

/-- What is kept for an owner is what a source answers now. -/
def Fresh (source : LinkSource) (owner : String) (links : Links τ) : Prop :=
  ∀ e ∈ links.cache.entries, ∀ path, e.key = key owner path → ∃ record rest,
    source.recordsAt owner path = .ok (record :: rest) ∧
      resolve source links.candidateLimit owner record = .ok e.value

theorem fresh_empty (source : LinkSource) (owner : String) (limit : Nat) (lifetime : τ) :
    (empty limit lifetime).Fresh source owner :=
  nofun

theorem key_injective {path path' : String} (same : key owner path = key owner path') :
    path = path' := by
  have chars := congrArg String.toList same
  simp only [key, String.toList_append, List.append_cancel_left_eq] at chars
  exact String.toList_inj.mp chars

variable [Add τ] [LE τ] [DecidableLE τ]

/-- A file that is found has the links that its record has, whether or not they are kept. -/
theorem relatedFiles_ok (fresh : links.Fresh source owner) {path : String} {f : IndexedFile}
    {rest : List IndexedFile} (found : source.recordsAt owner path = .ok (f :: rest))
    {related : List RelatedFile}
    (resolved : resolve source links.candidateLimit owner f = .ok related) (now : τ) :
    (links.relatedFiles source now owner path).1 = .ok related ∧
      (links.relatedFiles source now owner path).2.candidateLimit = links.candidateLimit ∧
      (links.relatedFiles source now owner path).2.Fresh source owner := by
  simp only [relatedFiles]
  cases kept : (links.cache.get now (key owner path)).1 with
  | some value =>
    obtain ⟨e, member, ofPath, holds⟩ := Cache.get_found kept
    -- What is kept was resolved from this very record.
    obtain ⟨f', rest', found', resolved'⟩ := fresh e member path ofPath
    obtain ⟨rfl, _⟩ := List.cons.inj (Except.ok.inj (found.symm.trans found'))
    refine ⟨?_, rfl, fun e member => fresh e (Cache.mem_get member)⟩
    rw [← holds]
    exact resolved'.symm.trans resolved
  | none =>
    simp only [found, resolved]
    refine ⟨trivial, trivial, fun e member path' ofPath => ?_⟩
    rcases Cache.mem_set member with old | ⟨new, holds⟩
    · exact fresh e (Cache.mem_get old) path' ofPath
    · obtain rfl := key_injective (ofPath.symm.trans new)
      exact ⟨f, rest, found, holds ▸ resolved⟩

theorem edges_ok (fresh : links.Fresh source owner) {path : String} {f : IndexedFile}
    {rest : List IndexedFile} (found : source.recordsAt owner path = .ok (f :: rest))
    {related : List RelatedFile}
    (resolved : resolve source links.candidateLimit owner f = .ok related) (now : τ) :
    (links.edges source now owner path).1 = .ok (related.flatMap fun r =>
      r.symbols.map fun symbol => ⟨f.path, r.path, symbol, r.direction⟩) := by
  obtain ⟨answer, _⟩ := relatedFiles_ok fresh found resolved now
  simp only [edges, found, answer]
  rfl

end Kept

/-- Each symbol of tidy entries makes one edge. -/
theorem mem_edges {from_ : String} {edge : LinkEdge} :
    (edge ∈ entries.flatMap fun r =>
      r.symbols.map fun symbol => (⟨from_, r.path, symbol, r.direction⟩ : LinkEdge)) ↔
      edge.source = from_ ∧ Tells entries edge.target edge.direction edge.symbol := by
  simp only [List.mem_flatMap, List.mem_map, Tells]
  constructor
  · rintro ⟨r, member, symbol, told, rfl⟩
    exact ⟨rfl, r, member, rfl, rfl, told⟩
  · rintro ⟨rfl, r, member, target, direction, told⟩
    exact ⟨r, member, edge.symbol, told, by rw [target, direction]⟩

theorem Tidy.nodup_edges (tidy : Tidy entries) (from_ : String) :
    (entries.flatMap fun r =>
      r.symbols.map fun symbol => (⟨from_, r.path, symbol, r.direction⟩ : LinkEdge)).Nodup := by
  refine List.nodup_flatMap.mpr ⟨fun r member => ?_, ?_⟩
  · exact (tidy.symbols r member).map fun symbol symbol' same => (LinkEdge.mk.inj same).2.2.1
  · -- Edges from two entries differ in the file or in the direction.
    refine (List.pairwise_map.mp tidy.keys).imp fun differ edge member member' => differ ?_
    obtain ⟨symbol, _, rfl⟩ := List.mem_map.mp member
    obtain ⟨symbol', _, same⟩ := List.mem_map.mp member'
    obtain ⟨_, path, _, direction⟩ := LinkEdge.mk.inj same
    rw [path, direction]

end Links

namespace Tables

variable {t : Tables} {owner : String} {limit : Nat}

/-- The symbols listed for a file are those that its record uses. -/
theorem Sound.contains_symbol (sound : t.Sound) {r : FileRow} (member : r ∈ t.files)
    (symbol : String) (use : SymbolUse) :
    t.symbols.contains ⟨r.id, symbol, use⟩ = decide (symbol ∈ r.record.uses use) := by
  have lists := sound.lists member
  rw [Bool.eq_iff_iff, List.contains_iff_mem, decide_eq_true_eq, ← List.count_pos_iff]
  cases use with
  | exported =>
    rw [lists.exported, IndexedFile.uses]
    split <;> simp [*]
  | imported =>
    have names : symbol ∈ r.record.importedNames ↔ ∃ i ∈ r.record.imports, symbol ∈ i.names := by
      simp [IndexedFile.importedNames, importedNames]
    rw [lists.imported, IndexedFile.uses, names]
    split <;> simp [*]

/-- The files of an owner that use a symbol in a way. -/
def users (t : Tables) (owner symbol : String) (use : SymbolUse) : List FileRow :=
  (t.filesOf owner).filter fun r => symbol ∈ r.record.uses use

theorem Sound.symbolFiles_eq (sound : t.Sound) (symbol : String) (use : SymbolUse) :
    t.symbolFiles owner symbol use = newestFirst (t.users owner symbol use) := by
  rw [symbolFiles, users]
  congr 1
  exact List.filter_congr fun r member => sound.contains_symbol (mem_filesOf.mp member).1 symbol use

/-- The files of an owner are told apart by their paths, and no symbol is used by too many. -/
structure Linkable (t : Tables) (owner : String) (limit : Nat) : Prop where
  paths : ((t.filesOf owner).map (·.path)).Nodup
  apart : ∀ r ∈ t.filesOf owner, ∀ r' ∈ t.filesOf owner, r ≠ r' → r.path ≠ r'.relativePath
  few : ∀ symbol use, (t.users owner symbol use).length ≤ limit

/-- Files that are told apart by their paths are linkable when they are no more than the limit. -/
theorem linkable_of_paths {paths : List (String × String)}
    (rows : (t.filesOf owner).map (fun r => (r.path, r.relativePath)) = paths)
    (distinct : (paths.map Prod.fst).Nodup) (apart : ∀ p ∈ paths, ∀ q ∈ paths, p.1 ≠ q.2)
    (few : paths.length ≤ limit) : t.Linkable owner limit := by
  subst rows
  refine ⟨by simpa [Function.comp_def] using distinct, fun r member r' member' _ => ?_,
    fun symbol use => ?_⟩
  · exact apart _ (List.mem_map_of_mem member) _ (List.mem_map_of_mem member')
  · exact Nat.le_trans (List.length_filter_le _ _) (by simpa using few)

theorem Linkable.eq_of_path (linkable : t.Linkable owner limit) {a b : FileRow}
    (member : a ∈ t.filesOf owner) (member' : b ∈ t.filesOf owner) (same : a.path = b.path) :
    a = b :=
  List.inj_on_of_nodup_map linkable.paths member member' same

/-- One file alone has its absolute path. -/
theorem Linkable.only (linkable : t.Linkable owner limit) {a : FileRow}
    (member : a ∈ t.filesOf owner) :
    (t.filesOf owner).filter (·.isNamed a.path) = [a] := by
  have named : ∀ r ∈ t.filesOf owner, r ≠ a → r.isNamed a.path = false := by
    intro r among other
    have path : r.path ≠ a.path := fun same => other (linkable.eq_of_path among member same)
    have relativePath : r.relativePath ≠ a.path :=
      (linkable.apart a member r among other.symm).symm
    simp [FileRow.isNamed, path, relativePath]
  obtain ⟨before, after, split⟩ := List.append_of_mem member
  have distinct := linkable.paths
  rw [split, List.map_append, List.map_cons] at distinct
  obtain ⟨_, tail, apart⟩ := List.nodup_append.mp distinct
  rw [split] at named ⊢
  -- What stands before it and after it has other paths.
  rw [List.filter_append, List.filter_cons_of_pos (by simp [FileRow.isNamed]),
    List.filter_eq_nil_iff.mpr, List.filter_eq_nil_iff.mpr, List.nil_append]
  · intro r later
    have other : r ≠ a := by
      rintro rfl
      exact (List.nodup_cons.mp tail).1 (List.mem_map_of_mem later)
    simp [named r (List.mem_append_right _ (List.mem_cons_of_mem _ later)) other]
  · intro r earlier
    have other : r ≠ a := by
      rintro rfl
      exact apart _ (List.mem_map_of_mem earlier) _ List.mem_cons_self rfl
    simp [named r (List.mem_append_left _ earlier) other]

end Tables

namespace Index

open Tables

variable {ix : Index} {owner : String} {limit : Nat}

/-- What an index answers when it is asked for one file more than the limit. -/
theorem symbolFiles_asked (settled : ix.Settled) (fits : Action.fits ((limit : Int) + 1) = true)
    (symbol : String) (use : SymbolUse) :
    ix.symbolFiles Faults.none owner symbol use ((limit : Int) + 1) =
      .ok (((newestFirst (ix.tables.users owner symbol use)).take (limit + 1)).map
        (·.summary)) := by
  have count : ((limit : Int) + 1).toNat = limit + 1 := by omega
  rw [symbolFiles_calm settled.opened, if_pos fits, settled.sound.symbolFiles_eq, count]
  simp only [if_neg (show ¬ (limit : Int) + 1 < 0 by omega)]

/-- Asked for one file more than use a symbol at most, an index answers with all of them. -/
theorem symbolFiles_few (settled : ix.Settled) (fits : Action.fits ((limit : Int) + 1) = true)
    {symbol : String} {use : SymbolUse} (few : (ix.tables.users owner symbol use).length ≤ limit) :
    ix.symbolFiles Faults.none owner symbol use ((limit : Int) + 1) =
      .ok ((newestFirst (ix.tables.users owner symbol use)).map (·.summary)) := by
  have short : (newestFirst (ix.tables.users owner symbol use)).length ≤ limit + 1 := by
    rw [newestFirst, List.length_mergeSort]
    omega
  rw [symbolFiles_asked settled fits, List.take_of_length_le short]

/-- Asked for one file more than there may be, an index answers with all of them. -/
theorem symbolFiles_whole (settled : ix.Settled) (fits : Action.fits ((limit : Int) + 1) = true)
    (linkable : ix.tables.Linkable owner limit) (symbol : String) (use : SymbolUse) :
    ix.symbolFiles Faults.none owner symbol use ((limit : Int) + 1) =
      .ok ((newestFirst (ix.tables.users owner symbol use)).map (·.summary)) :=
  symbolFiles_few settled fits (linkable.few symbol use)

/-- Whatever was called on an index, the links of two files of an owner agree: one is linked as
importing a symbol from the other exactly when the other is linked as exporting it to the one, and
that is when their records say so. It makes no difference what is kept, as long as it is up to
date. The files are told apart by their paths, no symbol is used by more of them than the limit,
and the number after the limit is one that an index can be asked for. -/
theorem replay_links (clock : Int) (calls : List IndexCall)
    (fits : Action.fits ((limit : Int) + 1) = true)
    (linkable : (replay clock calls).2.tables.Linkable owner limit)
    {τ : Type} [Add τ] [LE τ] [DecidableLE τ] :
    let ix := (replay clock calls).2
    let source := ix.linkSource Faults.none
    let rows := ix.tables.filesOf owner
    ∃ related : FileRow → List RelatedFile,
      (∀ a ∈ rows, ∀ (links : Links τ) (now : τ), links.candidateLimit = limit →
        links.Fresh source owner →
          (links.relatedFiles source now owner a.path).1 = .ok (related a) ∧
          (links.relatedFiles source now owner a.path).2.candidateLimit = limit ∧
          (links.relatedFiles source now owner a.path).2.Fresh source owner ∧
          ∃ edges, (links.edges source now owner a.path).1 = .ok edges ∧ edges.Nodup ∧
            ∀ edge, edge ∈ edges ↔ edge.source = a.path ∧
              Links.Tells (related a) edge.target edge.direction edge.symbol) ∧
      (∀ a ∈ rows, ((related a).map fun r => (r.path, r.direction)).Nodup ∧
        ∀ r ∈ related a, r.path ≠ a.path ∧ ∃ b ∈ rows, b.path = r.path) ∧
      ∀ a ∈ rows, ∀ b ∈ rows, a ≠ b → ∀ symbol,
        (Links.Tells (related a) b.path .importsFrom symbol ↔
          symbol ∈ a.record.importedNames ∧ symbol ∈ b.record.exports) ∧
        (Links.Tells (related b) a.path .importsTo symbol ↔
          symbol ∈ a.record.importedNames ∧ symbol ∈ b.record.exports) := by
  intro ix source rows
  have settled : ix.Settled := replay_settled clock calls
  have answers (symbol : String) (use : SymbolUse) :
      source.symbolFiles owner symbol use ((limit : Int) + 1) =
        .ok ((newestFirst (ix.tables.users owner symbol use)).map (·.summary)) :=
    symbolFiles_whole settled fits linkable symbol use
  have few (symbol : String) (use : SymbolUse) :
      ((newestFirst (ix.tables.users owner symbol use)).map (·.summary)).length ≤ limit := by
    rw [List.length_map, newestFirst, List.length_mergeSort]
    exact linkable.few symbol use
  choose resolved resolves tidy told using Links.resolve_ok answers few
  have path (a : FileRow) (member : a ∈ rows) : a.record.path = a.path := by
    rw [settled.sound.columns a (mem_filesOf.mp member).1]
    rfl
  have users (symbol path : String) (use : SymbolUse) :
      (∃ s ∈ (newestFirst (ix.tables.users owner symbol use)).map (·.summary), s.path = path) ↔
        ∃ r ∈ rows, symbol ∈ r.record.uses use ∧ r.path = path := by
    simp [newestFirst, Tables.users, FileRow.summary, rows, and_assoc]
  -- A file tells of another by the symbols that the two use in opposite ways.
  have tells (a : FileRow) (own : a ∈ rows) (b : FileRow) (member : b ∈ rows) (differ : a ≠ b)
      (direction : LinkDirection) (symbol : String) :
      Links.Tells (resolved a.record) b.path direction symbol ↔
        symbol ∈ a.record.uses direction.own ∧ symbol ∈ b.record.uses direction.other := by
    have apart : b.path ≠ a.path := fun same =>
      differ (linkable.eq_of_path own member same.symm)
    rw [told, users, path a own]
    constructor
    · rintro ⟨uses, _, r, among, uses', same⟩
      obtain rfl := linkable.eq_of_path among member same
      exact ⟨uses, uses'⟩
    · rintro ⟨uses, uses'⟩
      exact ⟨uses, apart, b, member, uses', rfl⟩
  refine ⟨fun a => resolved a.record, fun a member links now limited fresh => ?_,
    fun a member => ⟨(tidy a.record).keys, fun r among => ?_⟩,
    fun a own b member differ symbol => ⟨?_, ?_⟩⟩
  · have found := recordsAt_only settled.opened (linkable.only member)
    have resolves := resolves a.record
    rw [← limited] at resolves
    obtain ⟨answer, limited', fresh'⟩ := Links.relatedFiles_ok fresh found resolves now
    refine ⟨answer, limited'.trans limited, fresh', _, Links.edges_ok fresh found resolves now,
      (tidy a.record).nodup_edges _, fun edge => ?_⟩
    rw [Links.mem_edges, path a member]
  · obtain ⟨symbol, used⟩ := List.exists_mem_of_ne_nil _ ((tidy a.record).some r among)
    obtain ⟨_, apart, told⟩ :=
      (told a.record r.path r.direction symbol).mp ⟨r, among, rfl, rfl, used⟩
    obtain ⟨b, member', _, same⟩ := (users symbol r.path _).mp told
    exact ⟨path a member ▸ apart, b, member', same⟩
  · exact tells a own b member differ .importsFrom symbol
  · rw [tells b member a own differ.symm .importsTo symbol]
    exact and_comm

/-- Of three files one exports a symbol, one passes it on, and one imports it. -/
theorem replay_links_passed :
    let file (path relativePath : String) (imports : List ImportRef) (exports : List String) :
        IndexedFile := {
      owner := "alice", workspace := "/w", path, relativePath, name := relativePath
      extension := "py", language := .python, content := "", contentHash := "", imports, exports
      indexedAt := Timestamp.ofMicros 0 }
    let calls := [file "/w/c.py" "c.py" [⟨"b", ["add"], 1⟩] [],
      file "/w/b.py" "b.py" [⟨"a", ["add"], 1⟩] ["add"], file "/w/a.py" "a.py" [] ["add"]].map
        fun f => (⟨.file f [] false, Faults.none, Faults.none_undoable, 0⟩ : IndexCall)
    let ix := (replay 0 calls).2
    let links : Links Nat := .empty 3 1
    ∃ found, (links.relatedFiles (ix.linkSource Faults.none) 0 "alice" "/w/b.py").1 = .ok found ∧
      Links.Tells found "/w/a.py" .importsFrom "add" ∧
      Links.Tells found "/w/c.py" .importsTo "add" := by
  intro file calls ix links
  have rows : (ix.tables.filesOf "alice").map (fun r => (r.path, r.relativePath)) =
      [("/w/a.py", "a.py"), ("/w/b.py", "b.py"), ("/w/c.py", "c.py")] := rfl
  have linkable : ix.tables.Linkable "alice" 3 :=
    linkable_of_paths rows (by decide) (by decide) (by decide)
  obtain ⟨a, inA, pathA, exportsA⟩ : ∃ r ∈ ix.tables.filesOf "alice",
      r.path = "/w/a.py" ∧ r.record.exports = ["add"] := ⟨_, .head _, rfl, rfl⟩
  obtain ⟨b, inB, pathB, importsB, exportsB⟩ : ∃ r ∈ ix.tables.filesOf "alice",
      r.path = "/w/b.py" ∧ r.record.importedNames = ["add"] ∧ r.record.exports = ["add"] :=
    ⟨_, .tail _ (.head _), rfl, rfl, rfl⟩
  obtain ⟨c, inC, pathC, importsC⟩ : ∃ r ∈ ix.tables.filesOf "alice",
      r.path = "/w/c.py" ∧ r.record.importedNames = ["add"] :=
    ⟨_, .tail _ (.tail _ (.head _)), rfl, rfl⟩
  obtain ⟨related, answers, _, tells⟩ := replay_links 0 calls (by decide) linkable (τ := Nat)
  obtain ⟨answer, _⟩ := answers b inB links 0 rfl (Links.fresh_empty _ _ _ _)
  have aside : b ≠ a ∧ c ≠ b := by
    constructor <;> rintro rfl
    · exact absurd (pathA.symm.trans pathB) (by decide)
    · exact absurd (pathB.symm.trans pathC) (by decide)
  refine ⟨related b, pathB ▸ answer, ?_, ?_⟩
  · rw [← pathA, (tells b inB a inA aside.1 "add").1, importsB, exportsA]
    simp
  · rw [← pathC, (tells c inC b inB aside.2 "add").2, importsC, exportsB]
    simp

/-- Where the number after the limit is none that an index can be asked for, no file that imports or
exports anything has links. -/
theorem resolve_oversized {ix : Index} (settled : ix.Settled)
    (beyond : Action.fits ((limit : Int) + 1) = false) (owner : String) {f : IndexedFile}
    (used : f.importedNames ≠ [] ∨ f.exports ≠ []) :
    Links.resolve (ix.linkSource Faults.none) limit owner f = .error oversized := by
  have refused (symbol : String) (use : SymbolUse) :
      (ix.linkSource Faults.none).symbolFiles owner symbol use ((limit : Int) + 1) =
        .error oversized := by
    simp [linkSource, symbolFiles_calm settled.opened, beyond]
  have first {symbols : List String} (some : symbols ≠ []) (use : SymbolUse)
      (direction : LinkDirection) (entries : List RelatedFile) :
      Links.linkAll (ix.linkSource Faults.none) limit owner f.path use direction symbols entries =
        .error oversized := by
    obtain ⟨symbol, rest, rfl⟩ := List.exists_cons_of_ne_nil some
    simp only [Links.linkAll, refused]
    rfl
  simp only [Links.resolve]
  -- The first symbol that is asked for is refused, imported or not.
  by_cases imports : f.importedNames = []
  · have exports : distinct f.exports ≠ [] := by
      obtain ⟨symbol, member⟩ := List.exists_mem_of_ne_nil _ (used.resolve_left (absurd imports))
      exact List.ne_nil_of_mem (mem_distinct.mpr member)
    rw [imports]
    exact first exports .imported .importsTo []
  · rw [first imports]
    rfl

/-- With the largest number that fits as the limit, a file that imports what another exports has no
links, though both are told apart and nothing is kept. -/
theorem replay_links_oversized :
    let file (path relativePath : String) (imports : List ImportRef) (exports : List String) :
        IndexedFile := {
      owner := "alice", workspace := "/w", path, relativePath, name := relativePath
      extension := "py", language := .python, content := "", contentHash := "", imports, exports
      indexedAt := Timestamp.ofMicros 0 }
    let calls := [file "/w/b.py" "b.py" [⟨"a", ["add"], 1⟩] [],
      file "/w/a.py" "a.py" [] ["add"]].map
        fun f => (⟨.file f [] false, Faults.none, Faults.none_undoable, 0⟩ : IndexCall)
    let ix := (replay 0 calls).2
    let source := ix.linkSource Faults.none
    let links : Links Nat := .empty 9223372036854775807 1
    ix.tables.Linkable "alice" links.candidateLimit ∧ links.Fresh source "alice" ∧
      ∃ a ∈ ix.tables.filesOf "alice", ∃ b ∈ ix.tables.filesOf "alice", a ≠ b ∧
        "add" ∈ b.record.importedNames ∧ "add" ∈ a.record.exports ∧
        (links.relatedFiles source 0 "alice" b.path).1 = .error oversized ∧
        (links.relatedFiles source 0 "alice" a.path).1 = .error oversized := by
  intro file calls ix source links
  have settled : ix.Settled := replay_settled 0 calls
  have rows : (ix.tables.filesOf "alice").map (fun r => (r.path, r.relativePath)) =
      [("/w/a.py", "a.py"), ("/w/b.py", "b.py")] := rfl
  have linkable : ix.tables.Linkable "alice" 9223372036854775807 :=
    linkable_of_paths rows (by decide) (by decide) (by decide)
  obtain ⟨a, inA, pathA, exportsA⟩ : ∃ r ∈ ix.tables.filesOf "alice",
      r.path = "/w/a.py" ∧ r.record.exports = ["add"] := ⟨_, .head _, rfl, rfl⟩
  obtain ⟨b, inB, pathB, importsB⟩ : ∃ r ∈ ix.tables.filesOf "alice",
      r.path = "/w/b.py" ∧ r.record.importedNames = ["add"] :=
    ⟨_, .tail _ (.head _), rfl, rfl⟩
  have unanswered (r : FileRow) (member : r ∈ ix.tables.filesOf "alice")
      (used : r.record.importedNames ≠ [] ∨ r.record.exports ≠ []) :
      (links.relatedFiles source 0 "alice" r.path).1 = .error oversized := by
    have found : source.recordsAt "alice" r.path = .ok [r.record] :=
      recordsAt_only settled.opened (linkable.only member)
    have refused : Links.resolve source links.candidateLimit "alice" r.record = .error oversized :=
      resolve_oversized settled (by decide) "alice" used
    have absent : links.cache.get 0 (Links.key "alice" r.path) = (none, links.cache) := rfl
    simp only [Links.relatedFiles, absent, found, refused]
  have aside : a ≠ b := by
    rintro rfl
    exact absurd (pathA.symm.trans pathB) (by decide)
  have importing := unanswered b inB (by simp [importsB])
  have exporting := unanswered a inA (by simp [exportsA])
  exact ⟨linkable, Links.fresh_empty _ _ _ _, a, inA, b, inB, aside, by simp [importsB],
    by simp [exportsA], importing, exporting⟩

end Index

end CodeAtlas
