import CodeAtlas.Cache
import CodeAtlas.Index.Query
import CodeAtlas.Links.Basic

/-!
Finding the files linked to a file. Links go by symbol name alone, whether or not an import points
to the file in question, and each symbol links to a bounded number of files. What was found is kept
for some time.
-/

namespace CodeAtlas

/-- What links ask of an index. -/
structure LinkSource where
  /-- The records of an owner with that absolute or relative path. -/
  recordsAt : (owner path : String) → Except Failure (List IndexedFile)
  /-- The files of an owner that use a symbol in a way, at most so many. -/
  symbolFiles : (owner symbol : String) → SymbolUse → (limit : Int) →
    Except Failure (List FileSummary)

/-- An index answers. -/
def Index.linkSource (faults : Faults) (ix : Index) : LinkSource where
  recordsAt owner path := ix.recordsAt faults owner path
  symbolFiles owner symbol use limit := ix.symbolFiles faults owner symbol use limit

/-- The links found so far. -/
structure Links (τ : Type) where
  /-- A symbol links to at most so many files. -/
  candidateLimit : Nat
  cache : Cache τ (List RelatedFile)

namespace Links

variable {τ : Type}

/-- So many files are kept. -/
def capacity : Nat := 5000

/-- Nothing found yet. -/
def empty (candidateLimit : Nat) (lifetime : τ) : Links τ :=
  ⟨candidateLimit, Cache.empty capacity lifetime⟩

/-- The start of the keys of an owner. -/
def ownerKey (owner : String) : String :=
  "deps\x00" ++ owner ++ "\x00"

/-- The key of a file. -/
def key (owner path : String) : String :=
  ownerKey owner ++ path

/-- Adds a link to the entry of a file and direction, or a new entry at the end. -/
def link (direction : LinkDirection) (symbol : String) (entries : List RelatedFile)
    (s : FileSummary) : List RelatedFile :=
  if entries.any (·.isFor s direction) then
    entries.map fun r => if r.isFor s direction then r.addSymbol symbol else r
  else entries ++ [(RelatedFile.ofSummary s direction).addSymbol symbol]

/-- Adds the links of each symbol: to the files that use it, but never the file itself. -/
def linkAll (source : LinkSource) (limit : Nat) (owner ownPath : String) (use : SymbolUse)
    (direction : LinkDirection) : List String → List RelatedFile →
    Except Failure (List RelatedFile)
  | [], entries => .ok entries
  | symbol :: rest, entries => do
    let found ← source.symbolFiles owner symbol use ((limit : Int) + 1)
    let others := (found.filter (·.path != ownPath)).take limit
    linkAll source limit owner ownPath use direction rest
      (others.foldl (link direction symbol) entries)

/-- The files linked to a record: those it imports from, then those that import from it. -/
def resolve (source : LinkSource) (limit : Nat) (owner : String) (f : IndexedFile) :
    Except Failure (List RelatedFile) := do
  let entries ← linkAll source limit owner f.path .exported .importsFrom f.importedNames []
  linkAll source limit owner f.path .imported .importsTo (distinct f.exports) entries

variable [Add τ] [LE τ] [DecidableLE τ]

/-- The files linked to a file; none when it is not indexed. -/
def relatedFiles (source : LinkSource) (now : τ) (owner path : String) (links : Links τ) :
    Except Failure (List RelatedFile) × Links τ :=
  let (kept, cache) := links.cache.get now (key owner path)
  let links := { links with cache }
  match kept with
  | some related => (.ok related, links)
  | none =>
    match source.recordsAt owner path with
    | .error f => (.error f, links)
    | .ok [] => (.ok [], links)
    | .ok (f :: _) =>
      match resolve source links.candidateLimit owner f with
      | .error f => (.error f, links)
      | .ok related =>
        (.ok related, { links with cache := links.cache.set now (key owner path) related })

/-- One edge per related file and symbol. -/
def edges (source : LinkSource) (now : τ) (owner path : String) (links : Links τ) :
    Except Failure (List LinkEdge) × Links τ :=
  match source.recordsAt owner path with
  | .error f => (.error f, links)
  | .ok records =>
    let from_ := (records.head?.map (·.path)).getD path
    let (related, links) := links.relatedFiles source now owner path
    (related.map fun entries => entries.flatMap fun r =>
      r.symbols.map fun symbol => ⟨from_, r.path, symbol, r.direction⟩, links)

/-- Forgets what was found for an owner; says how many entries there were. A changed file can change
the links of any other. -/
def invalidate (owner : String) (links : Links τ) : Nat × Links τ :=
  let (dropped, cache) := links.cache.invalidateUnder (ownerKey owner)
  (dropped, { links with cache })

end Links

end CodeAtlas
