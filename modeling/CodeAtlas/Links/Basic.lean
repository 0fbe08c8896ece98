import CodeAtlas.Index.Record

/-!
Links between files that share a symbol: one file exports what the other imports.
-/

namespace CodeAtlas

open Decode

/-- The direction of a link, seen from the file in question. -/
inductive LinkDirection where
  /-- The other file exports what this one imports. -/
  | importsFrom
  /-- The other file imports what this one exports. -/
  | importsTo
  deriving DecidableEq

namespace LinkDirection

/-- The word for a direction. -/
def word : LinkDirection → String
  | importsFrom => "imports_from"
  | importsTo => "imports_to"

/-- Both directions. -/
def all : List LinkDirection :=
  [importsFrom, importsTo]

/-- A direction as a member. -/
def view (d : LinkDirection) : View :=
  .ofWord "Relationship" d.word

/-- Reads a direction by its word. -/
def decode : Value → Checked LinkDirection :=
  Decode.member all word

end LinkDirection

/-- A file linked to the one in question, and all the symbols that link them in one direction. -/
structure RelatedFile where
  path : String
  relativePath : String
  direction : LinkDirection
  symbols : List String := []
  language : Language := .text
  keyExports : List String := []

namespace RelatedFile

/-- So many exports of a related file are named. -/
def keyExportLimit : Nat := 5

/-- A related file before any symbol is known to link it. -/
def ofSummary (s : FileSummary) (direction : LinkDirection) : RelatedFile :=
  { path := s.path
    relativePath := s.relativePath
    direction
    language := s.language
    keyExports := s.exports.take keyExportLimit }

/-- Adds a symbol, once. -/
def addSymbol (r : RelatedFile) (symbol : String) : RelatedFile :=
  if r.symbols.contains symbol then r else { r with symbols := r.symbols ++ [symbol] }

/-- The entry of that file and direction. -/
def isFor (r : RelatedFile) (s : FileSummary) (direction : LinkDirection) : Bool :=
  r.path == s.path && r.direction == direction

/-- The fields of a related file. -/
def view (r : RelatedFile) : View :=
  .record "RelatedFile" [("file_path", .text r.path), ("relative_path", .text r.relativePath),
    ("relationship", r.direction.view), ("symbols", .texts r.symbols),
    ("language", r.language.view), ("key_exports", .texts r.keyExports)]

/-- Reads a related file. -/
def decode : Value → Checked RelatedFile :=
  record .exchanged fun f =>
    mk <$> f.required "file_path" Decode.text <*> f.required "relative_path" Decode.text <*>
      f.required "relationship" LinkDirection.decode <*>
      f.withDefault "symbols" [] (Decode.list Decode.text) <*>
      f.withDefault "language" .text Language.decode <*>
      f.withDefault "key_exports" [] (Decode.list Decode.text)

end RelatedFile

/-- One symbol that links two files. -/
structure LinkEdge where
  source : String
  target : String
  symbol : String
  direction : LinkDirection

namespace LinkEdge

/-- The fields of an edge. -/
def view (e : LinkEdge) : View :=
  .record "DependencyEdge" [("source_file", .text e.source), ("target_file", .text e.target),
    ("symbol", .text e.symbol), ("relationship", e.direction.view)]

/-- Reads an edge. -/
def decode : Value → Checked LinkEdge :=
  record .exchanged fun f =>
    mk <$> f.required "source_file" Decode.text <*> f.required "target_file" Decode.text <*>
      f.required "symbol" Decode.text <*> f.required "relationship" LinkDirection.decode

end LinkEdge

end CodeAtlas
