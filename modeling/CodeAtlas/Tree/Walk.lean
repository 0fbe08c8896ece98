import CodeAtlas.Failure
import CodeAtlas.Text.Casing
import CodeAtlas.Tree.Ignore
import CodeAtlas.Value.Checked
import CodeAtlas.Value.View

/-!
Walks through a workspace. A walk gives one file at a time: those of a directory in the order of
their names, then those of its subdirectories in the order of theirs. Left-out directories are not
entered, links to directories are not followed, and what cannot be inspected is recorded and passed
by. The tree may change between two files, so every step looks at the tree as it is then.
-/

namespace CodeAtlas

open Decode

/-- Which files a walk gives. -/
structure ScanConfig where
  /-- Names of directories that are not entered. -/
  excludeDirs : List String
  /-- Extensions, without their dots and in lower case. -/
  includeExtensions : List String
  /-- Ignore rules beside those of the ignore file. -/
  excludeGlobs : List String
  /-- The ignore file under the root; empty for none. -/
  ignoreFile : String
  maxFileSize : Nat

namespace ScanConfig

/-- An extension in lower case, without dots at its start. -/
def normalExtension (extension : String) : String :=
  String.ofList (Text.dropLeading '.' (Text.toLower extension.toList))

/-- Directories that are not entered when nothing is said. -/
def defaultExcludeDirs : List String := [
  "node_modules", "vendor", ".git", "dist", "build", "coverage", ".next", ".nuxt", "__pycache__",
  ".pytest_cache", "target", "bin", "obj", ".vs", ".vscode", ".idea", "tmp", "temp", ".codectx"]

/-- Extensions that count when nothing is said. -/
def defaultIncludeExtensions : List String := [
  "js", "jsx", "ts", "tsx", "py", "php", "java", "cs", "cpp", "c", "h", "hpp", "go", "rs", "rb",
  "swift", "kt", "scala", "clj", "hs", "ml", "fs", "vb", "vue", "sql", "html", "css", "scss",
  "sass",
  "less", "xml", "json", "yaml", "yml", "md"]

/-- The fields of the configuration. -/
def view (c : ScanConfig) : View :=
  .record "ScannerConfig" [("exclude_dirs", .texts c.excludeDirs),
    ("include_extensions", .texts c.includeExtensions), ("exclude_globs", .texts c.excludeGlobs),
    ("ignore_file", .text c.ignoreFile), ("max_file_size_bytes", .int c.maxFileSize)]

/-- Reads the configuration. -/
def decode : Value → Checked ScanConfig :=
  record .plain fun f =>
    mk <$> f.withDefault "exclude_dirs" defaultExcludeDirs (Decode.list Decode.text) <*>
      f.withDefault "include_extensions" defaultIncludeExtensions (fun v =>
        (Decode.list Decode.text v).map fun extensions => extensions.map normalExtension) <*>
      f.withDefault "exclude_globs" [] (Decode.list Decode.text) <*>
      f.withDefault "ignore_file" ".codectxignore" Decode.text <*>
      f.withDefault "max_file_size_bytes" 2000000 (natFrom 1)

end ScanConfig

/-- A path that could not be inspected. -/
structure ScanFault where
  path : String
  error : String

namespace ScanFault

/-- The fields of the fault. -/
def view (f : ScanFault) : View :=
  .record "ScanErrorEntry" [("path", .text f.path), ("error", .text f.error)]

/-- Reads a fault. -/
def decode : Value → Checked ScanFault :=
  record .exchanged fun f =>
    mk <$> f.required "path" Decode.text <*> f.required "error" Decode.text

end ScanFault

/-- Why a workspace root is refused. -/
inductive RootFault where
  | missing (root : FilePath)
  | notADirectory (root : FilePath)

/-- The fault in words. -/
def RootFault.message : RootFault → String
  | .missing root => s!"Workspace root does not exist: {root.text}"
  | .notADirectory root => s!"Workspace root is not a directory: {root.text}"

/-- The refused root. -/
def RootFault.root : RootFault → FilePath
  | .missing root | .notADirectory root => root

/-- The fault as a failure. -/
def RootFault.failure (fault : RootFault) : Failure :=
  ⟨.workspaceRoot, fault.message, [("root", .text fault.root.text)]⟩

/-- A directory that is being gone through. -/
structure Listing where
  directory : FilePath
  /-- Entries not yet inspected, as they were when the directory was opened. -/
  entries : List (String × Node)
  /-- Subdirectories to enter, first one first. -/
  subdirectories : List FilePath

/-- A walk under way. -/
structure Walk where
  config : ScanConfig
  root : FilePath
  rules : IgnoreRules
  /-- The directory that is being gone through. -/
  current : Option Listing
  /-- Directories to enter, first one first. -/
  pending : List FilePath
  /-- What could not be inspected, first one first. -/
  faults : List ScanFault

namespace Walk

/-- Starts a walk. A root that is no directory is refused at once. -/
def start (config : ScanConfig) (t : Tree) (root : FilePath) : Except RootFault Walk :=
  if !t.holds root then .error (.missing root)
  else if !t.isDir root then .error (.notADirectory root)
  else
    let root := ((t.canonical root).toOption).getD root
    let rules := IgnoreRules.load t root config.ignoreFile config.excludeGlobs
    .ok ⟨config, root, rules, none, [root], []⟩

/-- The components below the root, with slashes between. -/
def relative (w : Walk) (p : FilePath) : List Char :=
  ("/".intercalate (p.parts.drop w.root.parts.length)).toList

/-- The extension of a file name: from the last dot on, unless there are only dots before it. -/
def extensionOf (name : List Char) : List Char :=
  let tail := Text.afterLast '.' name
  let lead := name.take (name.length - tail.length - 1)
  if tail.length < name.length && lead.any (· != '.') then tail else []

/-- A file with this name and path may be given. -/
def admits (w : Walk) (name : String) (p : FilePath) : Bool :=
  let extension := Text.dropLeading '.' (Text.toLower (extensionOf name.toList))
  !extension.isEmpty && w.config.includeExtensions.contains (String.ofList extension) &&
    !w.rules.ignoresFile (w.relative p)

/-- A directory with this name and path is entered. -/
def enters (w : Walk) (name : String) (p : FilePath) : Bool :=
  !w.config.excludeDirs.contains name && !w.rules.ignoresDirectory (w.relative p)

/-- What inspecting an entry says. -/
inductive Verdict where
  | enter
  | give
  | skip
  | fault (fault : PathFault)

/-- Inspects an entry that was `node` when its directory was opened. The size of a file is the one
it has now; a link is followed now. -/
def inspect (w : Walk) (t : Tree) (name : String) (node : Node) (p : FilePath) : Verdict :=
  let sized (found : Except PathFault Node) : Verdict :=
    match found with
    | .ok n => if n.byteCount ≤ w.config.maxFileSize then .give else .skip
    | .error fault => .fault fault
  match node with
  | .dir _ => if w.enters name p then .enter else .skip
  | .file _ _ => if w.admits name p then sized (t.look p) else .skip
  | .link _ =>
    match t.find p with
    | .ok (.file bytes modified) =>
      if w.admits name p then sized (.ok (.file bytes modified)) else .skip
    | .ok _ | .error .missing => .skip
    | .error fault => .fault fault

/-- The walk with one more fault. -/
def record (w : Walk) (p : FilePath) (fault : PathFault) : Walk :=
  { w with faults := w.faults ++ [⟨p.text, fault.text⟩] }

/-- Opens the next directory. -/
def openNext (w : Walk) (t : Tree) : Walk :=
  match w.pending with
  | [] => w
  | directory :: pending =>
    let w := { w with pending }
    match t.list directory with
    | .error fault => w.record directory fault
    | .ok entries => { w with current := some ⟨directory, entries, []⟩ }

/-- Inspects the next entry of a listing; gives its path when it is a file that counts. -/
def inspectNext (w : Walk) (t : Tree) (l : Listing) : Option FilePath × Walk :=
  match l.entries with
  | [] => (none, { w with current := none, pending := l.subdirectories ++ w.pending })
  | (name, node) :: entries =>
    let p : FilePath := ⟨l.directory.root, l.directory.parts ++ [name]⟩
    let l := { l with entries }
    let w := { w with current := some l }
    match w.inspect t name node p with
    | .enter =>
      (none, { w with current := some { l with subdirectories := l.subdirectories ++ [p] } })
    | .give => (some p, w)
    | .skip => (none, w)
    | .fault fault => (none, w.record p fault)

/-- Goes on for at most `fuel` steps, until a file is given. -/
def nextWithin (t : Tree) : Nat → Walk → Option FilePath × Walk
  | 0, w => (none, w)
  | fuel + 1, w =>
    match w.current with
    | none => if w.pending.isEmpty then (none, w) else nextWithin t fuel (w.openNext t)
    | some l =>
      match w.inspectNext t l with
      | (some p, w) => (some p, w)
      | (none, w) => nextWithin t fuel w

/-- Steps that no walk through the tree exceeds: every directory that is known of is opened and
closed, and every node below it is inspected. -/
def bound (w : Walk) (t : Tree) : Nat :=
  let listed := match w.current with
    | some l => l.entries.length + l.subdirectories.length + 1
    | none => 0
  (w.pending.length + listed) * (3 * t.top.size + 3) + 1

/-- Goes on to the next file. -/
def next (w : Walk) (t : Tree) : Option FilePath × Walk :=
  nextWithin t (w.bound t) w

/-- The files that are left, at most `count` of them. -/
def takeWithin (t : Tree) : Nat → Walk → List FilePath × Walk
  | 0, w => ([], w)
  | count + 1, w =>
    match w.next t with
    | (none, w) => ([], w)
    | (some p, w) =>
      let (files, w) := takeWithin t count w
      (p :: files, w)

/-- All files that are left, in a tree that does not change any more. -/
def drain (w : Walk) (t : Tree) : List FilePath × Walk :=
  takeWithin t (w.bound t) w

end Walk

end CodeAtlas
