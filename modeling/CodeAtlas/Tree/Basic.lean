import CodeAtlas.FilePath
import CodeAtlas.Text.Quoted
import CodeAtlas.Value.Timestamp

/-!
File trees: directories, files and symbolic links, how a path is followed through them, and edits. A
path is followed component by component; a link is replaced by its target, which starts at the
link's directory unless it is absolute, and only so many links are followed on one path.
-/

namespace CodeAtlas

/-- What stands under a name. -/
inductive Node where
  | file (bytes : List UInt8) (modified : Timestamp)
  | link (target : String)
  | dir (entries : List (String × Node))
  deriving Inhabited

/-- Why a path cannot be used. -/
inductive PathFault where
  | missing
  | notADirectory
  | isADirectory
  | tooManyLinks
  deriving DecidableEq

namespace PathFault

/-- The fault in words. -/
def text : PathFault → String
  | missing => "No such file or directory"
  | notADirectory => "Not a directory"
  | isADirectory => "Is a directory"
  | tooManyLinks => "Too many levels of symbolic links"

/-- The number of the fault. -/
def code : PathFault → Nat
  | missing => 2
  | notADirectory => 20
  | isADirectory => 21
  | tooManyLinks => 40

/-- The fault of a path in one line. -/
def message (fault : PathFault) (path : FilePath) : String :=
  s!"[Errno {fault.code}] {fault.text}: " ++ Text.quoted path.text

end PathFault

namespace Node

/-- The entries of a directory; nothing else has any. -/
def entries : Node → List (String × Node)
  | dir entries => entries
  | _ => []

/-- What stands below a node, without following links. -/
def below? (n : Node) : List String → Option Node
  | [] => some n
  | name :: rest =>
    match n.entries.lookup name with
    | some child => child.below? rest
    | none => none

/-- Entries with `node` under `name`; a present name keeps its place. -/
def putEntry (entries : List (String × Node)) (name : String) (node : Node) :
    List (String × Node) :=
  match entries with
  | [] => [(name, node)]
  | (n, old) :: rest => if n == name then (n, node) :: rest else (n, old) :: putEntry rest name node

/-- The node with `new` at a place; directories are made on the way. -/
def put (n : Node) (place : List String) (new : Node) : Node :=
  match place with
  | [] => new
  | name :: rest =>
    dir (putEntry n.entries name (put ((n.entries.lookup name).getD (dir [])) rest new))

/-- The node without what stands at a place. -/
def erase (n : Node) : List String → Node
  | [] => n
  | [name] =>
    match n with
    | dir entries => dir (entries.filter fun e => e.1 != name)
    | other => other
  | name :: rest =>
    match n.entries.lookup name with
    | some child => dir (putEntry n.entries name (child.erase rest))
    | none => n

mutual

/-- The number of nodes. -/
def size : Node → Nat
  | dir entries => sizes entries + 1
  | _ => 1

/-- The number of nodes of entries. -/
def sizes : List (String × Node) → Nat
  | [] => 0
  | (_, n) :: rest => size n + sizes rest

end

/-- The bytes that a node takes up. -/
def byteCount : Node → Nat
  | file bytes _ => bytes.length
  | link target => target.utf8ByteSize
  | dir _ => 4096

end Node

/-- A tree of files. -/
structure Tree where
  top : Node

namespace Tree

/-- So many links are followed on one path. -/
def maxLinks : Nat := 40

/-- The place that `rest` leads to from the directory `here`, links resolved; a link at the end is
followed when `follow` says so. -/
def place (t : Tree) (follow : Bool) (links : Nat) (here rest : List String) :
    Except PathFault (List String) :=
  match rest with
  | [] => .ok here
  | name :: rest =>
    match t.top.below? here with
    | none => .error .missing
    | some (.dir entries) =>
      if name == ".." then t.place follow links here.dropLast rest
      else match entries.lookup name with
        | none => .error .missing
        | some (.link target) =>
          if rest.isEmpty && !follow then .ok (here ++ [name])
          else match links with
            | 0 => .error .tooManyLinks
            | links + 1 =>
              let aim := FilePath.parse target
              t.place follow links (if aim.root == "" then here else []) (aim.parts ++ rest)
        | some _ => t.place follow links (here ++ [name]) rest
    | some _ => .error .notADirectory
  termination_by (links, rest.length)

/-- The path without links and steps upwards. -/
def canonical (t : Tree) (p : FilePath) : Except PathFault FilePath :=
  (t.place true maxLinks [] p.parts).map fun parts => ⟨"/", parts⟩

/-- What stands at a path, links followed. -/
def find (t : Tree) (p : FilePath) : Except PathFault Node :=
  match t.place true maxLinks [] p.parts with
  | .error fault => .error fault
  | .ok parts =>
    match t.top.below? parts with
    | some n => .ok n
    | none => .error .missing

/-- What stands at a path; a link at its end is not followed. -/
def look (t : Tree) (p : FilePath) : Except PathFault Node :=
  match t.place false maxLinks [] p.parts with
  | .error fault => .error fault
  | .ok parts =>
    match t.top.below? parts with
    | some n => .ok n
    | none => .error .missing

/-- Something stands at a path. -/
def holds (t : Tree) (p : FilePath) : Bool :=
  (t.find p).toBool

/-- A directory stands at a path. -/
def isDir (t : Tree) (p : FilePath) : Bool :=
  match t.find p with
  | .ok (.dir _) => true
  | _ => false

/-- A file stands at a path. -/
def isFile (t : Tree) (p : FilePath) : Bool :=
  match t.find p with
  | .ok (.file _ _) => true
  | _ => false

/-- The entries of the directory at a path, in the order of their names. -/
def list (t : Tree) (p : FilePath) : Except PathFault (List (String × Node)) :=
  match t.find p with
  | .error fault => .error fault
  | .ok (.dir entries) => .ok (entries.mergeSort fun a b => decide (a.1 ≤ b.1))
  | .ok _ => .error .notADirectory

/-- The bytes of the file at a path and when it was modified. -/
def read (t : Tree) (p : FilePath) : Except PathFault (List UInt8 × Timestamp) :=
  match t.find p with
  | .error fault => .error fault
  | .ok (.file bytes modified) => .ok (bytes, modified)
  | .ok _ => .error .isADirectory

/-- A change of a tree at a path. -/
inductive Edit where
  | write (path : FilePath) (bytes : List UInt8)
  | makeDir (path : FilePath)
  | makeLink (path : FilePath) (target : String)
  | delete (path : FilePath)

/-- The place of an edit: links on the way are followed as far as they lead to directories. -/
def editPlace (t : Tree) (p : FilePath) : List String :=
  match t.place true maxLinks [] p.parts.dropLast with
  | .ok parent => parent ++ p.parts.getLast?.toList
  | .error _ => p.parts

/-- The tree after an edit; files get the time `now`. -/
def apply (now : Timestamp) (t : Tree) : Edit → Tree
  | .write p bytes =>
    let target := match t.place true maxLinks [] p.parts with
      | .ok place => place
      | .error _ => t.editPlace p
    ⟨t.top.put target (.file bytes now)⟩
  | .makeDir p => if t.isDir p then t else ⟨t.top.put (t.editPlace p) (.dir [])⟩
  | .makeLink p target => ⟨t.top.put (t.editPlace p) (.link target)⟩
  | .delete p => ⟨t.top.erase (t.editPlace p)⟩

/-- The tree after edits. -/
def applyAll (now : Timestamp) (t : Tree) (edits : List Edit) : Tree :=
  edits.foldl (apply now) t

end Tree

end CodeAtlas
