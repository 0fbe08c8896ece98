import CodeAtlas.Index.Record
import CodeAtlas.Index.Transaction
import CodeAtlas.Tree.Basic

/-!
What an engine finds around it: the files, whether the run is called off, which operations are out
of order, and which statements of the storage fail. While an engine works the surroundings may
change; they are a machine that reacts to what the engine does.
-/

/-! ### Outages

Operations out of order. Such an operation fails, or it does nothing and gives an answer that was
fixed beforehand. A fixed answer is any value; who asked takes it for what was asked for, and fails
at the first thing that it lacks.
-/

namespace CodeAtlas

/-- How an operation is out of order. -/
inductive Outage where
  | fails (f : Failure)
  | answers (v : Value)

namespace Outage

variable {α : Type}

/-- What comes of an operation that is out of order; `read` takes a fixed answer. -/
def result (read : Value → Except Failure α) : Outage → Except Failure α
  | fails f => .error f
  | answers v => read v

/-- A fixed answer has no such part. -/
def lacks (part : String) (v : Value) : Failure :=
  .plain (.unforeseen "AttributeError") s!"'{v.sortWord}' object has no attribute '{part}'"

/-- A fixed answer that is of no use for its lack of a part. -/
def useless (part : String) (v : Value) : Except Failure α :=
  .error (lacks part v)

/-- A fixed answer cannot be gone through. -/
def notItems (v : Value) : Failure :=
  .plain (.unforeseen "TypeError") s!"'{v.sortWord}' object is not iterable"

/-- A fixed answer in place of a list. It is the empty list when nothing is in it; what is in it
lacks the part that is asked for first. -/
def items (part : String) : Value → Except Failure (List α)
  | .list [] => .ok []
  | .list (first :: _) => useless part first
  | .text s => if s.isEmpty then .ok [] else useless part (.text s)
  | .object entries => if entries.isEmpty then .ok [] else useless part (.text "")
  | v => .error (notItems v)

/-- A fixed answer in place of records; any that says nothing is taken for none. -/
def records (part : String) (v : Value) : Except Failure (List α) :=
  if v.saysNothing then .ok [] else items part v

/-- A fixed answer in place of a text that may be missing; nothing but a text equals one. -/
def text? : Value → Except Failure (Option String)
  | .text s => .ok (some s)
  | _ => .ok none

/-- A fixed answer in place of a count. -/
def count : Value → Except Failure Nat
  | .int n => .ok n.toNat
  | _ => .ok 0

/-- A fixed answer in place of what came of a write. -/
def outcome : Value → Except Failure WriteOutcome
  | .text s => .ok (if s == WriteOutcome.unchanged.word then .unchanged
      else if s == WriteOutcome.created.word then .created else .updated)
  | _ => .ok .updated

/-- A fixed answer in place of nothing. -/
def ignored (_ : Value) : Except Failure Unit :=
  .ok ()

/-- A fixed answer in place of embeddings. -/
def embeddings : Value → Except Failure (List Embedding)
  | .list vs => vs.mapM fun v =>
    match Embedding.decode v with
    | .ok e => .ok e
    | .bad _ => .error (.plain (.unforeseen "ValidationError") "")
  | v => items "vector" v

end Outage

end CodeAtlas

namespace CodeAtlas

/-- An operation that can be out of order. -/
inductive EnginePart where
  | outline
  /-- The part of outlining after which only the size of a file is told. -/
  | grammar
  | chunk
  | embed
  | embedAll
  | upsert
  | sweep
  | saveStructure
  | fileHash
  | recordsAt
  | similar
  | exporters
  | importers
  | list
  | statistics
  | chunkCount
  | relatedFiles
  | edges
  | forgetLinks
  | retrieve
  deriving DecidableEq

/-- What an engine finds around it at one moment. -/
structure Conditions where
  tree : Tree
  /-- The run is called off. -/
  cancelled : Bool := false
  /-- How an operation is out of order, if it is. -/
  outage : EnginePart → Option Outage := fun _ => none
  /-- Which statements of the storage fail. -/
  faults : Faults := Faults.none

namespace Conditions

variable {α : Type}

/-- The answer of an operation, unless it is out of order. -/
def guard (c : Conditions) (part : EnginePart) (read : Value → Except Failure α)
    (answer : Except Failure α) : Except Failure α :=
  match c.outage part with
  | some outage => outage.result read
  | none => answer

/-- An operation on a state, which stays as it is when the operation is out of order. -/
def guardOn (c : Conditions) (part : EnginePart) (read : Value → Except Failure α)
    (operation : σ → Except Failure α × σ) (s : σ) : Except Failure α × σ :=
  match c.outage part with
  | some outage => (outage.result read, s)
  | none => operation s

end Conditions

/-- What an indexing run lets others know. -/
inductive RunEvent where
  /-- A file was written or removed. -/
  | changed (path : String)
  /-- A file has been dealt with, one way or another. -/
  | finished (path : FilePath)

/-- What surrounds an engine, as a machine with states `ω`. -/
structure Surroundings (ω : Type) where
  conditions : ω → Conditions
  /-- The state after the engine has let something be known. -/
  react : ω → RunEvent → ω

/-- Surroundings that never change. -/
def Surroundings.still : Surroundings Conditions :=
  ⟨id, fun c _ => c⟩

end CodeAtlas

/-! ### Callbacks

Callbacks. Whoever wants to know which files change is called for each of them. A call that fails
ends neither the run nor the calls that follow.
-/

namespace CodeAtlas

/-- What is called with an owner and the path of a file that changed. It can change the
surroundings, also when it fails. -/
structure Callback (ω : Type) where
  call : (owner path : String) → ω → Except Failure Unit × ω

/-- One call of the callback with that number. -/
structure Callback.Call where
  callback : Nat
  owner : String
  path : String

/-- Surroundings in which callbacks are called for the files of an owner, one after another. All
calls are recorded. -/
def Surroundings.calling {ω : Type} (s : Surroundings ω) (owner : String)
    (callbacks : List (Callback ω)) : Surroundings (ω × List Callback.Call) where
  conditions w := s.conditions w.1
  react w event :=
    match event with
    | .finished _ => (s.react w.1 event, w.2)
    | .changed path =>
      callbacks.zipIdx.foldl (fun (w, calls) (callback, number) =>
        ((callback.call owner path w).2, calls ++ [⟨number, owner, path⟩]))
        (s.react w.1 event, w.2)

end CodeAtlas
