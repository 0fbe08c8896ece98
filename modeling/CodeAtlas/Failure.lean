import CodeAtlas.Number.Scalar
import CodeAtlas.Value.Shown

/-!
Failures as they are reported: a kind, a message and what the failure is about. Kinds form a tree
under `general`; kinds outside it are refusals and what the library does not foresee and only
passes on.
-/

namespace CodeAtlas

/-- The kind of a failure. -/
inductive FailureKind where
  | general
  /-- A path cannot be read. -/
  | scan
  /-- Content cannot be outlined. -/
  | analysis
  /-- The embedding provider failed. -/
  | provider
  /-- A write was not committed. -/
  | store
  /-- An operation took too long. -/
  | timeout
  /-- A retrieval step took too long. -/
  | retrievalTimeout
  /-- A configuration is invalid or unreadable. -/
  | configuration
  /-- The workspace root is missing or no directory. -/
  | workspaceRoot
  /-- A call was refused by an open circuit. -/
  | refused
  /-- An unforeseen failure, by its word. -/
  | unforeseen (word : String)
  deriving DecidableEq

namespace FailureKind

/-- The word for a kind. -/
def word : FailureKind → String
  | general => "CodectxError"
  | scan => "ScanError"
  | analysis => "AnalysisError"
  | provider => "EmbeddingProviderError"
  | store => "StoreTransactionError"
  | timeout => "OperationTimeoutError"
  | retrievalTimeout => "RetrievalTimeout"
  | configuration => "ConfigurationError"
  | workspaceRoot => "WorkspaceRootError"
  | refused => "CircuitBreakerOpen"
  | unforeseen word => word

/-- The foreseen kinds. -/
def foreseen : List FailureKind :=
  [general, scan, analysis, provider, store, timeout, retrievalTimeout, configuration,
    workspaceRoot]

/-- The foreseen kind with a word. -/
def ofWord? (word : String) : Option FailureKind :=
  foreseen.find? fun kind => kind.word == word

/-- The kind and the wider kinds it belongs to, the widest last. -/
def lineage : FailureKind → List FailureKind
  | general => [general]
  | retrievalTimeout => [retrievalTimeout, timeout, general]
  | workspaceRoot => [workspaceRoot, configuration, general]
  | refused => [refused]
  | unforeseen word => [unforeseen word]
  | kind => [kind, general]

end FailureKind

/-- A failure. -/
structure Failure where
  kind : FailureKind
  message : String
  /-- What it is about. -/
  context : List (String × Value)

namespace Failure

/-- A failure about nothing more than its message says. -/
def plain (kind : FailureKind) (message : String) : Failure :=
  ⟨kind, message, []⟩

/-- A number too large to go on with. -/
def overflow (cause : Number.Overflow) : Failure :=
  plain (.unforeseen "OverflowError") cause.message

/-- A path that cannot be read. -/
def scan (path reason : String) : Failure :=
  ⟨.scan, s!"Cannot scan {path}: {reason}", [("path", .text path)]⟩

/-- An operation that passed its deadline. -/
def overdue (kind : FailureKind) (operation : String) (seconds : Number.Scalar) : Failure :=
  let shown : Value := match seconds with
    | .whole n => .int n
    | .real x => .real x
  ⟨kind, s!"Operation '{operation}' timed out after {seconds.text}s",
    [("operation", .text operation), ("timeout_seconds", shown)]⟩

/-- The kind that says what a kind of failure is made of. -/
def maker : FailureKind → FailureKind
  | .scan => .scan
  | .timeout | .retrievalTimeout => .timeout
  | _ => .general

/-- The arguments a failure of a kind is made of, and how many of them are needed. -/
def parameters (kind : FailureKind) : List String × Nat :=
  match maker kind with
  | .scan => (["path", "reason"], 2)
  | .timeout => (["operation", "timeout_seconds"], 2)
  | _ => (["message", "context"], 1)

/-- A failure of a kind cannot be made of so many arguments. -/
def argumentFault? (kind : FailureKind) (count : Nat) : Option Failure :=
  let (names, needed) := parameters kind
  let fault (text : String) : Option Failure :=
    some (.plain (.unforeseen "TypeError") s!"{(maker kind).word}.__init__() {text}")
  let most := names.length + 1
  if count < needed then
    let missing := ((names.take needed).drop count).map Text.quoted
    let plural := if missing.length == 1 then "" else "s"
    fault (s!"missing {missing.length} required positional argument{plural}: " ++
      " and ".intercalate missing)
  else if names.length < count then
    let range := if needed == names.length then s!"{most}" else s!"from {needed + 1} to {most}"
    fault s!"takes {range} positional arguments but {count + 1} were given"
  else none

/-- A failure of a kind made of any arguments: what it says and what it is about. Arguments that
say nothing leave nothing to be about. -/
def made (kind : FailureKind) (arguments : List Value) : Except Failure (String × Value) :=
  match argumentFault? kind arguments.length with
  | some f => .error f
  | none =>
    let first := arguments.head?.getD .null
    let second := arguments[1]?.getD .null
    .ok <| match maker kind with
    | .scan =>
      (s!"Cannot scan {first.said}: {second.said}", .object [("path", first)])
    | .timeout =>
      (s!"Operation '{first.said}' timed out after {second.said}s",
        .object [("operation", first), ("timeout_seconds", second)])
    | _ => (first.said, if second.saysNothing then .object [] else second)

end Failure

end CodeAtlas
