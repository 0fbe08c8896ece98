import CodeAtlas.Failure
import CodeAtlas.Log.Redaction
import CodeAtlas.Text.Casing
import CodeAtlas.Value.Shown

/-!
Log lines: an event with its fields, its level and its logger, written when its level reaches the
threshold of the log. A call whose fields take the place of its own arguments is refused whether or
not its line would be written.
-/

namespace CodeAtlas

/-- The weight of a line. -/
inductive LogLevel where
  | debug
  | info
  | warning
  | error
  | critical
  deriving DecidableEq

namespace LogLevel

/-- The word for a level. -/
def word : LogLevel → String
  | debug => "debug"
  | info => "info"
  | warning => "warning"
  | error => "error"
  | critical => "critical"

/-- A heavier level has a larger weight. -/
def weight : LogLevel → Nat
  | debug => 10
  | info => 20
  | warning => 30
  | error => 40
  | critical => 50

/-- The level of a call, by its word. -/
def ofWord? (word : String) : Option LogLevel :=
  match word with
  | "warn" => some warning
  | "exception" => some error
  | "fatal" => some critical
  | _ => [debug, info, warning, error, critical].find? fun level => level.word == word

end LogLevel

namespace Log

/-- The text that a log keeps under `BASIC_FORMAT`. -/
def basicFormat : String :=
  "%(levelname)s:%(name)s:%(message)s"

/-- The table of styles that a log keeps under `_STYLES`, as it is shown. -/
def styleTable : String :=
  let entry (mark name text : String) := s!"'{mark}': (<class 'logging.{name}Style'>, '{text}')"
  "\x7b" ++ ", ".intercalate [entry "%" "Percent" basicFormat,
    entry "\x7b" "StrFormat" "\x7blevelname\x7d:\x7bname\x7d:\x7bmessage\x7d",
    entry "$" "StringTemplate" "$\x7blevelname\x7d:$\x7bname\x7d:$\x7bmessage\x7d"] ++ "\x7d"

/-- The weight from which lines are written, by the name of a level in any case. A name that is not
known stands for `INFO`; the names of the log's other two settings are refused. -/
def threshold (name : String) : Except Failure Nat :=
  match String.ofList ((name.toList.flatMap Text.titleChar).map Char.toUpper) with
  | "NOTSET" => .ok 0
  | "DEBUG" => .ok LogLevel.debug.weight
  | "WARN" | "WARNING" => .ok LogLevel.warning.weight
  | "ERROR" => .ok LogLevel.error.weight
  | "CRITICAL" | "FATAL" => .ok LogLevel.critical.weight
  | "BASIC_FORMAT" =>
    .error (.plain (.unforeseen "ValueError") s!"Unknown level: {Text.quoted basicFormat}")
  | "_STYLES" =>
    .error (.plain (.unforeseen "TypeError")
      ("Level not an integer or a valid string: " ++ styleTable))
  | _ => .ok LogLevel.info.weight

/-- A call: the word for its level, what happened, and its fields. -/
structure Call where
  level : String
  event : Value
  fields : List (String × Value)

/-- Fields that say how to render a line and are no part of it. -/
def renderingFields : List String :=
  ["timestamp", "exc_info", "stack_info"]

/-- The line of an event but for the time it is written, redacted; level and logger win over fields
of the same name, and so does an event that is not null. -/
def line (logger : String) (level : LogLevel) (event : Value) (fields : List (String × Value)) :
    List (String × Value) :=
  let given := fields.filter fun field => !renderingFields.contains field.1
  let happened := if event.isNull then [] else [("event", event)]
  let own := happened ++ [("level", .text level.word), ("logger", .text logger)]
  Redaction.entries (Value.ofEntries (given ++ own))

/-- A field that takes the place of an argument. -/
def clash (function argument : String) : Failure :=
  .plain (.unforeseen "TypeError")
    s!"BoundLogger.{function}() got multiple values for argument '{argument}'"

/-- Why a call with a known level is refused, if it is. -/
def Call.fault? (call : Call) : Option Failure :=
  let function := if call.level == "warn" then "warning" else call.level
  let names := call.fields.map (·.1)
  ((names.find? fun name => name == "self" || name == "event").map (clash function)).or <|
    (names.find? (· == "method_name")).map (clash "_proxy_to_logger") |>.or <|
    match call.fields.lookup "_record" with
    | none | some .null => none
    | some v => some (.plain (.unforeseen "AttributeError")
        s!"'{v.sortWord}' object has no attribute 'name'")

/-- The line of a call, when its level reaches the threshold. -/
def Call.line? (least : Nat) (logger : String) (call : Call) :
    Except Failure (Option (List (String × Value))) :=
  match LogLevel.ofWord? call.level with
  | none => .error (.plain (.unforeseen "AttributeError")
      s!"'BoundLogger' object has no attribute '{call.level}'")
  | some level =>
    match call.fault? with
    | some f => .error f
    | none =>
      .ok (if least ≤ level.weight then some (line logger level call.event call.fields) else none)

/-- The logger of a name; without a name it is the root of all. -/
def loggerOf (name : String) : String :=
  if name.isEmpty then "root" else name

/-- The lines that calls leave in a log with a threshold; the first refused call ends them all. -/
def lines (thresholdName logger : String) (calls : List Call) :
    Except Failure (List (List (String × Value))) := do
  let least ← threshold thresholdName
  return (← calls.mapM (Call.line? least (loggerOf logger))).filterMap id

end Log

end CodeAtlas
