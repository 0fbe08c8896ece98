import CodeAtlas.Naming
import CodeAtlas.Number.Shortest
import CodeAtlas.Text.Quoted
import CodeAtlas.Value.Basic
import CodeAtlas.Value.Timestamp

/-!
Views: what a record holds, field by field, before it is decided how to write it. A view is written
as a value with capitalised or with underscored field names, or as the text that shows the record
with its type and field names.
-/

namespace CodeAtlas

/-- What a record, a field or an item holds. -/
inductive View where
  | null
  | bool (b : Bool)
  | int (n : Int)
  | real (x : Float)
  | text (s : String)
  /-- A member of an enumeration, with its type, its name and its word. -/
  | member (type name word : String)
  | time (t : Timestamp)
  | list (items : List View)
  | mapping (entries : List (String × View))
  /-- A record with its type and its fields in order. -/
  | record (type : String) (fields : List (String × View))
  deriving Inhabited

namespace View

/-- An optional part, null when absent. -/
def ofOption (f : α → View) : Option α → View
  | none => null
  | some a => f a

/-- A list of parts. -/
def ofList (f : α → View) (items : List α) : View :=
  list (items.map f)

/-- A list of texts. -/
def texts (items : List String) : View :=
  ofList text items

mutual

/-- The value of a view; `rename` gives the keys of record fields. -/
def toValue (rename : String → String) : View → Value
  | null => .null
  | bool b => .bool b
  | int n => .int n
  | real x => .real x
  | text s => .text s
  | member _ _ word => .text word
  | time t => .text t.text
  | list items => .list (itemValues rename items)
  | mapping entries => .object (entryValues rename id entries)
  | record _ fields => .object (entryValues rename rename fields)

/-- The values of items. -/
def itemValues (rename : String → String) : List View → List Value
  | [] => []
  | v :: rest => toValue rename v :: itemValues rename rest

/-- The entries under renamed keys. -/
def entryValues (rename key : String → String) : List (String × View) → List (String × Value)
  | [] => []
  | (name, v) :: rest => (key name, toValue rename v) :: entryValues rename key rest

end

/-- The value exchanged with editors and kept in the index: capitalised field names. -/
def exchanged (v : View) : Value :=
  v.toValue Naming.toCamelCase

/-- The value with underscored field names. -/
def plain (v : View) : Value :=
  v.toValue id

/-- A time as the call that makes it. -/
def shownTime (t : Timestamp) : String :=
  let tail :=
    if t.micro != 0 then s!", {t.second}, {t.micro}"
    else if t.second != 0 then s!", {t.second}"
    else ""
  let zone := match t.offset with
    | none => ""
    | some offset => s!", tzinfo=TzInfo({offset})"
  s!"datetime.datetime({t.year}, {t.month}, {t.day}, {t.hour}, {t.minute}{tail}{zone})"

mutual

/-- The text that shows a view. -/
def shown : View → String
  | null => "None"
  | bool b => if b then "True" else "False"
  | int n => toString n
  | real x => Number.plain.shortest x
  | text s => Text.quoted s
  | member type name word => "<" ++ type ++ "." ++ name ++ ": " ++ Text.quoted word ++ ">"
  | time t => shownTime t
  | list items => "[" ++ ", ".intercalate (shownItems items) ++ "]"
  | mapping entries => "\x7b" ++ ", ".intercalate (shownEntries entries) ++ "\x7d"
  | record type fields => type ++ "(" ++ ", ".intercalate (shownFields fields) ++ ")"

/-- The texts that show items. -/
def shownItems : List View → List String
  | [] => []
  | v :: rest => shown v :: shownItems rest

/-- Keys and what they stand for. -/
def shownEntries : List (String × View) → List String
  | [] => []
  | (key, v) :: rest => (Text.quoted key ++ ": " ++ shown v) :: shownEntries rest

/-- Field names and what they hold. -/
def shownFields : List (String × View) → List String
  | [] => []
  | (name, v) :: rest => (name ++ "=" ++ shown v) :: shownFields rest

end

end View

end CodeAtlas
