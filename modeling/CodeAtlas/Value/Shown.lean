import CodeAtlas.Number.Shortest
import CodeAtlas.Text.Quoted
import CodeAtlas.Value.Basic

/-!
Values as messages show them: texts in quotes, lists in brackets, objects in braces with their keys
in quotes. A text that is the whole of what is shown stands without quotes.
-/

namespace CodeAtlas

namespace Value

/-- The word for the sort of a value. -/
def sortWord : Value → String
  | null => "NoneType"
  | bool _ => "bool"
  | int _ => "int"
  | real _ => "float"
  | text _ | time _ => "str"
  | bytes _ => "bytes"
  | list _ => "list"
  | object _ => "dict"

mutual

/-- The text that shows a value. -/
def shown : Value → String
  | null => "None"
  | bool b => if b then "True" else "False"
  | int n => toString n
  | real x => Number.plain.shortest x
  | text s => Text.quoted s
  | time s => Text.quoted s
  | bytes data => "b" ++ Text.quoted (String.ofList (data.map fun b => Char.ofNat b.toNat))
  | list items => "[" ++ ", ".intercalate (shownItems items) ++ "]"
  | object entries => "\x7b" ++ ", ".intercalate (shownEntries entries) ++ "\x7d"

/-- The texts that show items. -/
def shownItems : List Value → List String
  | [] => []
  | v :: rest => shown v :: shownItems rest

/-- Keys and what they stand for. -/
def shownEntries : List (String × Value) → List String
  | [] => []
  | (key, v) :: rest => (Text.quoted key ++ ": " ++ shown v) :: shownEntries rest

end

/-- A value inside a message: a text as it is, any other value as it is shown. -/
def said : Value → String
  | text s => s
  | v => v.shown

end Value

end CodeAtlas
