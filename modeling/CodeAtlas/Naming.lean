import CodeAtlas.Text.Basic
import CodeAtlas.Text.Casing

/-!
The two spellings of a field name: words joined by underscores, and words run together with a
capital at the start of each word but the first.
-/

namespace CodeAtlas.Naming

/-- Underscored to capitalised: the first piece stays, each later one takes title case. -/
def toCamelCase (name : String) : String :=
  match Text.splitOn '_' name.toList with
  | [] => ""
  | first :: rest => String.ofList (first ++ (rest.map Text.toTitle).flatten)

/-- Capitalised to underscored: the first character is lowered, and each later capital becomes an
underscore and its lower case. -/
def toSnakeCase (name : String) : String :=
  match name.toList with
  | [] => ""
  | first :: rest => String.ofList (Text.lowerBetween [] first [] ++ (rest.map later).flatten)
where
  /-- One character after the first. -/
  later (c : Char) : List Char :=
    if Text.isUpper c then '_' :: Text.lowerBetween [] c [] else [c]

end CodeAtlas.Naming
