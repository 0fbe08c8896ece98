import CodeAtlas.Number.Scalar
import CodeAtlas.Value.Basic

/-!
Parts of objects by their keys, each with what stands for it when it is not there or of another
sort.
-/

namespace CodeAtlas.Value

open Number (Scalar)

/-- The number a value is; a truth value counts one or zero. -/
def number? : Value → Option Scalar
  | bool b => some (.whole (if b then 1 else 0))
  | int n => some (.whole n)
  | real x => some (.real x)
  | _ => none

/-- The part under a key, null when absent. -/
def part (v : Value) (key : String) : Value :=
  (v.get? key).getD null

/-- The text under a key. -/
def text? (v : Value) (key : String) : Option String :=
  match v.get? key with
  | some (text s) => some s
  | _ => none

/-- The text under a key, empty without one. -/
def textAt (v : Value) (key : String) : String :=
  (v.text? key).getD ""

/-- The number under a key. -/
def numberAt? (v : Value) (key : String) : Option Scalar :=
  (v.get? key).bind number?

/-- The number under a key, or one that stands for it. -/
def numberAt (v : Value) (key : String) (default : Scalar) : Scalar :=
  (v.numberAt? key).getD default

/-- The number of times under a key, or one that stands for it; a part of a time is none. -/
def wholeAt (v : Value) (key : String) (default : Int) : Int :=
  (v.numberAt key (.whole default)).floor

/-- What is under a key says something; what is not there is `default`. -/
def flag (v : Value) (key : String) (default : Bool) : Bool :=
  ((v.get? key).map (!·.saysNothing)).getD default

/-- The items under a key. -/
def itemsAt (v : Value) (key : String) : List Value :=
  match v.get? key with
  | some (list items) => items
  | _ => []

/-- The texts among the items under a key. -/
def textsAt (v : Value) (key : String) : List String :=
  (v.itemsAt key).filterMap fun
    | text s => some s
    | _ => none

/-- The entries of an object. -/
def entries : Value → List (String × Value)
  | object entries => entries
  | _ => []

/-- The part under a key, an empty object when it is null or absent. -/
def objectAt (v : Value) (key : String) : Value :=
  match v.part key with
  | null => object []
  | found => found

end CodeAtlas.Value
