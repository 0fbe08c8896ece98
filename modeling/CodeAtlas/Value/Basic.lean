/-!
Values as they are exchanged with editors, providers and configuration files: null, truth values,
whole and real numbers, texts, points in time, bytes, lists and objects. A whole number and a real
number with the same value are different values. Objects keep the order in which their keys were
first written.
-/

namespace CodeAtlas

/-- A structured value. -/
inductive Value where
  | null
  | bool (b : Bool)
  | int (n : Int)
  | real (x : Float)
  | text (s : String)
  /-- A point in time, as it is written. -/
  | time (written : String)
  /-- Bytes that are no text. -/
  | bytes (data : List UInt8)
  | list (items : List Value)
  | object (entries : List (String × Value))
  deriving Inhabited

namespace Value

/-- Puts a key into an object; a present key keeps its place. -/
def put (entries : List (String × Value)) (key : String) (value : Value) : List (String × Value) :=
  match entries with
  | [] => [(key, value)]
  | (k, v) :: rest => if k == key then (k, value) :: rest else (k, v) :: put rest key value

/-- An object from entries, the last of equal keys winning. -/
def ofEntries (entries : List (String × Value)) : List (String × Value) :=
  entries.foldl (fun done (key, value) => put done key value) []

/-- The value under a key, when there is one. -/
def get? (v : Value) (key : String) : Option Value :=
  match v with
  | object entries => entries.lookup key
  | _ => none

mutual

/-- Equal as values; a number that is no number equals none. -/
def same : Value → Value → Bool
  | null, null => true
  | bool a, bool b => a == b
  | int a, int b => a == b
  | real a, real b => a == b
  | text a, text b => a == b
  | time a, time b => a == b
  | bytes a, bytes b => a == b
  | list as, list bs => sameItems as bs
  | object as, object bs => sameEntries as bs
  | _, _ => false

/-- Equal item by item. -/
def sameItems : List Value → List Value → Bool
  | [], [] => true
  | a :: as, b :: bs => same a b && sameItems as bs
  | _, _ => false

/-- Equal entry by entry, in the same order. -/
def sameEntries : List (String × Value) → List (String × Value) → Bool
  | [], [] => true
  | (k, a) :: as, (l, b) :: bs => k == l && same a b && sameEntries as bs
  | _, _ => false

end

/-- Null or absent. -/
def isNull : Value → Bool
  | null => true
  | _ => false

/-- Null, false, zero and what is empty say nothing. -/
def saysNothing : Value → Bool
  | null => true
  | bool b => !b
  | int n => n == 0
  | real x => x == 0
  | text s => s.isEmpty
  | time _ => false
  | bytes data => data.isEmpty
  | list items => items.isEmpty
  | object entries => entries.isEmpty

/-- An optional value, null when absent. -/
def ofOption (f : α → Value) : Option α → Value
  | none => null
  | some a => f a

/-- A list of texts. -/
def texts (items : List String) : Value :=
  list (items.map text)

/-- A natural number. -/
def nat (n : Nat) : Value :=
  int n

end Value

end CodeAtlas
