import CodeAtlas.Embedding.Placing
import CodeAtlas.Failure
import CodeAtlas.Number.Reading
import CodeAtlas.Text.Digits
import CodeAtlas.Text.Utf8
import CodeAtlas.Value.Json

/-!
The reply of an embedding service: an object with a list under `data`, one item per text, each with
its place among the texts and its vector. Components are numbers or texts of numbers. Whatever else
comes back is a failure of the provider.
-/

namespace CodeAtlas.Reply

open Number

/-- A whole number with more digits is not read. -/
def maxDigits : Nat := 4300

mutual

/-- Every whole number is short enough to be read. -/
def isReadable : Value → Bool
  | .int n => n.natAbs < tenPow maxDigits
  | .list items => areReadable items
  | .object entries => haveReadable entries
  | _ => true

/-- Every item is readable. -/
def areReadable : List Value → Bool
  | [] => true
  | v :: rest => isReadable v && areReadable rest

/-- Every entry is readable. -/
def haveReadable : List (String × Value) → Bool
  | [] => true
  | (_, v) :: rest => isReadable v && haveReadable rest

end

/-- The value that the bytes of a body write, in whatever encoding of Unicode. -/
def valueOf? (body : List UInt8) : Option Value :=
  match (Text.ofBytes? body).bind fun text => Json.parse? (String.ofList text) with
  | some v => if isReadable v then some v else none
  | none => none

/-- There is no list of the right length. -/
def wrongShape (expected : Nat) (received : Option Nat) : Failure :=
  ⟨.provider, "Invalid embedding response format",
    [("expected", .nat expected), ("received", .ofOption .nat received)]⟩

/-- An item of the list cannot be read. -/
def wrongItem : Failure :=
  .plain .provider "Invalid embedding response format"

/-- The usage of a reply is neither empty nor an object. -/
def wrongUsage (usage : Value) : Failure :=
  .plain (.unforeseen "AttributeError") s!"'{usage.sortWord}' object has no attribute 'get'"

/-- An item with its place; one without a place stands at 0. -/
def placed? (item : Value) : Option (Value × Value) :=
  match item with
  | .object entries => some ((entries.lookup "index").getD (.int 0), item)
  | _ => none

/-- The items in the order of their places. -/
def ordered? (items : List Value) : Option (List Value) := do
  let sorted ← Placing.sort? (← items.mapM placed?)
  return sorted.map (·.2)

/-- A real number written as a text: blanks around it, digits of any script, grouped or not. -/
def realOfText? (s : List Char) : Option Float :=
  (ungrouped? (withoutMargins (Text.inAsciiDigits s))).bind real?

/-- A component of a vector. -/
def component : Value → Except Failure Float
  | .real x => .ok x
  | .bool b => .ok (if b then 1 else 0)
  | .int n => (Scalar.toFloat? (.whole n)).mapError .overflow
  | .text s =>
    match realOfText? s.toList with
    | some x => .ok x
    | none => .error wrongItem
  | _ => .error wrongItem

/-- The vector of an item. What is gone through is a list, the characters of a text, or the keys of
an object. -/
def vector (item : Value) : Except Failure (List Float) :=
  match item.get? "embedding" with
  | some (.list components) => components.mapM component
  | some (.text s) => s.toList.mapM fun c => component (.text c.toString)
  | some (.object entries) => entries.mapM fun (key, _) => component (.text key)
  | _ => .error wrongItem

/-- What a reply says about usage is an object, or nothing. -/
def checkUsage (reply : Value) : Except Failure Unit :=
  match reply.get? "usage" with
  | none | some (.object _) => .ok ()
  | some usage => if usage.saysNothing then .ok () else .error (wrongUsage usage)

/-- The vectors of a reply for `expected` texts, in the order of the texts. -/
def vectors (expected : Nat) (reply : Value) : Except Failure (List (List Float)) :=
  match reply.get? "data" with
  | some (.list items) =>
    if items.length != expected then .error (wrongShape expected (some items.length))
    else match ordered? items with
      | none => .error wrongItem
      | some items =>
        match items.mapM vector with
        | .error failure => .error failure
        | .ok vectors =>
          if vectors.any (·.isEmpty) then
            .error (.plain .provider "Embedding response contained an empty vector")
          else (checkUsage reply).map fun _ => vectors
  | _ => .error (wrongShape expected none)

end CodeAtlas.Reply
