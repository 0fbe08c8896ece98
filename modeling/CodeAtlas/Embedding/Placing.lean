import CodeAtlas.Sorting
import CodeAtlas.Value.Parts

/-!
The order of the items of a reply. Places are numbers, texts or lists; places that cannot be
compared matter only where they meet.
-/

namespace CodeAtlas.Placing

open Number (Scalar)

/-- Two numbers are equal as parts of lists, where what is no number equals itself. -/
def sameNumber (a b : Scalar) : Bool :=
  a.same b || match a, b with
    | .real x, .real y => x.isNaN && y.isNaN
    | _, _ => false

mutual

/-- Two values are equal as parts of lists. -/
def same : Value → Value → Bool
  | .null, .null => true
  | .text a, .text b => a == b
  | .list a, .list b => sameItems a b
  | .object a, .object b => a.length == b.length && sameEntries a b
  | a, b =>
    match a.number?, b.number? with
    | some m, some n => sameNumber m n
    | _, _ => false

/-- Two lists are equal item by item. -/
def sameItems : List Value → List Value → Bool
  | [], [] => true
  | a :: as, b :: bs => same a b && sameItems as bs
  | _, _ => false

/-- Every entry of the first stands in the second. -/
def sameEntries : List (String × Value) → List (String × Value) → Bool
  | [], _ => true
  | (key, a) :: rest, others =>
    (match others.lookup key with
      | some b => same a b
      | none => false) && sameEntries rest others

end

mutual

/-- One place comes before another; `none` when they cannot be compared. -/
def before? : Value → Value → Option Bool
  | .text a, .text b => some (decide (a < b))
  | .list a, .list b => listBefore? a b
  | a, b =>
    match a.number?, b.number? with
    | some m, some n => some (decide (m < n))
    | _, _ => none

/-- The first difference of two lists decides, or their lengths. -/
def listBefore? : List Value → List Value → Option Bool
  | [], bs => some (!bs.isEmpty)
  | _ :: _, [] => some false
  | a :: as, b :: bs => if same a b then listBefore? as bs else before? a b

end

/-- The items in the order of their places. -/
def sort? {α : Type} (items : List (Value × α)) : Option (List (Value × α)) :=
  Sorting.byHalving? (fun a b => before? a.1 b.1) items

end CodeAtlas.Placing
