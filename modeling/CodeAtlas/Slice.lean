import CodeAtlas.Failure

/-!
Cutting a list at a signed count: the first `n` items, or, for a negative `n`, all but the last
`-n`. A number that is not whole cuts nothing.
-/

namespace CodeAtlas.Slice

/-- The items up to the signed count `n`. -/
def upTo (n : Int) (items : List α) : List α :=
  if 0 ≤ n then items.take n.toNat else items.take (items.length - n.natAbs)

/-- A list is not cut at such a number. -/
def notWhole : Failure :=
  .plain (.unforeseen "TypeError")
    "slice indices must be integers or None or have an __index__ method"

/-- The signed count that a number is, if it is whole. -/
def count? : Number.Scalar → Except Failure Int
  | .whole n => .ok n
  | .real _ => .error notWhole

/-- The signed count that a limit sets on `size` items; one that leaves them all need not be
whole. -/
def limit? (limit : Number.Scalar) (size : Nat) : Except Failure Int :=
  if limit < .whole size then count? limit else .ok size

/-- Groups of `size` items, the last one perhaps smaller. -/
def groups (size : Nat) (items : List α) : List (List α) :=
  go items.length items
where
  /-- At most `fuel` groups. -/
  go : Nat → List α → List (List α)
    | 0, _ => []
    | fuel + 1, items =>
      if items.isEmpty then [] else items.take size :: go fuel (items.drop size)

end CodeAtlas.Slice
