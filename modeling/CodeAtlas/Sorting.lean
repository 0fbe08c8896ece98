/-!
Sorting by as few comparisons as it can be done with. The run that is in order at the start, or
strictly against it, is kept or turned round; every later item is put in by halving. Thus items that
cannot be compared matter only where they meet, and an item that no comparison tells from others
stands where the comparisons leave it.
-/

namespace CodeAtlas.Sorting

variable {α : Type}

/-- How many items after `last` go on in order, or strictly against it. -/
def runLength? (before? : α → α → Option Bool) (descending : Bool) (last : α) :
    List α → Option Nat
  | [] => some 0
  | item :: rest =>
    match before? item last with
    | none => none
    | some lower =>
      if lower == descending then (runLength? before? descending item rest).map (· + 1)
      else some 0

/-- The run at the start, in order, and the rest. -/
def run? (before? : α → α → Option Bool) : List α → Option (List α × List α)
  | first :: second :: rest => do
    let descending ← before? second first
    let length := (← runLength? before? descending second rest) + 2
    let items := first :: second :: rest
    let run := items.take length
    return (if descending then run.reverse else run, items.drop length)
  | items => some (items, [])

/-- Where an item goes among `sorted` ones, between two bounds. -/
def placeBetween? (before? : α → α → Option Bool) (item : α) (sorted : Array α)
    (low high : Nat) : Option Nat :=
  if low < high then
    let middle := (low + high) / 2
    match sorted[middle]? with
    | none => some low
    | some other =>
      match before? item other with
      | none => none
      | some true => placeBetween? before? item sorted low middle
      | some false => placeBetween? before? item sorted (middle + 1) high
  else some low
termination_by high - low

/-- Puts an item among sorted ones. -/
def insert? (before? : α → α → Option Bool) (sorted : List α) (item : α) : Option (List α) :=
  (placeBetween? before? item sorted.toArray 0 sorted.length).map fun place =>
    sorted.take place ++ item :: sorted.drop place

/-- The items in order; none when two are compared that cannot be. -/
def byHalving? (before? : α → α → Option Bool) (items : List α) : Option (List α) := do
  let (run, rest) ← run? before? items
  rest.foldlM (insert? before?) run

end CodeAtlas.Sorting
