import CodeAtlas.Number.Shortest

/-!
Numbers as a caller gave them, whole or not. Whole numbers stay whole under addition and show
without a fraction, so that a limit or a duration reads in a message as it was written. Comparisons
are exact whatever the two numbers are; arithmetic that leaves the whole numbers rounds once and
fails where the result has no floating-point counterpart.
-/

namespace CodeAtlas.Number

/-- Why whole numbers have no floating-point counterpart. -/
inductive Overflow where
  /-- A whole number is beyond the largest floating-point number. -/
  | number
  /-- A quotient of whole numbers is. -/
  | quotient

/-- The overflow in words. -/
def Overflow.message : Overflow → String
  | number => "int too large to convert to float"
  | quotient => "integer division result too large for a float"

/-- A whole number or a floating-point number. -/
inductive Scalar where
  | whole (n : Int)
  | real (x : Float)
  deriving Inhabited

namespace Scalar

/-- The nearest floating-point number, infinite where there is none. -/
def toFloat : Scalar → Float
  | whole n => nearest (n < 0) n.natAbs 1
  | real x => x

/-- The nearest floating-point number. -/
def toFloat? : Scalar → Except Overflow Float
  | whole n =>
    match nearest? (n < 0) n.natAbs 1 with
    | some x => .ok x
    | none => .error .number
  | real x => .ok x

/-- The number as text. -/
def text : Scalar → String
  | whole n => toString n
  | real x => plain.shortest x

/-- More than there is of anything that is counted. -/
def beyondCounts : Int :=
  twoPow 63

/-- A number as a whole one by a way of rounding; what is infinite or no number is beyond all
counts. -/
def rounded (round : Dyadic → Int) : Scalar → Int
  | whole n => n
  | real x =>
    match Kind.ofFloat x with
    | .finite d => round d
    | .infinite true => -beyondCounts
    | _ => beyondCounts

/-- The largest whole number that is not above. -/
def floor : Scalar → Int :=
  rounded Dyadic.floor

/-- The least whole number that is not below. -/
def ceil : Scalar → Int :=
  rounded Dyadic.ceil

/-- Whole numbers have a whole sum. -/
def add : Scalar → Scalar → Scalar
  | whole m, whole n => whole (m + n)
  | a, b => real (a.toFloat + b.toFloat)

/-- Whole numbers have a whole difference. -/
def sub : Scalar → Scalar → Scalar
  | whole m, whole n => whole (m - n)
  | a, b => real (a.toFloat - b.toFloat)

/-- The quotient by a positive whole number, rounded once. -/
def dividedBy (a : Scalar) (count : Nat) : Except Overflow Float :=
  match a with
  | whole n =>
    match nearest? (n < 0) n.natAbs count with
    | some x => .ok x
    | none => .error .quotient
  | real x => .ok (x / count.toFloat)

/-- The natural logarithm of a positive number. A whole number beyond the floating-point numbers is
taken as a power of two and a fraction below one. -/
def log : Scalar → Float
  | whole n =>
    match nearest? (n < 0) n.natAbs 1 with
    | some x => Float.log x
    | none =>
      let bits := n.natAbs.log2 + 1
      Float.log (nearest false n.natAbs (twoPow bits)) + Float.log 2.0 * bits.toFloat
  | real x => Float.log x

/-- How a whole number stands to a floating-point number that is one. -/
def compareWhole (n : Int) (x : Float) : Option Ordering :=
  match Kind.ofFloat x with
  | .notANumber => none
  | .infinite negative => some (if negative then .gt else .lt)
  | .finite d =>
    let (num, den) := d.quotient
    some (compare (n * den) (if d.negative then -(num : Int) else num))

/-- How two numbers stand to each other, exactly; what is no number stands in no order. -/
def compare? : Scalar → Scalar → Option Ordering
  | whole m, whole n => some (compare m n)
  | whole m, real y => compareWhole m y
  | real x, whole n => (compareWhole n x).map Ordering.swap
  | real x, real y =>
    if x < y then some .lt else if y < x then some .gt else if x == y then some .eq else none

/-- At most as large. -/
def le (a b : Scalar) : Bool :=
  match compare? a b with
  | some o => o.isLE
  | none => false

/-- Smaller. -/
def lt (a b : Scalar) : Bool :=
  match compare? a b with
  | some o => o.isLT
  | none => false

/-- Equally large. -/
def same (a b : Scalar) : Bool :=
  match compare? a b with
  | some o => o.isEq
  | none => false

instance : Coe Int Scalar := ⟨whole⟩

instance : Add Scalar := ⟨add⟩

instance : Sub Scalar := ⟨sub⟩

instance : LE Scalar := ⟨fun a b => le a b = true⟩

instance : LT Scalar := ⟨fun a b => lt a b = true⟩

instance (a b : Scalar) : Decidable (a ≤ b) :=
  inferInstanceAs (Decidable (le a b = true))

instance (a b : Scalar) : Decidable (a < b) :=
  inferInstanceAs (Decidable (lt a b = true))

instance (n : Nat) : OfNat Scalar n := ⟨whole n⟩

end Scalar

end CodeAtlas.Number
