import CodeAtlas.Failure

/-!
Token estimates: a fixed number of characters counts as one token, a started one included. The
ratio need not be whole.
-/

namespace CodeAtlas.Tokens

open Number (Kind Scalar)

/-- Characters per token where nothing else is said. -/
def defaultCharsPerToken : Int := 4

/-- Why there is no estimate. -/
inductive RatioFault where
  /-- The ratio is not positive. -/
  | notPositive (charsPerToken : Scalar)
  /-- The ratio is so small that the quotient has no bound. -/
  | unbounded
  /-- The ratio is no number. -/
  | notANumber

/-- The fault in words. -/
def RatioFault.message : RatioFault → String
  | notPositive charsPerToken => s!"chars_per_token must be > 0, got {charsPerToken.text}"
  | unbounded => "cannot convert float infinity to integer"
  | notANumber => "cannot convert float NaN to integer"

/-- The fault as a failure. -/
def RatioFault.failure (fault : RatioFault) : Failure :=
  let word := match fault with
    | unbounded => "OverflowError"
    | notPositive _ | notANumber => "ValueError"
  .plain (.unforeseen word) fault.message

/-- `length / charsPerToken` rounded up; a quotient that is nearest to zero as a floating-point
number counts as zero. -/
def ofLength (length charsPerToken : Nat) : Nat :=
  if Number.twoPow 1075 * length ≤ charsPerToken then 0
  else (length + charsPerToken - 1) / charsPerToken

/-- The quotient by a ratio that is not whole, rounded up. -/
def ofQuotient (quotient : Float) : Except RatioFault Nat :=
  match Kind.ofFloat quotient with
  | .notANumber => .error .notANumber
  | .infinite _ => .error .unbounded
  | .finite d => .ok d.ceil.toNat

/-- The estimate for a text. The empty text has no tokens, whatever the ratio. -/
def estimate (text : String) (charsPerToken : Scalar) : Except RatioFault Nat :=
  if text.isEmpty then .ok 0
  else if charsPerToken ≤ 0 then .error (.notPositive charsPerToken)
  else match charsPerToken with
    | .whole n => .ok (ofLength text.length n.toNat)
    | .real x => ofQuotient (text.length.toFloat / x)

end CodeAtlas.Tokens
