import CodeAtlas.Embedding.Feature

/-!
Likeness of vectors: the cosine of the angle between them, over the dimensions that both have.
-/

namespace CodeAtlas.Similarity

/-- The sum of the products of what stands at the same places. -/
def dot (a b : List Float) : Float :=
  (List.zipWith (· * ·) a b).foldl (· + ·) 0

/-- Into the range from -1 to 1; what is no number counts as 1. -/
def clamp (x : Float) : Float :=
  let low := if x < 1.0 then x else 1.0
  if -1.0 < low then low else -1.0

/-- The cosine of two vectors; 0 when one is empty or has no length. -/
def cosine (a b : List Float) : Float :=
  let size := min a.length b.length
  let a := a.take size
  let b := b.take size
  let normA := Feature.norm a
  let normB := Feature.norm b
  if size == 0 || normA == 0 || normB == 0 then 0
  else clamp (dot a b / (normA * normB))

/-- The cosine of the feature vectors of two texts. -/
def ofTexts (a b : String) : Float :=
  let vectorOf (s : String) :=
    Feature.vector (Feature.normalize Feature.defaultMaxChars s) Feature.defaultDimensions.toNat
  cosine (vectorOf a) (vectorOf b)

end CodeAtlas.Similarity
