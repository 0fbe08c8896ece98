import CodeAtlas.Value.Checked
import CodeAtlas.Value.View

/-!
Embeddings: vectors of texts, with the model they come from and a tag that says whether a provider
made them or the local feature vector stands in.
-/

namespace CodeAtlas

open Decode

/-- Where a vector comes from. -/
inductive EmbeddingSource where
  | remote
  | fallback
  deriving DecidableEq

/-- The word for a source. -/
def EmbeddingSource.word : EmbeddingSource → String
  | .remote => "remote"
  | .fallback => "fallback"

/-- The vector of a text. -/
structure Embedding where
  source : EmbeddingSource
  vector : List Float
  model : String

namespace Embedding

/-- The model of the local feature vectors. -/
def fallbackModel : String := "codectx-feature-hash-v1"

/-- The local feature vector stands in. -/
def isFallback (e : Embedding) : Bool :=
  e.source == .fallback

/-- The fields of an embedding. -/
def view (e : Embedding) : View :=
  let type := match e.source with
    | .remote => "RemoteEmbedding"
    | .fallback => "FallbackEmbedding"
  .record type [("source", .text e.source.word), ("vector", .ofList .real e.vector),
    ("model", .text e.model)]

/-- Reads the tag of an embedding whose sort is known. -/
def decodeSource (source : EmbeddingSource) : Value → Checked EmbeddingSource
  | .text word => if word == source.word then .ok source else .fail .otherLiteral
  | _ => .fail .otherLiteral

/-- Reads an embedding that is known to come from a provider. -/
def decodeRemote : Value → Checked Embedding :=
  record .exchanged fun f =>
    mk <$> f.withDefault "source" .remote (decodeSource .remote) <*>
      f.required "vector" (Decode.list Decode.real) <*> f.required "model" Decode.text

/-- Reads an embedding that is known to be a feature vector. -/
def decodeFallback : Value → Checked Embedding :=
  record .exchanged fun f =>
    mk <$> f.withDefault "source" .fallback (decodeSource .fallback) <*>
      f.required "vector" (Decode.list Decode.real) <*>
      f.withDefault "model" fallbackModel Decode.text

/-- Reads an embedding; its `source` says of which sort it is. -/
def decode (v : Value) : Checked Embedding :=
  match v with
  | .object entries =>
    match entries.lookup "source" with
    | none => .fail .noTag
    | some (.text "remote") => (decodeRemote v).under (.field "remote")
    | some (.text "fallback") => (decodeFallback v).under (.field "fallback")
    | some _ => .fail .unknownTag
  | _ => .fail .notAnObject

end Embedding

end CodeAtlas
