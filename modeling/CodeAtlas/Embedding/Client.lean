import CodeAtlas.Address.Basic
import CodeAtlas.Embedding.Reply

/-!
The client of a remote embedding service: what it asks and where, and what it makes of the answer. A
request to an address that names no place goes out, but its answer is lost.
-/

namespace CodeAtlas

/-- A client of an embedding service. -/
structure EmbeddingClient where
  apiKey : Option String
  model : String := "text-embedding-3-small"
  baseUrl : String := "https://api.openai.com/v1"

namespace EmbeddingClient

/-- What is sent. -/
structure Request where
  url : String
  authorization : String
  contentType : String
  body : Value

/-- What comes back: nothing, or a status and the value that the body writes, if it writes one. -/
inductive Answer where
  | lost
  | answered (status : Int) (body : Option Value)

/-- A status and a body as text. -/
def Answer.ofText (status : Int) (body : String) : Answer :=
  .answered status (Reply.valueOf? (Text.utf8 body.toList))

/-- A key was given. -/
def isConfigured (c : EmbeddingClient) : Bool :=
  c.apiKey.any (!·.isEmpty)

/-- Where requests go. -/
def address (c : EmbeddingClient) : Except Address.Fault Address :=
  Address.parse (String.ofList (Text.dropTrailing '/' c.baseUrl.toList) ++ "/embeddings")

/-- The request for the vectors of texts. A single text is sent as such, several as a list;
credentials in the address take the place of the key. -/
def request (c : EmbeddingClient) (address : Address) (texts : List String) : Request :=
  let input : Value := match texts with
    | [only] => .text only
    | _ => Value.texts texts
  { url := (if address.isAbsolute then address else address.underRoot).text
    authorization :=
      ((if address.isAbsolute then address.credentials? else none).getD
        ("Bearer " ++ c.apiKey.getD ""))
    contentType := "application/json"
    body := .object
      [("model", .text c.model), ("input", input), ("encoding_format", .text "float")] }

/-- The request failed. -/
def lost (c : EmbeddingClient) : Failure :=
  ⟨.provider, "Embedding request failed", [("model", .text c.model)]⟩

/-- The service answered with a status that is no success. -/
def rejected (c : EmbeddingClient) (status : Int) : Failure :=
  ⟨.provider, s!"Embedding request failed with status {status}",
    [("status_code", .int status), ("model", .text c.model)]⟩

/-- The base address is none. -/
def misaddressed (fault : Address.Fault) : Failure :=
  .plain (.unforeseen "InvalidURL") fault.message

/-- A key that can be sent. -/
def canSend (c : EmbeddingClient) : Bool :=
  (c.apiKey.getD "").toList.all (·.val < 0x80)

/-- The vectors that the answer to a request gives. -/
def read (c : EmbeddingClient) (expected : Nat) : Answer → Except Failure (List (List Float))
  | .lost => .error c.lost
  | .answered status body =>
    if status < 200 || 299 < status then .error (c.rejected status)
    else match body with
      | none => .error c.lost
      | some reply => Reply.vectors expected reply

/-- Asks for the vectors of texts: the request that is sent, if one is, and what comes of it. -/
def embed (c : EmbeddingClient) (transport : Request → Answer) (texts : List String) :
    Option Request × Except Failure (List (List Float)) :=
  if !c.isConfigured then (none, .error (.plain .provider "Embedding API key not configured"))
  else if texts.isEmpty then (none, .ok [])
  else match c.address with
    | .error fault => (none, .error (misaddressed fault))
    | .ok address =>
      if !c.canSend then (none, .error c.lost)
      else
        let request := c.request address texts
        let answer := transport request
        (some request,
          if address.isAbsolute then c.read texts.length answer else .error c.lost)

end EmbeddingClient

end CodeAtlas
