import CodeAtlas.Context.Record
import CodeAtlas.Context.Format
import CodeAtlas.Engine.Retrieval

/-!
Asking a language model. The model is sent the question and the text of its context. A context that
cannot be had does not hinder the question; what the model fails with is passed on.
-/

namespace CodeAtlas

/-- What a language model is sent. -/
structure Prompt where
  question : String
  context : String
  model : String

namespace Engine

variable {τ σ : Type}
variable [Add τ] [Sub τ] [LE τ] [DecidableLE τ] [LT τ] [DecidableLT τ] [OfNat τ 0]

/-- The context when none could be had. -/
def noContext : Bundle Float :=
  { degraded := ["all"] }

/-- Asks a model a question with its context: what the model is sent, and what comes of it. -/
def ask (gateway : Prompt → Except Failure GatewayReply) (c : Conditions) (now : τ)
    (owner question : String) (path : Option String) (options : ContextOptions) (model : String)
    (e : Engine τ σ) : Prompt × Except Failure Answer × Engine τ σ :=
  let (retrieved, e) := e.retrieve c now owner question path options
  let bundle := match retrieved with
    | .ok bundle => bundle
    | .error _ => noContext
  let prompt : Prompt := ⟨question, bundle.format, model⟩
  (prompt, (gateway prompt).map fun reply => ⟨reply, bundle.use, bundle.degraded⟩, e)

end Engine

end CodeAtlas
