import CodeAtlas.Config.Basic
import CodeAtlas.Context.Memory
import CodeAtlas.Embedding.Embedder
import CodeAtlas.Engine.Conditions

/-!
An engine: an index, an embedder and what is kept between questions, under one configuration. Time
is an input of everything that depends on it.
-/

namespace CodeAtlas

/-- An engine; `τ` is time and `σ` the state of the embedding provider. -/
structure Engine (τ σ : Type) where
  config : EngineConfig
  index : Index
  embedder : Embedder τ σ
  memory : ContextMemory τ

namespace Engine

variable {τ σ : Type}

/-- An engine with an index; `duration` takes seconds to lengths of time. -/
def create (duration : Float → τ) (config : EngineConfig) (settings : Settings)
    (provider : Option (Provider σ)) (state : σ) (index : Index) : Engine τ σ :=
  { config
    index
    embedder := .create duration config.embeddings settings provider state
    memory := .empty duration config.retrieval }

/-- Forgets what is kept of an owner. The links stay when they cannot be forgotten. -/
def forget (c : Conditions) (owner : String) (e : Engine τ σ) : Except Failure Unit × Engine τ σ :=
  let memory := e.memory.forgetViews owner
  match c.outage .forgetLinks with
  | some outage => (outage.result Outage.ignored, { e with memory })
  | none => (.ok (), { e with memory := memory.forgetLinks owner })

end Engine

end CodeAtlas
