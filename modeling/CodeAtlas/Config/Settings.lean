import CodeAtlas.Config.DotEnv
import CodeAtlas.Text.Casing
import CodeAtlas.Value.Checked
import CodeAtlas.Value.View

/-!
Settings of the process: from its environment and from an environment file, the environment first.
Their names there are the field names after `CODECTX_`, in any case.
-/

namespace CodeAtlas

open Decode

/-- Settings of the process. -/
structure Settings where
  appName : String
  appEnv : String
  logLevel : String
  databasePath : String
  embeddingApiKey : Option String
  embeddingBaseUrl : String
  embeddingModel : String
  embeddingTimeoutSeconds : Float
  logRedactionEnabled : Bool

namespace Settings

/-- The fields of the settings. -/
def view (s : Settings) : View :=
  .record "Settings" [("app_name", .text s.appName), ("app_env", .text s.appEnv),
    ("log_level", .text s.logLevel), ("database_path", .text s.databasePath),
    ("embedding_api_key", .ofOption .text s.embeddingApiKey),
    ("embedding_base_url", .text s.embeddingBaseUrl),
    ("embedding_model", .text s.embeddingModel),
    ("embedding_timeout_seconds", .real s.embeddingTimeoutSeconds),
    ("log_redaction_enabled", .bool s.logRedactionEnabled)]

/-- Reads settings. -/
def decode : Value → Checked Settings :=
  record .plain fun f =>
    mk <$> f.withDefault "app_name" "codectx-core" Decode.text <*>
      f.withDefault "app_env" "development" Decode.text <*>
      f.withDefault "log_level" "INFO" Decode.text <*>
      f.withDefault "database_path" ".codectx/index.sqlite3" Decode.text <*>
      f.withDefault "embedding_api_key" none (Decode.optional Decode.text) <*>
      f.withDefault "embedding_base_url" "https://api.openai.com/v1" Decode.text <*>
      f.withDefault "embedding_model" "text-embedding-3-small" Decode.text <*>
      f.withDefault "embedding_timeout_seconds" 30.0 Decode.real <*>
      f.withDefault "log_redaction_enabled" true Decode.bool

/-- What settings are called in an environment starts with this. -/
def variableStart : String := "codectx_"

/-- The settings among the variables of an environment; of equal names the last one wins, also one
without a value, which sets nothing. -/
def entriesOf (assigned : List (String × Option String)) : List (String × Value) :=
  let named := assigned.filterMap fun (name, value) =>
    (Text.dropStart? variableStart.toList (Text.toLower name.toList)).map fun rest =>
      (String.ofList rest, Value.ofOption .text value)
  (Value.ofEntries named).filter fun entry => !entry.2.isNull

/-- The settings of an environment and an environment file; the environment wins. -/
def ofEnvironment (environment : List (String × String)) (file : String) : Checked Settings :=
  let outer := environment.map fun (name, value) => (name, some value)
  decode (.object (entriesOf outer ++ entriesOf (DotEnv.assigned environment file)))

/-- The application is being developed. -/
def isDevelopment (s : Settings) : Bool :=
  Text.lower s.appEnv == "development"

/-- The application is in production. -/
def isProduction (s : Settings) : Bool :=
  Text.lower s.appEnv == "production"

end Settings

end CodeAtlas
