import CodeAtlas.Config.Basic
import CodeAtlas.Failure
import CodeAtlas.Text.Utf8
import CodeAtlas.Tree.Basic
import CodeAtlas.Yaml.Reader
import CodeAtlas.Yaml.Writer

/-!
The configuration file of a workspace. Without a file, or with an empty one, everything has its
default; keys may be capitalised or underscored.
-/

namespace CodeAtlas

/-- Why a configuration cannot be had from a file. -/
inductive ConfigFault where
  /-- The bytes are no text. -/
  | notText (fault : Text.Utf8Fault)
  /-- It is no file or no document. -/
  | unreadable (path : FilePath)
  /-- A scalar of it has no value. -/
  | unforeseen (fault : Yaml.Fault)
  | notMapping (path : FilePath)
  | invalid (path : FilePath) (issues : List Issue)

/-- The fault as a failure. -/
def ConfigFault.failure : ConfigFault → Failure
  | notText fault => .plain (.unforeseen "UnicodeDecodeError") fault.message
  | unreadable path =>
    ⟨.configuration, s!"Cannot read config file {path.text}", [("path", .text path.text)]⟩
  | unforeseen fault => .plain (.unforeseen fault.word) fault.message
  | notMapping path =>
    ⟨.configuration, s!"Config file {path.text} must contain a mapping",
      [("path", .text path.text)]⟩
  | invalid path _ =>
    ⟨.configuration, s!"Invalid config file {path.text}", [("path", .text path.text)]⟩

namespace EngineConfig

/-- Where the configuration of a workspace lies. -/
def pathIn (root : FilePath) : FilePath :=
  (root.join ".codectx").join "config.yaml"

/-- A configuration from a document. -/
def ofDocument (path : FilePath) (v : Value) : Except ConfigFault EngineConfig :=
  match if v.saysNothing then .object [] else v with
  | .object entries =>
    match decodeEither (.object entries) with
    | .ok config => .ok config
    | .bad issues => .error (.invalid path issues)
  | _ => .error (.notMapping path)

/-- The configuration in a file. -/
def load (t : Tree) (path : FilePath) : Except ConfigFault EngineConfig :=
  if !t.holds path then ofDocument path .null
  else match t.read path with
    | .error _ => .error (.unreadable path)
    | .ok (bytes, _) =>
      match Text.ofUtf8 bytes with
      | .error fault => .error (.notText fault)
      | .ok text =>
        match Yaml.read (String.ofList text) with
        | .error .unfit => .error (.unreadable path)
        | .error fault => .error (.unforeseen fault)
        | .ok v => ofDocument path v

/-- The document of a configuration; what is not set is left out. -/
def document (c : EngineConfig) : String :=
  let kept (entries : List (String × Value)) := entries.filter fun e => !e.2.isNull
  let trimmed : Value → Value
    | .object entries => .object (kept entries)
    | v => v
  match c.view.plain with
  | .object sections => Yaml.write (.object (sections.map fun e => (e.1, trimmed e.2)))
  | v => Yaml.write v

end EngineConfig

end CodeAtlas
