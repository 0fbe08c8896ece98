import CodeAtlas.Tree.Basic
import CodeAtlas.Value.Checked
import CodeAtlas.Value.View
import CodeAtlas.Tree.Walk

/-!
The kind of a project, told from marker files at its root: its type, its package managers, its
framework and where it may start.
-/

namespace CodeAtlas

open Decode

/-- What the marker files of a project say. -/
structure ProjectStructure where
  type : String := "unknown"
  framework : Option String := none
  packageManagers : List String := []
  configFiles : List String := []
  entryPoints : List String := []

namespace ProjectStructure

/-- Marker files, each with a project type and a package manager. -/
def markers : List (String × String × String) := [
  ("package.json", "javascript", "npm"),
  ("composer.json", "php", "composer"),
  ("requirements.txt", "python", "pip"),
  ("Pipfile", "python", "pipenv"),
  ("pyproject.toml", "python", "poetry"),
  ("Cargo.toml", "rust", "cargo"),
  ("go.mod", "go", "go"),
  ("pom.xml", "java", "maven"),
  ("build.gradle", "java", "gradle"),
  ("Gemfile", "ruby", "bundler")]

/-- Marker files of frameworks by project type; the first that is there decides. -/
def frameworkMarkers : String → List (String × String)
  | "javascript" => [
    ("next.config.js", "Next.js"), ("nuxt.config.js", "Nuxt.js"), ("vue.config.js", "Vue.js"),
    ("angular.json", "Angular"), ("gatsby-config.js", "Gatsby"), ("svelte.config.js", "Svelte")]
  | "php" => [
    ("artisan", "Laravel"), ("app/Console/Kernel.php", "Laravel"), ("bin/console", "Symfony"),
    ("wp-config.php", "WordPress"), ("index.php", "Custom PHP")]
  | "python" => [
    ("manage.py", "Django"), ("app.py", "Flask"), ("main.py", "FastAPI"),
    ("setup.py", "Python Package")]
  | _ => []

/-- Files in which a program may start. -/
def startFiles : List String := [
  "main.py", "app.py", "manage.py", "index.js", "server.js", "src/index.js", "src/index.ts",
  "src/main.ts", "index.php", "public/index.php", "main.go", "src/main.rs"]

/-- Adds what a marker file says; the last one decides the type. -/
def addMarker (s : ProjectStructure) (marker : String × String × String) : ProjectStructure :=
  let (file, type, manager) := marker
  { s with
    type := type
    packageManagers :=
      if s.packageManagers.contains manager then s.packageManagers
      else s.packageManagers ++ [manager]
    configFiles := s.configFiles ++ [file] }

/-- Looks at the marker files under a root. -/
def detect (t : Tree) (root : FilePath) : Except RootFault ProjectStructure :=
  if !t.isDir root then .error (.notADirectory root)
  else
    let found := markers.filter fun m => t.holds (root.join m.1)
    let s := found.foldl addMarker {}
    .ok { s with
      framework := ((frameworkMarkers s.type).find? fun m => t.holds (root.join m.1)).map (·.2)
      entryPoints := startFiles.filter fun file => t.isFile (root.join file) }

/-- The fields of the structure. -/
def view (s : ProjectStructure) : View :=
  .record "ProjectStructure" [("type", .text s.type), ("framework", .ofOption .text s.framework),
    ("package_managers", .texts s.packageManagers), ("config_files", .texts s.configFiles),
    ("entry_points", .texts s.entryPoints)]

/-- Reads a structure. -/
def decode : Value → Checked ProjectStructure :=
  record .exchanged fun f =>
    mk <$> f.withDefault "type" "unknown" Decode.text <*>
      f.withDefault "framework" none (Decode.optional Decode.text) <*>
      f.withDefault "package_managers" [] (Decode.list Decode.text) <*>
      f.withDefault "config_files" [] (Decode.list Decode.text) <*>
      f.withDefault "entry_points" [] (Decode.list Decode.text)

end ProjectStructure

end CodeAtlas
