import CodeAtlas.FilePath
import CodeAtlas.Text.Casing

/-!
The languages a file can be in, what is known of each, and the language of a path by its suffix.
-/

namespace CodeAtlas

/-- The languages that a file suffix can announce; `text` stands for everything else. -/
inductive Language where
  | python
  | javascript
  | typescript
  | php
  | java
  | kotlin
  | swift
  | go
  | rust
  | c
  | cpp
  | csharp
  | ruby
  | scala
  | vue
  | html
  | css
  | scss
  | json
  | xml
  | yaml
  | markdown
  | sql
  | text
  deriving DecidableEq, Inhabited

/-- What is known of a language. -/
structure LanguageDefinition where
  name : String
  id : Language
  extensions : List String
  primaryExtension : String
  aliases : List String
  isCode : Bool
  commentMarks : List String

namespace Language

/-- The word for a language in records and answers. -/
def id : Language → String
  | .python => "python"
  | .javascript => "javascript"
  | .typescript => "typescript"
  | .php => "php"
  | .java => "java"
  | .kotlin => "kotlin"
  | .swift => "swift"
  | .go => "go"
  | .rust => "rust"
  | .c => "c"
  | .cpp => "cpp"
  | .csharp => "csharp"
  | .ruby => "ruby"
  | .scala => "scala"
  | .vue => "vue"
  | .html => "html"
  | .css => "css"
  | .scss => "scss"
  | .json => "json"
  | .xml => "xml"
  | .yaml => "yaml"
  | .markdown => "markdown"
  | .sql => "sql"
  | .text => "text"

/-- Every language. -/
def all : List Language := [
  .python, .javascript, .typescript, .php, .java, .kotlin, .swift, .go, .rust, .c, .cpp,
  .csharp, .ruby, .scala, .vue, .html, .css, .scss, .json, .xml, .yaml, .markdown, .sql, .text]

/-- The language a word stands for. -/
def ofId? (word : String) : Option Language :=
  all.find? fun language => language.id == word

/-- The known languages, in the order they are listed. -/
def definitions : List LanguageDefinition := [
  ⟨"Python", .python, [".py", ".pyi", ".pyw"], ".py", ["python3", "py"], true, ["#"]⟩,
  ⟨"JavaScript", .javascript, [".cjs", ".js", ".jsx", ".mjs"], ".js", ["js", "jsx", "node"], true,
    ["//"]⟩,
  ⟨"TypeScript", .typescript, [".ts", ".tsx"], ".ts", ["ts", "tsx"], true, ["//"]⟩,
  ⟨"PHP", .php, [".php"], ".php", [], true, ["//", "#"]⟩,
  ⟨"Java", .java, [".java"], ".java", [], true, ["//"]⟩,
  ⟨"Kotlin", .kotlin, [".kt", ".kts"], ".kt", [], true, ["//"]⟩,
  ⟨"Swift", .swift, [".swift"], ".swift", [], true, ["//"]⟩,
  ⟨"Go", .go, [".go"], ".go", [], true, ["//"]⟩,
  ⟨"Rust", .rust, [".rs"], ".rs", [], true, ["//"]⟩,
  ⟨"C", .c, [".c", ".h"], ".c", [], true, ["//"]⟩,
  ⟨"C++", .cpp, [".cc", ".cpp", ".hh", ".hpp"], ".cpp", [], true, ["//"]⟩,
  ⟨"C#", .csharp, [".cs"], ".cs", [], true, ["//"]⟩,
  ⟨"Ruby", .ruby, [".rb"], ".rb", [], true, ["#"]⟩,
  ⟨"Scala", .scala, [".sc", ".scala"], ".scala", [], true, ["//"]⟩,
  ⟨"Vue", .vue, [".vue"], ".vue", [], true, ["//"]⟩,
  ⟨"HTML", .html, [".htm", ".html"], ".html", [], false, []⟩,
  ⟨"CSS", .css, [".css", ".less", ".sass"], ".css", [], false, []⟩,
  ⟨"SCSS", .scss, [".scss"], ".scss", [], false, []⟩,
  ⟨"JSON", .json, [".json"], ".json", [], false, []⟩,
  ⟨"XML", .xml, [".xml"], ".xml", [], false, []⟩,
  ⟨"YAML", .yaml, [".yaml", ".yml"], ".yaml", [], false, []⟩,
  ⟨"Markdown", .markdown, [".markdown", ".md"], ".md", [], false, []⟩,
  ⟨"SQL", .sql, [".sql"], ".sql", [], false, ["--"]⟩]

/-- What is known of a language; nothing is known of plain text. -/
def definition? (language : Language) : Option LanguageDefinition :=
  definitions.find? fun d => d.id == language

/-- Programming languages, as against data and markup. -/
def isCode (language : Language) : Bool :=
  (language.definition?.map (·.isCode)).getD false

/-- Every suffix with a known language. -/
def knownExtensions : List String :=
  definitions.flatMap (·.extensions)

/-- The language whose suffixes hold the lower-cased suffix of the path. -/
def ofPath (path : String) : Language :=
  let suffix := Text.lower (FilePath.parse path).suffix
  ((definitions.find? fun d => d.extensions.contains suffix).map (·.id)).getD .text

/-- Every language is listed. -/
theorem mem_all (language : Language) : language ∈ all := by
  cases language <;> decide

end Language

end CodeAtlas
