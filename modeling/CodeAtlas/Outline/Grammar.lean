import CodeAtlas.Outline.Basic
import CodeAtlas.Pattern.Search

/-!
How declarations look in each language: the patterns for functions, classes, interfaces, imports and
exports, the comment marks, and how the end of a body is found. A language without a grammar has no
patterns at all.

A declaration records its `name`. An import records its `module` and perhaps the bound `names`, or a
list of whole `modules`, or a `block` of quoted module paths. An export records a `name` or `names`.
-/

namespace CodeAtlas

/-- How declarations look in a language. -/
structure Grammar where
  functions : List Pattern := []
  classes : List Pattern := []
  interfaces : List Pattern := []
  imports : List Pattern := []
  exports : List Pattern := []
  /-- What a comment line starts with. -/
  lineComments : List String := []
  /-- The opening and closing marks of block comments and of texts that document. -/
  blockComments : List (String × String) := []
  /-- Bodies end where the indentation does, rather than at a closing brace. -/
  endsByIndent : Bool := false
  /-- An import binds the last segment of its module path. -/
  bindsLastSegment : Bool := false
  /-- The module is part of the project. -/
  isLocal : String → Bool

namespace Grammar

open Pattern Text

/-- A module given by a path. -/
def isPathLike (module : String) : Bool :=
  match module.toList with
  | [] => false
  | c :: _ => c == '.' || c == '/' || c == '\\'

/-- A namespace without slashes is project code, and so is a path. -/
def isNamespaceOrPath (module : String) : Bool :=
  isPathLike module || !module.toList.contains '/'

/-- The grammar of a language that has none. -/
def unknown : Grammar := { isLocal := isPathLike }

/-- No declarations can be recognised. -/
def isEmpty (g : Grammar) : Bool :=
  g.functions.isEmpty && g.classes.isEmpty && g.interfaces.isEmpty && g.imports.isEmpty &&
    g.exports.isEmpty

/-- Words that look like a method name before a parenthesis but never are one. -/
def controlKeywords : List String := [
  "if", "else", "for", "foreach", "while", "do", "switch", "case", "catch", "try", "finally",
  "return", "function", "new", "throw", "typeof", "await", "yield", "super", "this", "constructor",
  "elseif", "match", "with"]

/-- A space or tab. -/
def isGap (c : Char) : Bool :=
  c == ' ' || c == '\t'

/-- Perhaps spaces and tabs. -/
def gap0 : Pattern := run0 isGap

/-- Spaces and tabs. -/
def gap1 : Pattern := run1 isGap

/-- Perhaps blanks. -/
def blank0 : Pattern := run0 isBlank

/-- Blanks. -/
def blank1 : Pattern := run1 isBlank

/-- Word characters. -/
def word1 : Pattern := run1 isWordChar

/-- The first character of an identifier that may hold a dollar. -/
def isIdentStart (c : Char) : Bool :=
  (c.val < 0x80 && c.isAlpha) || c == '_' || c == '$'

/-- The later characters of an identifier that may hold a dollar. -/
def isIdentChar (c : Char) : Bool :=
  isWordChar c || c == '$'

/-- An identifier that may hold a dollar. -/
def ident : Pattern := one isIdentStart ++ run0 isIdentChar

/-- A single or double quote. -/
def isQuote (c : Char) : Bool :=
  c == '\x27' || c == '\x22'

/-- A quoted text, recorded under a name. -/
def quoted (name : String) : Pattern :=
  one isQuote ++ capture name (run1 fun c => !isQuote c) ++ one isQuote

/-- The start of a line and its indentation. -/
def indented : Pattern := lineStart ++ gap0

/-- Some of the words, each followed by blanks. -/
def modifiers (words : List String) : Pattern :=
  many (anyText words ++ blank1)

/-- A type annotation after a colon, up to an equals sign or the line end. -/
def annotation : Pattern :=
  text ":" ++ run1 fun c => c != '=' && c != '\n'

/-- A group in braces without a closing brace inside, recorded as names. -/
def bracedNames : Pattern :=
  text "\x7b" ++ run0 (· != '\x7d') ++ text "\x7d"

/-- A parameter list on one line without parentheses inside. -/
def flatParameters : Pattern :=
  text "(" ++ run0 (fun c => c != '(' && c != ')' && c != '\n') ++ text ")"

/-- A declaring word before a variable. -/
def declarator : Pattern := boundary ++ anyText ["const", "let", "var"] ++ blank1

/-- Function declarations, arrow functions and function values, and methods at the start of a
line. -/
def scriptFunctions : List Pattern := [
  boundary ++ text "function" ++ blank0 ++ optional (text "*") ++ blank0 ++ capture "name" ident ++
    blank0 ++ text "(",
  declarator ++ capture "name" ident ++ blank0 ++ optional annotation ++ text "=" ++ blank0 ++
    optional (text "async" ++ blank1) ++
    oneOf [
      text "function" ++ boundary,
      flatParameters ++ blank0 ++ optional annotation ++ text "=>",
      ident ++ blank0 ++ text "=>"],
  indented ++
    modifiers ["public", "private", "protected", "static", "async", "readonly", "override", "get",
      "set"] ++
    capture "name" ident ++ blank0 ++ flatParameters ++ blank0 ++
    optional (text ":" ++ blank0 ++ run1 fun c => c != '\x7b' && c != '\n') ++ text "\x7b"]

/-- Imports of names, of types, for effect, and by `require`. -/
def scriptImports : List Pattern := [
  boundary ++ text "import" ++ blank1 ++ absent (text "type" ++ blank1 ++ text "\x7b") ++
    capture "names" (few1 fun c => !isQuote c && c != ';') ++ blank1 ++ text "from" ++ blank1 ++
    quoted "module",
  boundary ++ text "import" ++ blank1 ++ text "type" ++ blank1 ++ capture "names" bracedNames ++
    blank1 ++ text "from" ++ blank1 ++ quoted "module",
  indented ++ text "import" ++ blank1 ++ quoted "module",
  declarator ++ capture "names" (either bracedNames ident) ++ blank0 ++ text "=" ++ blank0 ++
    text "require" ++ blank0 ++ text "(" ++ blank0 ++ quoted "module" ++ blank0 ++ text ")"]

/-- Exported declarations and export lists. -/
def scriptExports : List Pattern := [
  boundary ++ text "export" ++ blank1 ++ optional (text "default" ++ blank1) ++
    optional (text "async" ++ blank1) ++
    oneOf [text "function" ++ blank0 ++ optional (text "*"), text "class", text "const", text "let",
      text "var"] ++
    blank0 ++ capture "name" ident,
  boundary ++ text "export" ++ blank0 ++ capture "names" bracedNames,
  boundary ++ text "module.exports" ++ blank0 ++ text "=" ++ blank0 ++ capture "names" bracedNames,
  boundary ++ optional (text "module.") ++ text "exports." ++ capture "name" ident ++ blank0 ++
    text "="]

/-- A class anywhere. -/
def scriptClass : Pattern :=
  boundary ++ text "class" ++ blank1 ++ capture "name" ident

/-- Block comments between a slash and a star. -/
def slashStar : List (String × String) := [("/*", "*/")]

/-- JavaScript, also in the script block of a Vue component. -/
def javascript : Grammar := {
  functions := scriptFunctions
  classes := [scriptClass]
  imports := scriptImports
  exports := scriptExports
  lineComments := ["//"]
  blockComments := slashStar
  isLocal := isPathLike }

/-- TypeScript: JavaScript with interfaces, and exported types. -/
def typescript : Grammar := {
  functions := scriptFunctions
  classes := [boundary ++ optional (text "abstract" ++ blank1) ++ text "class" ++ blank1 ++
    capture "name" ident]
  interfaces := [boundary ++ text "interface" ++ blank1 ++ capture "name" ident]
  imports := scriptImports
  exports := scriptExports ++ [
    boundary ++ text "export" ++ blank1 ++ optional (text "default" ++ blank1) ++
      optional (text "declare" ++ blank1) ++ optional (text "abstract" ++ blank1) ++
      anyText ["interface", "type", "enum", "namespace"] ++ blank1 ++ capture "name" ident]
  lineComments := ["//"]
  blockComments := slashStar
  isLocal := isPathLike }

/-- A character of a dotted name. -/
def isDotted (c : Char) : Bool :=
  isWordChar c || c == '.'

/-- A dotted module, perhaps renamed. -/
def pythonModule : Pattern :=
  run1 isDotted ++ optional (gap1 ++ text "as" ++ gap1 ++ word1)

/-- A word that does not start with an underscore, recorded as the name. -/
def publicName : Pattern :=
  capture "name" (absent (text "_") ++ word1)

/-- Python. -/
def python : Grammar := {
  functions := [
    lineStart ++ gap0 ++ optional (text "async" ++ gap1) ++ text "def" ++ gap1 ++
      capture "name" word1 ++ gap0 ++ text "("]
  classes := [lineStart ++ gap0 ++ text "class" ++ gap1 ++ capture "name" word1]
  imports := [
    indented ++ text "from" ++ gap1 ++
      capture "module" (either (run1 (· == '.') ++ run0 isDotted) (run1 isDotted)) ++ gap1 ++
      text "import" ++ gap1 ++
      capture "names" (either (text "(" ++ run0 (· != ')') ++ text ")")
        (run1 fun c => c != '\n' && c != '#' && c != ';')),
    indented ++ text "import" ++ gap1 ++
      capture "modules" (pythonModule ++ many (gap0 ++ text "," ++ gap0 ++ pythonModule))]
  exports := [
    lineStart ++ optional (text "async" ++ gap1) ++ text "def" ++ gap1 ++ publicName,
    lineStart ++ text "class" ++ gap1 ++ publicName]
  lineComments := ["#"]
  blockComments := [("\"\"\"", "\"\"\""), ("'''", "'''")]
  endsByIndent := true
  isLocal := isPathLike }

/-- PHP. -/
def php : Grammar := {
  functions := [
    boundary ++ text "function" ++ blank1 ++ optional (text "&") ++ blank0 ++
      capture "name" word1 ++
      blank0 ++ text "("]
  classes := [
    indented ++ modifiers ["abstract", "final", "readonly"] ++ anyText ["class", "trait", "enum"] ++
      blank1 ++ capture "name" word1]
  interfaces := [indented ++ text "interface" ++ blank1 ++ capture "name" word1]
  imports := [
    indented ++ text "use" ++ blank1 ++
      optional (either (text "function" ++ blank1) (text "const" ++ blank1)) ++
      capture "module" (optional (text "\\") ++ run1 fun c => isWordChar c || c == '\\') ++
      optional (blank1 ++ text "as" ++ blank1 ++ capture "alias" word1) ++ blank0 ++ text ";",
    boundary ++ anyText ["require", "include"] ++ optional (text "_once") ++ blank0 ++
      optional (text "(") ++ blank0 ++ quoted "module"]
  exports := [
    lineStart ++ modifiers ["abstract", "final", "readonly"] ++
      anyText ["class", "interface", "trait", "enum"] ++ blank1 ++ capture "name" word1,
    lineStart ++ text "function" ++ blank1 ++ optional (text "&") ++ blank0 ++ capture "name" word1]
  lineComments := ["//", "#"]
  blockComments := slashStar
  bindsLastSegment := true
  isLocal := isNamespaceOrPath }

/-- Java. -/
def java : Grammar := {
  functions := [
    indented ++
      modifiers ["public", "private", "protected", "static", "final", "abstract", "synchronized",
        "native", "default"] ++
      optional (text "<" ++ run1 (fun c => c != '>' && c != '\n') ++ text ">" ++ blank1) ++
      absent (anyText ["return", "new", "else", "throw"] ++ boundary) ++
      run1 (fun c => isDotted c || c == '$') ++
      optional (text "<" ++
        run0 (fun c => c != '>' && c != '\x7b' && c != '\x7d' && c != ';' && c != '\n') ++
        text ">") ++
      many (text "[]") ++ blank1 ++ capture "name" word1 ++ blank0 ++ text "(" ++
      few0 (fun c => c != ';' && c != '\x7b') ++ text ")" ++ blank0 ++
      optional (text "throws" ++ blank1 ++ run1 fun c => isDotted c || c == ',' || isBlank c) ++
      text "\x7b"]
  classes := [boundary ++ anyText ["class", "enum", "record"] ++ blank1 ++ capture "name" word1]
  interfaces := [boundary ++ text "interface" ++ blank1 ++ capture "name" word1]
  imports := [
    indented ++ text "import" ++ blank1 ++ optional (text "static" ++ blank1) ++
      capture "module" (few1 isDotted) ++ optional (text ".*") ++ blank0 ++ text ";"]
  exports := [
    lineStart ++ text "public" ++ blank1 ++ modifiers ["abstract", "final", "sealed", "static"] ++
      anyText ["class", "interface", "enum", "record"] ++ blank1 ++ capture "name" word1]
  lineComments := ["//"]
  blockComments := slashStar
  bindsLastSegment := true
  isLocal := isPathLike }

/-- An ASCII capital. -/
def isCapital (c : Char) : Bool :=
  c.val < 0x80 && c.isUpper

/-- A receiver before a method name. -/
def receiver : Pattern :=
  optional (text "(" ++ run0 (· != ')') ++ text ")" ++ blank0)

/-- Go. -/
def go : Grammar := {
  functions := [
    lineStart ++ text "func" ++ blank1 ++ receiver ++ capture "name" word1 ++ blank0 ++
      one fun c => c == '[' || c == '(']
  classes := [
    lineStart ++ text "type" ++ blank1 ++ capture "name" word1 ++ blank1 ++ text "struct" ++
      boundary]
  interfaces := [
    lineStart ++ text "type" ++ blank1 ++ capture "name" word1 ++ blank1 ++ text "interface" ++
      boundary]
  imports := [
    lineStart ++ text "import" ++ blank1 ++ optional (run1 isDotted ++ blank1) ++ text "\"" ++
      capture "module" (run1 (· != '\x22')) ++ text "\"",
    lineStart ++ text "import" ++ blank0 ++ text "(" ++ capture "block" (run0 (· != ')')) ++
      text ")"]
  exports := [
    lineStart ++ text "func" ++ blank1 ++ receiver ++
      capture "name" (one isCapital ++ run0 isWordChar),
    lineStart ++ text "type" ++ blank1 ++ capture "name" (one isCapital ++ run0 isWordChar)]
  lineComments := ["//"]
  blockComments := slashStar
  isLocal := isPathLike }

/-- The grammar of a language. -/
def ofLanguage : Language → Grammar
  | .python => python
  | .javascript => javascript
  | .vue => javascript
  | .typescript => typescript
  | .php => php
  | .java => java
  | .go => go
  | _ => unknown

end Grammar

/-- The languages that have a grammar. -/
def Language.outlined : List Language :=
  Language.all.filter fun language => !(Grammar.ofLanguage language).isEmpty

end CodeAtlas
