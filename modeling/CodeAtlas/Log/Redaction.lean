import CodeAtlas.Pattern.Basic
import CodeAtlas.Text.Basic
import CodeAtlas.Value.Basic

/-!
Taking credentials and home directories out of what is logged. A rule looks at one place of a text
and says what is written instead of what stands there; the rules are applied one after another, each
to the whole text that the one before left.
-/

namespace CodeAtlas.Redaction

/-- What a rule finds at a place: what is written, and how many characters are left out for it. -/
structure Hit where
  written : List Char
  length : Nat

/-- A rule: given the character before a place and the text from there on. -/
abbrev Rule := Option Char → List Char → Option Hit

/-- A text with every match of a rule replaced, leftmost first and without overlap. -/
def Rule.apply (rule : Rule) (text : List Char) : List Char :=
  go 0 none text
where
  /-- `skip` more characters belong to the last match. -/
  go (skip : Nat) (before : Option Char) : List Char → List Char
    | [] => []
    | c :: rest =>
      match skip with
      | skip + 1 => go skip (some c) rest
      | 0 =>
        match rule before (c :: rest) with
        | some hit => hit.written ++ go (hit.length - 1) (some c) rest
        | none => c :: go 0 (some c) rest

/-- The text after a word, whatever the case of its letters. -/
def afterWord? (word text : List Char) : Option (List Char) :=
  let start := text.take word.length
  if start.map Pattern.foldCase == word then some (text.drop word.length) else none

/-- Single and double quotes. -/
def isQuote (c : Char) : Bool :=
  c == '\x27' || c == '\x22'

/-- The text after one accepted character, or all of it when there is none. -/
def skipOne (accepts : Char → Bool) : List Char → List Char
  | [] => []
  | c :: rest => if accepts c then rest else c :: rest

/-- The text after a run of accepted characters of at least one. -/
def skipRun? (accepts : Char → Bool) (text : List Char) : Option (List Char) :=
  if text.head?.any accepts then some (text.dropWhile accepts) else none

/-- A home directory below `parent`. -/
def homeRule (parent : String) : Rule := fun _ text => do
  let name ← Text.dropStart? parent.toList text
  let rest ← skipRun? (fun c => c != '/' && !Text.isBlank c) name
  return ⟨"[HOME_REDACTED]".toList, text.length - rest.length⟩

/-- The text after the word that names a credential. -/
def credentialName? (text : List Char) : Option (List Char) :=
  let apiKey := (afterWord? "api".toList text).bind fun rest =>
    afterWord? "key".toList (skipOne (fun c => c == '_' || c == '-') rest)
  ((apiKey.or (afterWord? "token".toList text)).or (afterWord? "password".toList text)).or
    (afterWord? "secret".toList text)

/-- A credential given after its name. -/
def credentialRule : Rule := fun _ text => do
  let rest ← credentialName? text
  let name := text.take (text.length - rest.length)
  let mark := (skipOne isQuote rest).dropWhile Text.isBlank
  let given ← if mark.head?.any (fun c => c == ':' || c == '=') then some mark.tail else none
  let value := skipOne isQuote (given.dropWhile Text.isBlank)
  let rest ← skipRun? (fun c => !isQuote c && !Text.isBlank c) value
  return ⟨name ++ "=[REDACTED]".toList, text.length - rest.length⟩

/-- A bearer token. -/
def bearerRule : Rule := fun _ text => do
  let rest ← afterWord? "bearer".toList text
  let token ← skipRun? Text.isBlank rest
  let rest ← skipRun? (fun c => !Text.isBlank c) token
  return ⟨"Bearer [TOKEN_REDACTED]".toList, text.length - rest.length⟩

/-- The characters of a secret key. -/
def isKeyChar (c : Char) : Bool :=
  c.isAlphanum || c == '_' || c == '-'

/-- Secret keys are at least so long after their mark. -/
def keyLength : Nat := 8

/-- A secret key that starts a word. -/
def keyRule : Rule := fun before text => do
  let rest ← if before.any Text.isWordChar then none else Text.dropStart? "sk-".toList text
  let after := rest.dropWhile isKeyChar
  if rest.length - after.length < keyLength then none
  else some ⟨"[KEY_REDACTED]".toList, text.length - after.length⟩

/-- The rules in the order of their use. -/
def rules : List Rule :=
  [homeRule "/Users/", homeRule "/home/", credentialRule, bearerRule, keyRule]

/-- A text without credentials and home directories. -/
def text (s : String) : String :=
  String.ofList (rules.foldl (fun t rule => rule.apply t) s.toList)

mutual

/-- A value with all its texts redacted; keys stay. -/
def value : Value → Value
  | .text s => .text (text s)
  | .list items => .list (values items)
  | .object entries => .object (Redaction.entries entries)
  | other => other

/-- Redacts items. -/
def values : List Value → List Value
  | [] => []
  | v :: rest => value v :: values rest

/-- Redacts what stands under keys. -/
def entries : List (String × Value) → List (String × Value)
  | [] => []
  | (key, v) :: rest => (key, value v) :: entries rest

end

end CodeAtlas.Redaction
