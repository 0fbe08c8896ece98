import CodeAtlas.Outline.Grammar
import CodeAtlas.Text.Basic

/-!
Whole-line comments and to-dos. A line is a comment when it starts with a comment mark or lies in a
block comment that starts a line; a comment after code is not counted.
-/

namespace CodeAtlas

namespace Comments

open Pattern Text

/-- Comments are cut to this many characters. -/
def maxLength : Nat := 500

/-- A block comment that is open: what closes it, its lines so far (latest first), and where it
started. -/
structure OpenBlock where
  closer : List Char
  lines : List (List Char)
  startLine : Nat

/-- The comments found so far (latest first), how many lines they take, and the open block. -/
structure State where
  found : List Comment := []
  count : Nat := 0
  block : Option OpenBlock := none

/-- A comment of some lines. -/
def commentOf (lines : List (List Char)) (line : Nat) : Comment :=
  ⟨String.ofList ((joinWith ['\n'] lines).take maxLength), line⟩

/-- Takes one line into account. -/
def step (g : Grammar) (state : State) (number : Nat) (raw : List Char) : State :=
  let line := trim raw
  match state.block with
  | some block =>
    let block := { block with lines := line :: block.lines }
    let state := { state with count := state.count + 1 }
    if Text.occursIn block.closer line then
      { state with
        found := commentOf block.lines.reverse block.startLine :: state.found
        block := none }
    else { state with block := some block }
  | none =>
    if line.isEmpty then state
    else if g.lineComments.any (·.toList.isPrefixOf line) then
      { state with count := state.count + 1, found := commentOf [line] number :: state.found }
    else
      match g.blockComments.find? fun (opener, _) => opener.toList.isPrefixOf line with
      | none => state
      | some (opener, closer) =>
        let state := { state with count := state.count + 1 }
        if Text.occursIn closer.toList (line.drop opener.length) then
          { state with found := commentOf [line] number :: state.found }
        else { state with block := some ⟨closer.toList, [line], number⟩ }

/-- Takes lines into account, the first of which has this number. -/
def run (g : Grammar) (state : State) (number : Nat) : List (List Char) → State
  | [] => state
  | line :: rest => run g (step g state number line) (number + 1) rest

/-- The comments in order and the number of lines they take. A block that is never closed is a
comment too. -/
def ofLines (g : Grammar) (lines : List (List Char)) : List Comment × Nat :=
  let state := run g {} 1 lines
  let found := match state.block with
    | some block => commentOf block.lines.reverse block.startLine :: state.found
    | none => state.found
  (found.reverse, state.count)

/-- A marker with a colon and what is to be done. -/
def todo : Pattern :=
  boundary ++ capture "marker" (anyText ["TODO", "FIXME", "HACK", "NOTE", "BUG"]) ++
    optional (text "(" ++ run0 (fun c => c != ')' && c != '\n') ++ text ")") ++ text ":" ++
    Grammar.blank0 ++ capture "description" (run1 (· != '\n'))

/-- The to-dos of a content. -/
def todos (content : List Char) (starts : List Nat) : List Todo :=
  (todo.findAll content).map fun m =>
    ⟨String.ofList ((m.groupText? "marker").getD []),
      String.ofList (trim ((m.groupText? "description").getD [])), lineOf starts m.offset⟩

end Comments

end CodeAtlas
