import CodeAtlas.Pattern.Basic

/-!
Finding a pattern in a text: at the first place, at every place without overlap, over the whole
text, and putting another text in its place.
-/

namespace CodeAtlas

/-- A match: the stretch it covers and what it recorded. -/
structure Match where
  span : Span
  captures : Captures

namespace Match

/-- The matched text. -/
def text (m : Match) : List Char :=
  m.span.text

/-- Where the match starts. -/
def offset (m : Match) : Nat :=
  m.span.start.offset

/-- The stretch recorded under a name, if any was. -/
def group? (m : Match) (name : String) : Option Span :=
  m.captures.lookup name

/-- The text recorded under a name. -/
def groupText? (m : Match) (name : String) : Option (List Char) :=
  (m.group? name).map Span.text

end Match

namespace Pattern

/-- The match that starts at a cursor. -/
def matchAt? (p : Pattern) (c : Cursor) : Option Match :=
  (p.match? (fun stop captures => some (stop, captures)) c []).map fun (stop, captures) =>
    ⟨⟨c, stop⟩, captures⟩

/-- The first match in a text. -/
def find? (p : Pattern) (s : List Char) : Option Match :=
  go none 0 s
where
  /-- Tries each place in turn. -/
  go (before : Option Char) (offset : Nat) (rest : List Char) : Option Match :=
    match p.matchAt? ⟨before, rest, offset⟩ with
    | some found => some found
    | none =>
      match rest with
      | [] => none
      | c :: rest => go (some c) (offset + 1) rest

/-- All matches from left to right. The search goes on where the last match ended, one character
later when it was empty. -/
def findAll (p : Pattern) (s : List Char) : List Match :=
  go none 0 0 s
where
  /-- `skip` more characters belong to the last match. -/
  go (before : Option Char) (offset skip : Nat) : List Char → List Match
    | [] =>
      match skip with
      | 0 => (p.matchAt? ⟨before, [], offset⟩).toList
      | _ + 1 => []
    | c :: rest =>
      match skip with
      | skip + 1 => go (some c) (offset + 1) skip rest
      | 0 =>
        match p.matchAt? ⟨before, c :: rest, offset⟩ with
        | none => go (some c) (offset + 1) 0 rest
        | some found =>
          found :: go (some c) (offset + 1) (found.span.stop.offset - offset - 1) rest

/-- How many matches there are. -/
def count (p : Pattern) (s : List Char) : Nat :=
  (p.findAll s).length

/-- Some place matches. -/
def occursIn (p : Pattern) (s : List Char) : Bool :=
  (p.find? s).isSome

/-- The whole text matches. -/
def matchesAll (p : Pattern) (s : List Char) : Bool :=
  (p.match? (fun stop captures => if stop.rest.isEmpty then some (stop, captures) else none)
    (Cursor.start s) []).isSome

/-- The text with every match replaced. -/
def replaceAll (p : Pattern) (render : Match → List Char) (s : List Char) : List Char :=
  go none 0 0 s
where
  /-- `skip` more characters belong to the last match. -/
  go (before : Option Char) (offset skip : Nat) : List Char → List Char
    | [] =>
      match skip with
      | 0 => ((p.matchAt? ⟨before, [], offset⟩).map render).getD []
      | _ + 1 => []
    | c :: rest =>
      match skip with
      | skip + 1 => go (some c) (offset + 1) skip rest
      | 0 =>
        match p.matchAt? ⟨before, c :: rest, offset⟩ with
        | none => c :: go (some c) (offset + 1) 0 rest
        | some found =>
          let length := found.span.stop.offset - offset
          if length == 0 then render found ++ c :: go (some c) (offset + 1) 0 rest
          else render found ++ go (some c) (offset + 1) (length - 1) rest

end Pattern

end CodeAtlas
