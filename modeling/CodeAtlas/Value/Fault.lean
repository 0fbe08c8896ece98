import CodeAtlas.Value.Basic

/-!
Readings of values: what was read, or every issue that stands in the way, each with its fault and
the place where it lies.
-/

namespace CodeAtlas

/-- A step from a value to a part of it. -/
inductive Step where
  | field (name : String)
  | index (n : Nat)
  deriving DecidableEq

/-- What can be wrong with a value. -/
inductive Fault where
  | missing
  | notARecord
  | notText
  | notUnicode
  | notList
  | notMapping
  | notInt
  | unreadableInt
  | oversizedInt
  | fractionalInt
  | notFinite
  | notReal
  | unreadableReal
  | notBool
  | unreadableBool
  | notAMember
  | notTime
  | unreadableTime
  | impossibleTime
  | unknownTag
  | noTag
  | otherLiteral
  | notAnObject
  | tooSmall
  | notAbove
  | tooLarge
  | notBelow
  deriving DecidableEq

/-- The word for a fault. -/
def Fault.word : Fault → String
  | .missing => "missing"
  | .notARecord => "model_type"
  | .notText => "string_type"
  | .notUnicode => "string_unicode"
  | .notList => "list_type"
  | .notMapping => "dict_type"
  | .notInt => "int_type"
  | .unreadableInt => "int_parsing"
  | .oversizedInt => "int_parsing_size"
  | .fractionalInt => "int_from_float"
  | .notFinite => "finite_number"
  | .notReal => "float_type"
  | .unreadableReal => "float_parsing"
  | .notBool => "bool_type"
  | .unreadableBool => "bool_parsing"
  | .notAMember => "enum"
  | .notTime => "datetime_type"
  | .unreadableTime => "datetime_from_date_parsing"
  | .impossibleTime => "datetime_parsing"
  | .unknownTag => "union_tag_invalid"
  | .noTag => "union_tag_not_found"
  | .otherLiteral => "literal_error"
  | .notAnObject => "model_attributes_type"
  | .tooSmall => "greater_than_equal"
  | .notAbove => "greater_than"
  | .tooLarge => "less_than_equal"
  | .notBelow => "less_than"

/-- A fault and where it lies. -/
structure Issue where
  path : List Step
  fault : Fault
  deriving DecidableEq

/-- A read value, or everything that is wrong with it. -/
inductive Checked (α : Type) where
  | ok (a : α)
  | bad (issues : List Issue)

namespace Checked

/-- Applies a function to what was read. -/
def map (f : α → β) : Checked α → Checked β
  | ok a => ok (f a)
  | bad issues => bad issues

/-- Joins two readings; the issues of both are kept, in order. -/
def seq (f : Checked (α → β)) (x : Unit → Checked α) : Checked β :=
  match f, x () with
  | ok f, ok a => ok (f a)
  | ok _, bad issues => bad issues
  | bad issues, ok _ => bad issues
  | bad issues, bad more => bad (issues ++ more)

instance : Applicative Checked where
  pure := ok
  seq := seq

/-- A single fault here. -/
def fail (fault : Fault) : Checked α :=
  bad [⟨[], fault⟩]

/-- The same with every issue one step deeper. -/
def under (step : Step) : Checked α → Checked α
  | ok a => ok a
  | bad issues => bad (issues.map fun issue => { issue with path := step :: issue.path })

/-- Goes on only when nothing is wrong so far. -/
def andThen (x : Checked α) (f : α → Checked β) : Checked β :=
  match x with
  | ok a => f a
  | bad issues => bad issues

/-- What was read, when nothing is wrong. -/
def toOption : Checked α → Option α
  | ok a => some a
  | bad _ => none

/-- Reads every item, gathering the issues of all. -/
def items (decode : Value → Checked α) (values : List Value) : Checked (List α) :=
  go 0 values
where
  /-- The first value has this index. -/
  go (n : Nat) : List Value → Checked (List α)
    | [] => ok []
    | v :: rest => List.cons <$> under (.index n) (decode v) <*> go (n + 1) rest

end Checked

end CodeAtlas
