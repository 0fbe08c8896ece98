import CodeAtlas.Context.Basic
import CodeAtlas.Outline.Signals
import CodeAtlas.Sorting

/-!
Looking at a context with a focus: code that fits the focus becomes more relevant, and test files
are left out unless they are asked for. Scores are of any type with an order and a product.
-/

namespace CodeAtlas

namespace TestPath

/-- The text ends so, perhaps before a last newline. -/
def endsIn (tail text : List Char) : Bool :=
  tail.isSuffixOf text || (tail ++ ['\n']).isSuffixOf text

/-- What follows each occurrence of `part`. -/
def restsAfter (part : List Char) : List Char → List (List Char)
  | [] => []
  | c :: rest =>
    let later := restsAfter part rest
    match Text.dropStart? part (c :: rest) with
    | some after => after :: later
    | none => later

/-- The last name has a part that marks it: `.test.` or `.spec.` with something after it. -/
def hasMarkedName (path : List Char) : Bool :=
  [".test.", ".spec."].any fun mark =>
    (restsAfter mark.toList path).any fun rest => !rest.isEmpty && !rest.contains '/'

/-- The last name starts with `test_` and ends in `.py`. -/
def isTestModule (path : List Char) : Bool :=
  match Text.dropStart? "test_".toList (Text.afterLast '/' path) with
  | some rest => endsIn ".py".toList rest
  | none => false

end TestPath

/-- The path follows a usual convention for test files. -/
def isTestPath (relativePath : String) : Bool :=
  let slashed := relativePath.toList.map fun c => if c == '\\' then '/' else c
  let path := '/' :: Text.dropLeading '/' slashed
  TestPath.hasMarkedName path ||
    ["/test/", "/tests/", "__tests__"].any (fun part => Text.occursIn part.toList path) ||
    TestPath.isTestModule path ||
    ["_test.py", "_test.go"].any fun tail => TestPath.endsIn tail.toList path

namespace FocusArea

/-- Code from this complexity on is worth refactoring. -/
def complexityThreshold : Int := 10

/-- The chunk of a file fits the focus. -/
def fits (focus : FocusArea) (relativePath : String) (signals : ChunkSignals) : Bool :=
  match focus with
  | general => false
  | debugging =>
    signals.diagnosticPatterns.any [Signals.errorHandling, Signals.logging].contains
  | refactoring =>
    decide (complexityThreshold ≤ signals.complexity) || !signals.designPatterns.isEmpty
  | testing => isTestPath relativePath

end FocusArea

namespace SimilarEntry

variable {κ : Type} [Mul κ] [LT κ] [DecidableLT κ] [OfNat κ 0]

/-- A positive likeness times a boost; another one would only fall behind. -/
def boosted (boost similarity : κ) : κ :=
  if 0 < similarity then similarity * boost else similarity

/-- The entry with its relevance for a focus. -/
def weighed (focus : FocusArea) (boost : κ) (e : SimilarEntry κ) : SimilarEntry κ :=
  { e with
    relevance :=
      if focus.fits e.relativePath e.signals then boosted boost e.similarity else e.similarity }

end SimilarEntry

namespace Bundle

/-- The boost where nothing else is said. -/
def defaultBoost : Float := 1.25

variable {κ : Type} [Mul κ] [LT κ] [DecidableLT κ] [LE κ] [DecidableLE κ] [OfNat κ 0]

/-- The most relevant first, as comparisons leave them, from the last one on. -/
def asCompared (entries : List (SimilarEntry κ)) : List (SimilarEntry κ) :=
  let before? (a b : SimilarEntry κ) := some (decide (a.relevance < b.relevance))
  ((Sorting.byHalving? before? entries.reverse).map List.reverse).getD entries

/-- The most relevant first; what is equally relevant keeps its order. A relevance that is not even
as large as itself stands where the comparisons leave it. -/
def byRelevance (entries : List (SimilarEntry κ)) : List (SimilarEntry κ) :=
  if entries.all fun e => decide (e.relevance ≤ e.relevance) then
    entries.mergeSort fun a b => !decide (a.relevance < b.relevance)
  else asCompared entries

/-- Test files before the others. -/
def testsFirst (entries : List RelatedFile) : List RelatedFile :=
  entries.filter (fun r => isTestPath r.relativePath) ++
    entries.filter (fun r => !isTestPath r.relativePath)

/-- Without the entries in test files. -/
def withoutTests (b : Bundle κ) : Bundle κ :=
  { b with
    relatedFiles := b.relatedFiles.filter fun r => !isTestPath r.relativePath
    similarCode := b.similarCode.filter fun e => !isTestPath e.relativePath }

/-- The context as a focus sees it. A focus on tests includes them and puts them first. -/
def focused (focus : FocusArea) (includeTests : Bool) (boost : κ) (b : Bundle κ) : Bundle κ :=
  let b := { b with similarCode := byRelevance (b.similarCode.map (·.weighed focus boost)) }
  if focus == .testing then { b with relatedFiles := testsFirst b.relatedFiles }
  else if includeTests then b
  else b.withoutTests

end Bundle

end CodeAtlas
