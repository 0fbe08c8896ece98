import CodeAtlas.Proofs.Outline.Attempt

/-!
# An outline stays within its content

The analysis of a content gives an outline, whatever the path, the configuration and the content, and
every line in the outline is a line of the content. A function or a class ends no sooner than it
starts, and the line where it starts contains its name.

## Main results

`Outline.attempt_within`: the analysis misses nothing and the outline is within the content.

## Proof strategy

`Attempt.outline_eq` settles that nothing is missing. The spans come from `Declared.Placed`; all
other lines are lines of offsets, but those of comments, which are counted, and those of exports, of
which the least is kept.
-/

namespace CodeAtlas

open Text

/-- A line of a content, counted from 1. -/
structure IsLine (content : List Char) (line : Int) : Prop where
  pos : 1 ≤ line
  le : line ≤ (lines content).length

/-- The lines of a declaration: some lines of a content, the first of which contains the name. -/
structure IsSpan (content : List Char) (name : String) (first last : Int) : Prop where
  pos : 1 ≤ first
  ordered : first ≤ last
  le : last ≤ (lines content).length
  named : ∃ line, (lines content)[(first - 1).toNat]? = some line ∧ name.toList <:+: line

/-- Whatever an outline reports stands on lines of the content. -/
structure Outline.Within (content : List Char) (o : Outline) : Prop where
  functions : ∀ f ∈ o.functions, IsSpan content f.name f.startLine f.endLine
  classes : ∀ c ∈ o.classes, IsSpan content c.name c.startLine c.endLine
  symbols : ∀ x ∈ o.symbols, IsLine content x.line
  imports : ∀ r ∈ o.imports, IsLine content r.line
  dependencies : ∀ d ∈ o.dependencies, IsLine content d.line
  comments : ∀ c ∈ o.comments, IsLine content c.line
  todos : ∀ t ∈ o.findings.todos, IsLine content t.line
  endpoints : ∀ e ∈ o.findings.endpoints, IsLine content e.line
  queries : ∀ q ∈ o.findings.queries, IsLine content q.line

namespace Outline

variable {content : List Char}

theorem isLine_lineOf (offset : Nat) : IsLine content (lineOf (lineStarts content) offset) :=
  ⟨by exact_mod_cast lineOf_pos, by exact_mod_cast lineOf_le⟩

theorem isLine_of_isSpan {name : String} {first last : Int} (span : IsSpan content name first last) :
    IsLine content first :=
  ⟨span.pos, Int.le_trans span.ordered span.le⟩

/-! ## Declarations -/

theorem Declared.Placed.isLine {d : Declared} (placed : d.Placed content) :
    IsLine content d.line :=
  ⟨by exact_mod_cast placed.line_pos, by exact_mod_cast placed.line_le⟩

theorem Declared.Placed.isSpan {d : Declared} (placed : d.Placed content) (g : Grammar) :
    IsSpan content d.name d.line (Extent.lastLine g (.of content) d.stop d.line) where
  pos := by exact_mod_cast placed.line_pos
  ordered := by exact_mod_cast (placed.lastLine_bounds g).1
  le := by exact_mod_cast (placed.lastLine_bounds g).2
  named := by
    obtain ⟨line, there, inside⟩ := placed.exists_line
    exact ⟨line, by rwa [show ((d.line : Int) - 1).toNat = d.line - 1 by omega], inside⟩

theorem isSpan_of_mem_functionsOf (language : Language) {f : FunctionSpan}
    (mem : f ∈ functionsOf (.ofLanguage language) (.of content)) :
    IsSpan content f.name f.startLine f.endLine := by
  obtain ⟨d, kept, rfl⟩ := List.mem_map.mp (List.mem_mergeSort.mp mem)
  exact (declared_placed (Grammar.functions_declare language)
    (List.mem_of_mem_filter kept)).isSpan _

theorem isSpan_of_mem_classesOf (language : Language) {functions : List FunctionSpan}
    {c : ClassSpan} (mem : c ∈ classesOf (.ofLanguage language) (.of content) functions) :
    IsSpan content c.name c.startLine c.endLine := by
  obtain ⟨d, found, rfl⟩ := List.mem_map.mp (List.mem_mergeSort.mp mem)
  exact (declared_placed (Grammar.classes_declare language) found).isSpan _

theorem isLine_of_mem_interfacesOf (language : Language) {d : Declared}
    (mem : d ∈ interfacesOf (.ofLanguage language) (.of content)) : IsLine content d.line :=
  (declared_placed (Grammar.interfaces_declare language) (List.mem_mergeSort.mp mem)).isLine

/-! ## Imports and exports -/

theorem isLine_of_mem_importsOf {g : Grammar} {m : Match} {r : ImportRef}
    (mem : r ∈ Names.importsOf g (lineStarts content) m) : IsLine content r.line := by
  unfold Names.importsOf at mem
  simp only at mem
  split at mem
  · obtain ⟨part, -, found⟩ := List.mem_filterMap.mp mem
    obtain ⟨module, -, rfl⟩ := Option.map_eq_some_iff.mp found
    exact isLine_lineOf _
  · split at mem
    · obtain ⟨quoted, -, rfl⟩ := List.mem_map.mp mem
      exact isLine_lineOf (_ + _)
    · obtain rfl := List.mem_singleton.mp mem
      exact isLine_lineOf _

theorem isLine_of_mem_imports {g : Grammar} {r : ImportRef}
    (mem : r ∈ Names.imports g content (lineStarts content)) : IsLine content r.line := by
  obtain ⟨p, -, mem⟩ := List.mem_flatMap.mp (List.mem_mergeSort.mp mem)
  obtain ⟨m, -, mem⟩ := List.mem_flatMap.mp mem
  exact isLine_of_mem_importsOf mem

theorem forall_noteLine {P : Nat → Prop} {seen : List (String × Nat)} {name : String} {line : Nat}
    (ofSeen : ∀ x ∈ seen, P x.2) (ofLine : P line) : ∀ x ∈ Names.noteLine seen name line, P x.2 := by
  intro x mem
  unfold Names.noteLine at mem
  split at mem
  · obtain ⟨⟨known, first⟩, before, rfl⟩ := List.mem_map.mp mem
    have ofFirst : P first := ofSeen _ before
    simp only
    split
    · rcases Nat.le_total first line with le | le
      · rwa [Nat.min_eq_left le]
      · rwa [Nat.min_eq_right le]
    · exact ofFirst
  · rcases List.mem_append.mp mem with mem | mem
    · exact ofSeen x mem
    · obtain rfl := List.mem_singleton.mp mem
      exact ofLine

/-- A property of the lines that are noted holds of the lines that are kept. -/
theorem forall_foldl_noteLine {P : Nat → Prop} {found seen : List (String × Nat)}
    (ofFound : ∀ x ∈ found, P x.2) (ofSeen : ∀ x ∈ seen, P x.2) :
    ∀ x ∈ found.foldl (fun seen (name, line) => Names.noteLine seen name line) seen, P x.2 := by
  induction found generalizing seen with
  | nil => exact ofSeen
  | cons noted found ih =>
    obtain ⟨ofNoted, ofFound⟩ := List.forall_mem_cons.mp ofFound
    exact ih ofFound (forall_noteLine ofSeen ofNoted)

theorem isLine_of_mem_exports {g : Grammar} {x : String × Nat}
    (mem : x ∈ Names.exports g content (lineStarts content)) : IsLine content x.2 := by
  refine forall_foldl_noteLine (P := fun line => IsLine content line) ?_ (by simp) x
    (List.mem_mergeSort.mp mem)
  intro noted mem
  obtain ⟨p, -, mem⟩ := List.mem_flatMap.mp mem
  obtain ⟨m, -, mem⟩ := List.mem_flatMap.mp mem
  obtain ⟨name, -, rfl⟩ := List.mem_map.mp mem
  exact isLine_lineOf _

/-! ## Comments -/

/-- The comments that were found, and the one that is open, start on lines up to the `n`th. -/
structure CommentsWithin (n : Nat) (state : Comments.State) : Prop where
  found : ∀ c ∈ state.found, 1 ≤ c.line ∧ c.line ≤ n
  block : ∀ b ∈ state.block, 1 ≤ b.startLine ∧ b.startLine ≤ n

theorem CommentsWithin.step {n number : Nat} {state : Comments.State} (g : Grammar)
    (within : CommentsWithin n state) (pos : 1 ≤ number) (le : number ≤ n) (raw : List Char) :
    CommentsWithin n (Comments.step g state number raw) := by
  have add {line : Nat} (lines : List (List Char)) (pos : 1 ≤ line) (le : line ≤ n) :
      ∀ c ∈ Comments.commentOf lines line :: state.found, 1 ≤ c.line ∧ c.line ≤ n :=
    List.forall_mem_cons.mpr ⟨⟨Int.ofNat_le.mpr pos, Int.ofNat_le.mpr le⟩, within.found⟩
  unfold Comments.step
  simp only
  split
  · next open_ =>
    obtain ⟨start, stop⟩ := within.block _ open_
    split
    · exact ⟨add _ start stop, by simp⟩
    · exact ⟨within.found, by simpa using ⟨start, stop⟩⟩
  · next closed =>
    split
    · exact within
    · split
      · exact ⟨add _ pos le, by simp [closed]⟩
      · split
        · exact within
        · split
          · exact ⟨add _ pos le, by simp [closed]⟩
          · exact ⟨within.found, by simpa using ⟨pos, le⟩⟩

theorem CommentsWithin.run {n : Nat} (g : Grammar) {state : Comments.State} {number : Nat}
    {lines : List (List Char)} (within : CommentsWithin n state) (pos : 1 ≤ number)
    (le : number + lines.length ≤ n + 1) : CommentsWithin n (Comments.run g state number lines) := by
  induction lines generalizing state number with
  | nil => exact within
  | cons line lines ih =>
    rw [List.length_cons] at le
    exact ih (within.step g pos (by omega) line) (by omega) (by omega)

theorem isLine_of_mem_ofLines {g : Grammar} {c : Comment}
    (mem : c ∈ (Comments.ofLines g (lines content)).1) : IsLine content c.line := by
  have within : CommentsWithin (lines content).length (Comments.run g {} 1 (lines content)) :=
    CommentsWithin.run g ⟨by simp, by simp⟩ (Nat.le_refl 1) (by omega)
  rw [Comments.ofLines, List.mem_reverse] at mem
  split at mem
  · next open_ =>
    rcases List.mem_cons.mp mem with rfl | mem
    · obtain ⟨pos, le⟩ := within.block _ open_
      exact ⟨Int.ofNat_le.mpr pos, Int.ofNat_le.mpr le⟩
    · obtain ⟨pos, le⟩ := within.found c mem
      exact ⟨pos, le⟩
  · obtain ⟨pos, le⟩ := within.found c mem
    exact ⟨pos, le⟩

/-! ## Signals -/

theorem isLine_of_mem_todos {t : Todo} (mem : t ∈ Comments.todos content (lineStarts content)) :
    IsLine content t.line := by
  obtain ⟨m, -, rfl⟩ := List.mem_map.mp mem
  exact isLine_lineOf _

theorem isLine_of_mem_endpoints {language : Language} {e : Endpoint}
    (mem : e ∈ Signals.endpoints content language (lineStarts content)) : IsLine content e.line := by
  obtain ⟨p, -, mem⟩ := List.mem_flatMap.mp (List.mem_mergeSort.mp mem)
  obtain ⟨m, -, rfl⟩ := List.mem_map.mp mem
  exact isLine_lineOf _

theorem isLine_of_mem_queries {language : Language} {q : DatabaseQuery}
    (mem : q ∈ Signals.queries content language (lineStarts content)) : IsLine content q.line := by
  obtain ⟨p, -, mem⟩ := List.mem_flatMap.mp (List.mem_mergeSort.mp mem)
  obtain ⟨m, -, rfl⟩ := List.mem_map.mp mem
  exact isLine_lineOf _

/-! ## The outline -/

theorem byGrammar_within (config : OutlineConfig) (path : String) (language : Language)
    (content : List Char) :
    (byGrammar config (.ofLanguage language) path language content).Within content where
  functions _ mem := isSpan_of_mem_functionsOf language mem
  classes _ mem := isSpan_of_mem_classesOf language mem
  symbols x mem := by
    have mem := List.mem_mergeSort.mp mem
    simp only [List.mem_append, List.mem_map] at mem
    obtain (((⟨f, found, rfl⟩ | ⟨c, found, rfl⟩) | ⟨d, found, rfl⟩) | ⟨r, found, rfl⟩) |
      ⟨e, found, rfl⟩ := mem
    · exact isLine_of_isSpan (isSpan_of_mem_functionsOf language found)
    · exact isLine_of_isSpan (isSpan_of_mem_classesOf language found)
    · exact isLine_of_mem_interfacesOf language found
    · exact isLine_of_mem_imports found
    · exact isLine_of_mem_exports found
  imports _ mem := isLine_of_mem_imports mem
  dependencies d mem := by
    obtain ⟨r, found, rfl⟩ := List.mem_map.mp mem
    exact isLine_of_mem_imports found
  comments _ mem := isLine_of_mem_ofLines mem
  todos _ mem := isLine_of_mem_todos mem
  endpoints _ mem := isLine_of_mem_endpoints mem
  queries _ mem := isLine_of_mem_queries mem

theorem analyze_within (config : OutlineConfig) (path content : String) :
    (analyze config path content).Within content.toList := by
  unfold analyze
  simp only
  split
  · constructor <;> simp [empty]
    exact fun _ mem => isLine_of_mem_todos mem
  · exact byGrammar_within config path _ content.toList

/-- The analysis of any content under any path and configuration misses nothing, and its outline is
within the content. -/
theorem attempt_within (config : OutlineConfig) (path content : String) :
    ∃ o, Attempt.outline config path content = .ok o ∧ o = analyze config path content ∧
      o.Within content.toList :=
  ⟨_, Attempt.outline_eq config path content, rfl, analyze_within config path content⟩

end Outline

end CodeAtlas
