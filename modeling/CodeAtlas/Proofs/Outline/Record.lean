import CodeAtlas.Outline.Record
import CodeAtlas.Proofs.Value.Json
import CodeAtlas.Proofs.Value.Timestamp
import CodeAtlas.Value.Checked
import CodeAtlas.Value.View

/-!
# Views that are read back

A view is exchanged as a value and stored as the text of that value. A reader that matches the view
finds in either what the view shows.

Symbols, imports, dependencies, functions, classes, measures and findings are exchanged and stored
as views. Each is read back with nothing lost, provided that its floating-point numbers are finite.

## Main results

`ReadsBack` for each sort of view, and `ReadsBack.stored` for the text that is stored.
`readsBack` for every part of an outline.

## Proof strategy

Every field of a record is found under its exchanged name, since the names of the others differ from
it; so a record is read back when its fields are (`readsBack_record`, `required_eq`,
`withDefault_eq`).
-/

namespace CodeAtlas.Decode

/-! ## Sorts of views -/

open Checked

variable {α : Type}

/-- A view can be stored, and what it shows is read from its exchanged value. -/
structure ReadsBack (decode : Value → Checked α) (view : View) (a : α) : Prop where
  storable : view.exchanged.Storable
  reads : decode view.exchanged = .ok a

/-- What a view shows is read from the text in which it is stored. -/
theorem ReadsBack.stored {decode : Value → Checked α} {view : View} {a : α}
    (back : ReadsBack decode view a) :
    (Json.parse? (String.ofList (Json.stored view.exchanged))).map decode = some (.ok a) := by
  rw [Json.parse?_stored back.storable, Option.map_some, back.reads]

/-! ### Single values -/

theorem readsBack_text (s : String) : ReadsBack text (.text s) s :=
  ⟨.text s, rfl⟩

theorem readsBack_int (n : Int) : ReadsBack int (.int n) n :=
  ⟨.int n, rfl⟩

theorem readsBack_real {x : Float} (finite : x.isFinite = true) : ReadsBack real (.real x) x :=
  ⟨.real finite, rfl⟩

theorem readsBack_time {t : Timestamp} (utc : t.IsUtc) : ReadsBack time (.time t) t :=
  ⟨.text t.text, time_text utc⟩

/-- A member is read by its word when no member before it has that word. -/
theorem readsBack_member {members : List α} {word : α → String} {a : α}
    (found : members.find? (fun m => word m == word a) = some a) (type name : String) :
    ReadsBack (member members word) (.member type name (word a)) a := by
  refine ⟨.text (word a), ?_⟩
  show member members word (.text (word a)) = .ok a
  rw [member, found]

/-! ### Options and lists -/

theorem readsBack_option {decode : Value → Checked α} {view : α → View} {o : Option α}
    (each : ∀ a ∈ o, ReadsBack decode (view a) a) (notNull : ∀ a, (view a).exchanged ≠ .null) :
    ReadsBack (optional decode) (.ofOption view o) o := by
  cases o with
  | none => exact ⟨.null, rfl⟩
  | some a =>
    obtain ⟨storable, reads⟩ := each a rfl
    refine ⟨storable, ?_⟩
    have unfolded : optional decode (view a).exchanged = (decode (view a).exchanged).map some := by
      have other := notNull a
      generalize (view a).exchanged = v at other
      cases v <;> first | rfl | exact absurd rfl other
    rw [View.ofOption, unfolded, reads]
    rfl

theorem exchanged_ofList (view : α → View) (as : List α) :
    (View.ofList view as).exchanged = .list (as.map fun a => (view a).exchanged) := by
  have items : View.itemValues Naming.toCamelCase (as.map view) =
      as.map fun a => (view a).exchanged := by
    induction as with
    | nil => rfl
    | cons a as ih => rw [List.map_cons, View.itemValues, ih]; rfl
  rw [View.ofList, View.exchanged, View.toValue, items]

theorem readsBack_list {decode : Value → Checked α} {view : α → View} {as : List α}
    (each : ∀ a ∈ as, ReadsBack decode (view a) a) :
    ReadsBack (list decode) (.ofList view as) as := by
  constructor <;> rw [exchanged_ofList]
  · refine .list fun v mem => ?_
    obtain ⟨a, isItem, rfl⟩ := List.mem_map.mp mem
    exact (each a isItem).storable
  · have all (n : Nat) : items.go decode n (as.map fun a => (view a).exchanged) = .ok as := by
      induction as generalizing n with
      | nil => rfl
      | cons a as ih =>
        rw [List.map_cons, items.go, (each a List.mem_cons_self).reads,
          ih fun b mem => each b (List.mem_cons_of_mem a mem)]
        rfl
    exact all 0

theorem readsBack_texts (words : List String) : ReadsBack (list text) (.texts words) words :=
  readsBack_list fun word _ => readsBack_text word

/-! ### Records -/

/-- The fields of a record have different names where they are exchanged. -/
def Different (fields : List (String × View)) : Prop :=
  (fields.map fun e => Naming.toCamelCase e.1).Nodup

/-- The fields of a record as they are exchanged. -/
def fieldsOf (fields : List (String × View)) : Fields :=
  ⟨.exchanged, View.entryValues Naming.toCamelCase Naming.toCamelCase fields⟩

theorem lookup_fieldsOf {fields : List (String × View)} (different : Different fields)
    {name : String} {view : View} (mem : (name, view) ∈ fields) :
    (fieldsOf fields).entries.lookup (Naming.toCamelCase name) = some view.exchanged := by
  induction fields with
  | nil => cases mem
  | cons e fields ih =>
    obtain ⟨first, v⟩ := e
    obtain ⟨fresh, different⟩ := List.nodup_cons.mp different
    have entries : (fieldsOf ((first, v) :: fields)).entries =
        (Naming.toCamelCase first, v.exchanged) :: (fieldsOf fields).entries := rfl
    rw [entries]
    obtain here | later := List.mem_cons.mp mem
    · obtain ⟨rfl, rfl⟩ := Prod.mk.inj here
      exact List.lookup_cons_self
    · have other : Naming.toCamelCase name ≠ Naming.toCamelCase first := by
        intro same
        exact fresh (List.mem_map.mpr ⟨(name, view), later, same⟩)
      rw [List.lookup_cons, beq_eq_false_iff_ne.mpr other]
      exact ih different later

section Fields

variable {fields : List (String × View)} (different : Different fields) {decode : Value → Checked α}

include different

theorem find?_fieldsOf {name : String} {view : View} (mem : (name, view) ∈ fields) :
    (fieldsOf fields).find? name = some (Naming.toCamelCase name, view.exchanged) := by
  have found := lookup_fieldsOf different mem
  simp only [Fields.find?, Fields.keyOf, fieldsOf, List.findSome?_cons] at found ⊢
  rw [found, Option.map_some]

/-- A field that has to be there is read. -/
theorem required_eq {name : String} {view : View} {a : α} (mem : (name, view) ∈ fields)
    (back : ReadsBack decode view a) : (fieldsOf fields).required name decode = .ok a := by
  rw [Fields.required, find?_fieldsOf different mem]
  simp only [back.reads]
  rfl

/-- A field with a value of its own is read all the same. -/
theorem withDefault_eq {name : String} {view : View} {default a : α} (mem : (name, view) ∈ fields)
    (back : ReadsBack decode view a) :
    (fieldsOf fields).withDefault name default decode = .ok a := by
  rw [Fields.withDefault, find?_fieldsOf different mem]
  simp only [back.reads]
  rfl

end Fields

/-- A record is read back when its fields have different names, can be stored and are read. -/
theorem readsBack_record {fields : List (String × View)} (names : List String)
    (same : fields.map Prod.fst = names) (nodup : (names.map Naming.toCamelCase).Nodup)
    (storable : ∀ e ∈ fields, e.2.exchanged.Storable) {decode : Fields → Checked α} {a : α}
    (reads : Different fields → decode (fieldsOf fields) = .ok a) (type : String) :
    ReadsBack (record .exchanged decode) (.record type fields) a := by
  have different : Different fields := by
    rwa [← same, List.map_map] at nodup
  refine ⟨?_, reads different⟩
  have entries : (fieldsOf fields).entries =
      fields.map fun e => (Naming.toCamelCase e.1, e.2.exchanged) := by
    clear same storable reads different
    induction fields with
    | nil => rfl
    | cons e fields ih => exact congrArg _ ih
  show Value.Storable (.object (fieldsOf fields).entries)
  rw [entries]
  refine .object (by rwa [List.map_map]) fun e mem => ?_
  obtain ⟨field, isField, rfl⟩ := List.mem_map.mp mem
  exact storable field isField

end CodeAtlas.Decode

namespace CodeAtlas

/-! ## Parts of an outline -/

open Decode

/-! ### Members of enumerations -/

theorem Language.readsBack (l : Language) : ReadsBack decode l.view l :=
  readsBack_member (by cases l <;> rfl) _ _

theorem SymbolKind.readsBack (k : SymbolKind) : ReadsBack decode k.view k :=
  readsBack_member (by cases k <;> rfl) _ _

theorem Origin.readsBack (o : Origin) : ReadsBack decode o.view o :=
  readsBack_member (by cases o <;> rfl) _ _

/-! ### Declarations -/

theorem Symbol.readsBack (s : Symbol) : ReadsBack decode s.view s := by
  have name := readsBack_text s.name
  have kind := s.kind.readsBack
  have line := readsBack_int s.line
  refine readsBack_record ["name", "kind", "line"] rfl (by decide +kernel) ?_
    (fun different => ?_) _
  · simp [name.storable, kind.storable, line.storable]
  · rw [required_eq different (by simp) name, required_eq different (by simp) kind,
      required_eq different (by simp) line]
    rfl

theorem ImportRef.readsBack (r : ImportRef) : ReadsBack decode r.view r := by
  have module := readsBack_text r.module
  have names := readsBack_texts r.names
  have line := readsBack_int r.line
  refine readsBack_record ["module", "names", "line"] rfl (by decide +kernel) ?_
    (fun different => ?_) _
  · simp [module.storable, names.storable, line.storable]
  · rw [required_eq different (by simp) module, withDefault_eq different (by simp) names,
      required_eq different (by simp) line]
    rfl

theorem Dependency.readsBack (d : Dependency) : ReadsBack decode d.view d := by
  have module := readsBack_text d.module
  have origin := d.origin.readsBack
  have line := readsBack_int d.line
  refine readsBack_record ["module", "type", "line"] rfl (by decide +kernel) ?_
    (fun different => ?_) _
  · simp [module.storable, origin.storable, line.storable]
  · rw [required_eq different (by simp) module, required_eq different (by simp) origin,
      required_eq different (by simp) line]
    rfl

theorem FunctionSpan.readsBack (s : FunctionSpan) : ReadsBack decode s.view s := by
  have name := readsBack_text s.name
  have startLine := readsBack_int s.startLine
  have endLine := readsBack_int s.endLine
  have complexity := readsBack_int s.complexity
  refine readsBack_record ["name", "start_line", "end_line", "complexity"] rfl
    (by decide +kernel) ?_ (fun different => ?_) _
  · simp [name.storable, startLine.storable, endLine.storable, complexity.storable]
  · rw [required_eq different (by simp) name, required_eq different (by simp) startLine,
      required_eq different (by simp) endLine, withDefault_eq different (by simp) complexity]
    rfl

theorem ClassSpan.readsBack (s : ClassSpan) : ReadsBack decode s.view s := by
  have name := readsBack_text s.name
  have startLine := readsBack_int s.startLine
  have endLine := readsBack_int s.endLine
  have methods := readsBack_texts s.methods
  refine readsBack_record ["name", "start_line", "end_line", "methods"] rfl
    (by decide +kernel) ?_ (fun different => ?_) _
  · simp [name.storable, startLine.storable, endLine.storable, methods.storable]
  · rw [required_eq different (by simp) name, required_eq different (by simp) startLine,
      required_eq different (by simp) endLine, withDefault_eq different (by simp) methods]
    rfl

/-! ### Measures and findings -/

/-- The measures that are no whole numbers are finite. -/
structure Complexity.IsFinite (c : Complexity) : Prop where
  maintainability : c.maintainability.isFinite = true
  commentRatio : c.commentRatio.isFinite = true

theorem Complexity.readsBack {c : Complexity} (finite : c.IsFinite) :
    ReadsBack decode c.view c := by
  have totalLines := readsBack_int c.totalLines
  have codeLines := readsBack_int c.codeLines
  have commentLines := readsBack_int c.commentLines
  have cyclomatic := readsBack_int c.cyclomatic
  have maintainability := readsBack_real finite.maintainability
  have commentRatio := readsBack_real finite.commentRatio
  refine readsBack_record ["total_lines", "code_lines", "comment_lines", "cyclomatic_complexity",
    "maintainability_index", "comment_ratio"] rfl (by decide +kernel) ?_ (fun different => ?_) _
  · simp [totalLines.storable, codeLines.storable, commentLines.storable, cyclomatic.storable,
      maintainability.storable, commentRatio.storable]
  · rw [withDefault_eq different (by simp) totalLines, withDefault_eq different (by simp) codeLines,
      withDefault_eq different (by simp) commentLines,
      withDefault_eq different (by simp) cyclomatic,
      withDefault_eq different (by simp) maintainability,
      withDefault_eq different (by simp) commentRatio]
    rfl

theorem Todo.readsBack (t : Todo) : ReadsBack decode t.view t := by
  have marker := readsBack_text t.marker
  have description := readsBack_text t.description
  have line := readsBack_int t.line
  refine readsBack_record ["marker", "description", "line"] rfl (by decide +kernel) ?_
    (fun different => ?_) _
  · simp [marker.storable, description.storable, line.storable]
  · rw [required_eq different (by simp) marker, required_eq different (by simp) description,
      required_eq different (by simp) line]
    rfl

/-- A confidence is finite when there is one. -/
def Signal.IsFinite (s : Signal) : Prop :=
  ∀ x ∈ s.confidence, x.isFinite = true

theorem Signal.readsBack {s : Signal} (finite : s.IsFinite) : ReadsBack decode s.view s := by
  have pattern := readsBack_text s.pattern
  have confidence : ReadsBack (optional real) (.ofOption .real s.confidence) s.confidence :=
    readsBack_option (fun x mem => readsBack_real (finite x mem)) fun x => nofun
  have occurrences : ReadsBack (optional int) (.ofOption .int s.occurrences) s.occurrences :=
    readsBack_option (fun n _ => readsBack_int n) fun n => nofun
  refine readsBack_record ["pattern", "confidence", "occurrences"] rfl (by decide +kernel) ?_
    (fun different => ?_) _
  · simp [pattern.storable, confidence.storable, occurrences.storable]
  · rw [required_eq different (by simp) pattern, withDefault_eq different (by simp) confidence,
      withDefault_eq different (by simp) occurrences]
    rfl

theorem Endpoint.readsBack (e : Endpoint) : ReadsBack decode e.view e := by
  have method := readsBack_text e.method
  have path := readsBack_text e.path
  have line := readsBack_int e.line
  refine readsBack_record ["method", "path", "line"] rfl (by decide +kernel) ?_
    (fun different => ?_) _
  · simp [method.storable, path.storable, line.storable]
  · rw [required_eq different (by simp) method, required_eq different (by simp) path,
      required_eq different (by simp) line]
    rfl

theorem DatabaseQuery.readsBack (q : DatabaseQuery) : ReadsBack decode q.view q := by
  have query := readsBack_text q.query
  have line := readsBack_int q.line
  refine readsBack_record ["query", "line"] rfl (by decide +kernel) ?_ (fun different => ?_) _
  · simp [query.storable, line.storable]
  · rw [required_eq different (by simp) query, required_eq different (by simp) line]
    rfl

/-- Every confidence among the findings is finite. -/
structure Findings.IsFinite (s : Findings) : Prop where
  design : ∀ hit ∈ s.design, hit.IsFinite
  security : ∀ hit ∈ s.security, hit.IsFinite
  performance : ∀ hit ∈ s.performance, hit.IsFinite
  diagnostic : ∀ hit ∈ s.diagnostic, hit.IsFinite

theorem Findings.readsBack {s : Findings} (finite : s.IsFinite) : ReadsBack decode s.view s := by
  have signals {hits : List Signal} (finite : ∀ hit ∈ hits, hit.IsFinite) :
      ReadsBack (Decode.list Signal.decode) (.ofList Signal.view hits) hits :=
    readsBack_list fun hit mem => Signal.readsBack (finite hit mem)
  have framework : ReadsBack (optional text) (.ofOption .text s.framework) s.framework :=
    readsBack_option (fun name _ => readsBack_text name) fun name => nofun
  have design := signals finite.design
  have security := signals finite.security
  have performance := signals finite.performance
  have diagnostic := signals finite.diagnostic
  have endpoints : ReadsBack (Decode.list Endpoint.decode) (.ofList Endpoint.view s.endpoints) _ :=
    readsBack_list fun e _ => e.readsBack
  have queries :
      ReadsBack (Decode.list DatabaseQuery.decode) (.ofList DatabaseQuery.view s.queries) _ :=
    readsBack_list fun q _ => q.readsBack
  have todos : ReadsBack (Decode.list Todo.decode) (.ofList Todo.view s.todos) _ :=
    readsBack_list fun t _ => t.readsBack
  refine readsBack_record ["framework", "design_patterns", "security_patterns",
    "performance_patterns", "diagnostic_patterns", "api_endpoints", "database_queries", "todos"] rfl
    (by decide +kernel) ?_ (fun different => ?_) _
  · simp [framework.storable, design.storable, security.storable, performance.storable,
      diagnostic.storable, endpoints.storable, queries.storable, todos.storable]
  · rw [withDefault_eq different (by simp) framework, withDefault_eq different (by simp) design,
      withDefault_eq different (by simp) security, withDefault_eq different (by simp) performance,
      withDefault_eq different (by simp) diagnostic, withDefault_eq different (by simp) endpoints,
      withDefault_eq different (by simp) queries, withDefault_eq different (by simp) todos]
    rfl

end CodeAtlas
