import CodeAtlas.Proofs.Index.History
import Mathlib.Data.List.Forall2

/-!
# Failed writes

A write of an index that comes to a statement at which the storage fails leaves no trace, and called
again it does what it would have done the first time. Only the times of the written rows can differ.

## Main results

`IndexWrite.run_alike`: what a write does depends on the tables alone, up to the time.
`IndexWrite.run_atomic`: for every index that calls can lead to, every write, and every statement
that it comes to.
-/

namespace CodeAtlas

/-- The row, had it been written at another time. -/
def FileRow.stampedAt (r : FileRow) (time : Timestamp) : FileRow :=
  { r with indexedAt := time, record := { r.record with indexedAt := time } }

/-- The row, had it been saved at another time. -/
def WorkspaceRow.stampedAt (w : WorkspaceRow) (time : Timestamp) : WorkspaceRow :=
  { w with lastIndexedAt := time }

namespace Tables

/-- The tables `t'` are those of `t`, but for rows written at one time in `t` and at another in
`t'`. -/
structure Alike (now now' : Timestamp) (t t' : Tables) : Prop where
  files : List.Forall₂ (fun r r' => r' = r ∨ (r.indexedAt = now ∧ r' = r.stampedAt now'))
    t.files t'.files
  workspaces : List.Forall₂ (fun w w' => w' = w ∨ (w.lastIndexedAt = now ∧ w' = w.stampedAt now'))
    t.workspaces t'.workspaces
  chunks : t'.chunks = t.chunks
  symbols : t'.symbols = t.symbols
  nextId : t'.nextId = t.nextId

variable {t : Tables} {now now' : Timestamp}

theorem Alike.refl (t : Tables) : t.Alike now now' t where
  files := List.forall₂_same.mpr fun _ _ => .inl rfl
  workspaces := List.forall₂_same.mpr fun _ _ => .inl rfl
  chunks := rfl
  symbols := rfl
  nextId := rfl

theorem rowFor_stampedAt (f : IndexedFile) (now now' : Timestamp) :
    t.rowFor f now' = (t.rowFor f now).stampedAt now' := by
  simp only [rowFor]
  split <;> rfl

/-- Two lists made of one list item by item are related when the items are. -/
private theorem forall₂_maps {α β : Type} {R : β → β → Prop} {f g : α → β} {l : List α}
    (related : ∀ x ∈ l, R (f x) (g x)) : List.Forall₂ R (l.map f) (l.map g) :=
  List.forall₂_map_left_iff.mpr (List.forall₂_map_right_iff.mpr (List.forall₂_same.mpr related))

/-- Two lists that are longer by one item each. -/
private theorem forall₂_concat {α : Type} {R : α → α → Prop} {l : List α} {x y : α}
    (same : ∀ z ∈ l, R z z) (last : R x y) : List.Forall₂ R (l ++ [x]) (l ++ [y]) :=
  List.rel_append (List.forall₂_same.mpr same) (.cons last .nil)

/-- A file written at two times. -/
theorem alike_put (f : IndexedFile) (chunks : List IndexedChunk) :
    (t.put (t.rowFor f now) chunks).Alike now now' (t.put (t.rowFor f now') chunks) := by
  have time : (t.rowFor f now).indexedAt = now := rowFor_indexedAt
  rw [rowFor_stampedAt f now now']
  generalize t.rowFor f now = row at time
  have parts : SymbolRow.ofRecord row.id (row.stampedAt now').record =
      SymbolRow.ofRecord row.id row.record := rfl
  constructor
  · simp only [put, putRow, replaceFile, show (row.stampedAt now').id = row.id from rfl]
    split
    · refine forall₂_maps fun r _ => ?_
      split
      · exact .inr ⟨time, rfl⟩
      · exact .inl rfl
    · exact forall₂_concat (fun _ _ => .inl rfl) (.inr ⟨time, rfl⟩)
  · rw [put_workspaces, put_workspaces]
    exact List.forall₂_same.mpr fun _ _ => .inl rfl
  · rfl
  · simp only [put, show (row.stampedAt now').id = row.id from rfl, parts]
  · simp only [put, putRow, show (row.stampedAt now').id = row.id from rfl]
    split <;> rfl

/-- A structure saved at two times. -/
theorem alike_putWorkspace (owner path : String) (found : ProjectStructure) :
    (t.putWorkspace ⟨owner, path, found, now⟩).Alike now now'
      (t.putWorkspace ⟨owner, path, found, now'⟩) := by
  simp only [putWorkspace]
  split
  · refine { Alike.refl t with workspaces := forall₂_maps fun w _ => ?_ }
    split
    · exact .inr ⟨rfl, rfl⟩
    · exact .inl rfl
  · exact { Alike.refl t with
      workspaces := forall₂_concat (fun _ _ => .inl rfl) (.inr ⟨rfl, rfl⟩) }

end Tables

namespace IndexWrite

open Index Tables

variable {t : Tables} {now now' : Timestamp}

/-- The answer of a write does not depend on the time. -/
theorem plan_answer (w : IndexWrite) (now now' : Timestamp) : (w.plan t now').2 = (w.plan t now).2 := by
  cases w with
  | file f chunks force => simp only [plan, fileActions_answer]
  | removal owner workspace live => rfl
  | structure_ owner workspace found => rfl

/-- What a write does at two times is the same, up to the time; so are its refusals. -/
theorem result_alike (sound : t.Sound) (w : IndexWrite) (now now' : Timestamp) :
    (∃ made made', Action.result (w.plan t now).1 t = .ok made ∧
      Action.result (w.plan t now').1 t = .ok made' ∧ made.Alike now now' made') ∨
    ∃ refusal, Action.result (w.plan t now).1 t = .error refusal ∧
      Action.result (w.plan t now').1 t = .error refusal := by
  cases w with
  | file f chunks force =>
    rw [result_file sound, result_file sound]
    split
    · exact .inl ⟨t, t, rfl, rfl, .refl t⟩
    · split
      · exact .inl ⟨_, _, rfl, rfl, alike_put f chunks⟩
      · exact .inr ⟨_, rfl, rfl⟩
  | removal owner workspace live =>
    rw [result_removal, result_removal]
    exact .inl ⟨_, _, rfl, rfl, .refl _⟩
  | structure_ owner workspace found =>
    rw [result_structure, result_structure]
    exact .inl ⟨_, _, rfl, rfl, alike_putWorkspace owner workspace found⟩

/-- When the storage works, a write answers and does the same on indices with the same tables, up to
the time. -/
theorem run_alike (w : IndexWrite) {ix ix' : Index} (settled : ix.Settled)
    (settled' : ix'.Settled) (same : ix'.tables = ix.tables) :
    (w.run Faults.none ix').1 = (w.run Faults.none ix).1 ∧
      (w.run Faults.none ix).2.tables.Alike ix.now ix'.now (w.run Faults.none ix').2.tables := by
  have calm := write_calm w.operation w.plan settled.opened settled.unbegun
  have calm' := write_calm w.operation w.plan settled'.opened settled'.unbegun
  rw [same] at calm'
  rw [run_eq_write, run_eq_write]
  rcases w.result_alike settled.sound ix.now ix'.now with
    ⟨made, made', done, done', alike⟩ | ⟨refusal, refused, refused'⟩
  · rw [done] at calm
    rw [done'] at calm'
    rw [calm, calm', plan_answer w ix.now]
    exact ⟨rfl, alike⟩
  · rw [refused] at calm
    rw [refused'] at calm'
    obtain ⟨moved, calm⟩ := calm
    obtain ⟨moved', calm'⟩ := calm'
    rw [calm, calm']
    exact ⟨rfl, .refl ix.tables⟩

/-- A write fails at the first of its statements at which the storage fails. It leaves the tables as
they were and nothing under way, and called again at any time it does what it would have done. -/
theorem run_atomic (clock : Int) (calls : List IndexCall) (w : IndexWrite) {faults : Faults}
    (undoable : faults.Undoable) {k : Nat} {statement : Statement}
    (reached : (statementsOf w.plan (replay clock calls).2)[k]? = some statement)
    (raised : (faults k statement).isSome) :
    let before := (replay clock calls).2
    let failed := w.run faults before
    (∃ j ≤ k, ∃ first reason, (statementsOf w.plan before)[j]? = some first ∧
      faults j first = some reason ∧ failed.1 = .error (writeFailure w.operation reason)) ∧
    failed.2.tables = before.tables ∧ failed.2.begun = none ∧ failed.2.isOpen = true ∧
    ∀ later, let again := { failed.2 with clock := later }
      (w.run Faults.none again).1 = (w.run Faults.none before).1 ∧
      (w.run Faults.none again).2.begun = none ∧
      (w.run Faults.none before).2.tables.Alike before.now again.now
        (w.run Faults.none again).2.tables := by
  intro before failed
  have settled : before.Settled := replay_settled clock calls
  obtain ⟨j, early, first, found, reason, fault, moved, ran⟩ :=
    write_faulted w.operation undoable settled.opened settled.unbegun reached raised
  have ran : failed = (.error (writeFailure w.operation reason),
      { before with clock := before.clockAfter moved }) := (run_eq_write w faults before).trans ran
  rw [ran]
  refine ⟨⟨j, early, first, reason, found, fault, rfl⟩, rfl, settled.unbegun, settled.opened,
    fun later => ?_⟩
  obtain ⟨answer, alike⟩ := w.run_alike settled (settled.later later) rfl
  exact ⟨answer, (w.run_cases Faults.none_undoable (settled.later later)).1.unbegun, alike⟩

/-- An indexed file is written again with two chunks, the second of which cannot be inserted. -/
theorem run_atomic_bulkInsert :
    let chunk : IndexedChunk := {
      kind := .function, name := "run", startLine := 1, endLine := 1
      content := "def run(): pass", contentHash := ""
      embedding := ⟨.fallback, [], Embedding.fallbackModel⟩ }
    let f : IndexedFile := {
      owner := "o", workspace := "/w", path := "/w/a.py", relativePath := "a.py", name := "a.py"
      extension := "py", language := .python, content := "def run(): pass", contentHash := ""
      indexedAt := Timestamp.ofMicros 0 }
    let first : IndexCall := ⟨.file f [chunk] false, Faults.none, Faults.none_undoable, 0⟩
    let faults : Faults := fun k statement => match statement with
      | .insertChunks => if k = 5 then some "disk I/O error" else none
      | _ => none
    let failed := (file f [chunk, chunk] true).run faults (replay 0 [first]).2
    (∃ reason, failed.1 = .error (writeFailure "upsert" reason)) ∧
      failed.2.tables = (replay 0 [first]).2.tables := by
  intro chunk f first faults failed
  obtain ⟨⟨_, _, _, reason, _, _, refused⟩, kept, _⟩ :=
    run_atomic 0 [first] (file f [chunk, chunk] true) (fun _ => rfl : faults.Undoable) (k := 5) rfl
      rfl
  exact ⟨⟨reason, refused⟩, kept⟩

end IndexWrite

end CodeAtlas
