import CodeAtlas.Proofs.Embedding.Reply
import CodeAtlas.Proofs.Number.Order

/-!
# The order of the items of a reply

The items of a reply say which text they are for. In whatever order they come, a client gives the
vectors in the order of the texts.

## Main results

`EmbeddingClient.embed_permuted`.

## Proof strategy

The places of the items are whole numbers, so the sort puts the items in order by them
(`Sorting.byHalving?_some`). As no two items have the same place, there is only one such order.
-/

namespace CodeAtlas

open Number

theorem mapM_eq_pure {m : Type → Type} [Monad m] [LawfulMonad m] {α β : Type} {f : α → m β}
    {g : α → β} {xs : List α} (each : ∀ x ∈ xs, f x = pure (g x)) :
    xs.mapM f = pure (xs.map g) := by
  induction xs with
  | nil => rfl
  | cons x xs ih =>
    obtain ⟨first, others⟩ := List.forall_mem_cons.mp each
    rw [List.mapM_cons, first, pure_bind, ih others, pure_bind, List.map_cons]

namespace Placing

/-- The whole number that a place is. -/
def index : Value → ℤ
  | .int n => n
  | _ => 0

theorem before?_int (m n : ℤ) : before? (.int m) (.int n) = some (decide (m < n)) := by
  simp [before?, Value.number?, Scalar.whole_lt_whole]

/-- Items at the places from zero on come out in the order of their places. -/
theorem sort?_perm {α : Type} {n : ℕ} {item : ℕ → α} {placed : List (Value × α)}
    (perm : placed.Perm ((List.range n).map fun i : ℕ => (.int i, item i))) :
    sort? placed = some ((List.range n).map fun i : ℕ => (.int i, item i)) := by
  let among (p : Value × α) : Prop := ∃ i : ℕ, p = (.int i, item i)
  have compares : Sorting.ComparesBy (fun a b : Value × α => before? a.1 b.1)
      (fun p => index p.1) among := by
    rintro _ _ ⟨i, rfl⟩ ⟨j, rfl⟩
    exact before?_int i j
  have all : ∀ p ∈ placed, among p := by
    intro p member
    obtain ⟨i, -, rfl⟩ := List.mem_map.mp (perm.mem_iff.mp member)
    exact ⟨i, rfl⟩
  obtain ⟨out, sorted, same, ordered⟩ := Sorting.byHalving?_some compares all
  have target : Sorting.Ordered (fun p => index p.1)
      ((List.range n).map fun i : ℕ => ((.int i : Value), item i)) := by
    refine List.pairwise_map.mpr (List.pairwise_lt_range.imp fun {i j} less => ?_)
    exact Int.ofNat_le.mpr less.le
  rw [sort?, sorted]
  refine congrArg some (List.Perm.eq_of_pairwise ?_ ordered target (same.trans perm))
  -- Two items with the same place are one.
  intro a b member member' le ge
  obtain ⟨i, rfl⟩ := all a (same.mem_iff.mp member)
  obtain ⟨j, -, rfl⟩ := List.mem_map.mp member'
  obtain rfl : i = j := Int.ofNat_inj.mp (le_antisymm le ge)
  rfl

end Placing

namespace Reply

/-- A number as a reply writes it, and the component that is meant. -/
inductive Writes : Value → Float → Prop
  | real (x : Float) : Writes (.real x) x
  | whole {n : ℤ} {x : Float} (near : (Scalar.whole n).toFloat? = .ok x) : Writes (.int n) x

/-- An item for the text at a place, with its vector number by number. Whatever else it says does
not matter. -/
structure IsItem (place : ℕ) (v : List Float) (item : Value) : Prop where
  place : item.get? "index" = some (.int place)
  numbers : ∃ numbers, item.get? "embedding" = some (.list numbers) ∧
    List.Forall₂ Writes numbers v

theorem component_of_writes {c : Value} {x : Float} (writes : Writes c x) :
    component c = .ok x := by
  cases writes with
  | real => rfl
  | whole near => simp only [component, near, Except.mapError]

theorem mapM_component_of_writes {numbers : List Value} {xs : List Float}
    (written : List.Forall₂ Writes numbers xs) : numbers.mapM component = .ok xs := by
  induction written with
  | nil => rfl
  | cons first _ ih => exact mapM_cons_ok_iff.mpr ⟨_, _, component_of_writes first, ih, rfl⟩

section Item

variable {place : ℕ} {v : List Float} {item : Value} (isItem : IsItem place v item)

include isItem

theorem vector_of_isItem : vector item = .ok v := by
  obtain ⟨numbers, listed, written⟩ := isItem.numbers
  simp only [vector, listed]
  exact mapM_component_of_writes written

theorem placed?_of_isItem : placed? item = some (.int place, item) := by
  have found := isItem.place
  cases item with
  | object entries =>
    simp only [Value.get?] at found
    rw [placed?, found, Option.getD_some]
  | _ => cases found

end Item

section Items

variable {n : ℕ} {v : ℕ → List Float} {item : ℕ → Value} {data : List Value}
  (items : ∀ i < n, IsItem i (v i) (item i)) (perm : data.Perm ((List.range n).map item))

include items perm

/-- Items in any order are put in the order of their texts. -/
theorem ordered?_perm : ordered? data = some ((List.range n).map item) := by
  -- Every item is told its place, whichever of them it is.
  let withPlace (x : Value) : Value × Value := ((x.get? "index").getD (.int 0), x)
  have withPlace_item : ∀ i < n, withPlace (item i) = (.int i, item i) := fun i inside =>
    congrArg (fun index => (Option.getD index (.int 0), item i)) (items i inside).place
  have placed : data.mapM placed? = some (data.map withPlace) := by
    refine mapM_eq_pure fun x member => ?_
    obtain ⟨i, inside, rfl⟩ := List.mem_map.mp (perm.mem_iff.mp member)
    have inside := List.mem_range.mp inside
    rw [placed?_of_isItem (items i inside), withPlace_item i inside]
    rfl
  have places : (data.map withPlace).Perm ((List.range n).map fun i : ℕ => (.int i, item i)) := by
    have each : (List.range n).map (withPlace ∘ item) =
        (List.range n).map fun i : ℕ => (.int i, item i) :=
      List.map_congr_left fun i inside => withPlace_item i (List.mem_range.mp inside)
    rw [← each, ← List.map_map]
    exact perm.map withPlace
  simp only [ordered?, Option.bind_eq_bind, placed, Option.bind_some, Placing.sort?_perm places,
    Option.pure_def, List.map_map, Function.comp_def]

/-- The vectors are read in the order of their texts, whatever the order of the items is. -/
theorem vectors_perm (filled : ∀ i < n, v i ≠ []) {reply : Value}
    (listed : reply.get? "data" = some (.list data)) :
    vectors n reply = (checkUsage reply).map fun _ => (List.range n).map v := by
  have placed : Items n reply ((List.range n).map item) :=
    ⟨data, listed, by simpa using perm.length_eq, ordered?_perm items perm⟩
  have read : ((List.range n).map item).mapM vector = .ok ((List.range n).map v) := by
    rw [List.mapM_map]
    exact mapM_eq_pure fun i inside => vector_of_isItem (items i (List.mem_range.mp inside))
  have all : ∀ x ∈ (List.range n).map v, x ≠ [] := by
    simpa using filled
  rw [vectors_of_items placed, read, Except.bind, if_neg (filled_iff.mpr all)]

end Items

end Reply

namespace EmbeddingClient

/-- A client that asks for the vectors of texts gets a reply with these items, and what the reply
says about usage is an object or nothing. -/
structure Receives (c : EmbeddingClient) (transport : Request → Answer) (texts : List String)
    (data : List Value) : Prop where
  configured : c.isConfigured = true
  sendable : c.canSend = true
  replied : ∃ address status reply, c.address = .ok address ∧ address.isAbsolute = true ∧
    transport (c.request address texts) = .answered status (some reply) ∧
    200 ≤ status ∧ status ≤ 299 ∧
    reply.get? "data" = some (.list data) ∧ Reply.checkUsage reply = .ok ()

theorem embed_of_receives {c : EmbeddingClient} {transport : Request → Answer} {texts : List String}
    {data : List Value} (receives : c.Receives transport texts data) (given : texts ≠ []) :
    ∃ reply, (c.embed transport texts).2 = Reply.vectors texts.length reply ∧
      reply.get? "data" = some (.list data) ∧ Reply.checkUsage reply = .ok () := by
  obtain ⟨address, status, reply, there, absolute, answered, low, high, listed, usage⟩ :=
    receives.replied
  have succeeded : (status < 200 || 299 < status) = false := by
    simpa using ⟨low, high⟩
  refine ⟨reply, ?_, listed, usage⟩
  rw [embed_there receives.configured given there, if_pos ⟨receives.sendable, absolute⟩, answered,
    read, succeeded]
  rfl

/-- The items of a reply may come in any order: a client gives the vectors in the order of the
texts, and so it gives the same for two replies with the same items. -/
theorem embed_permuted (c : EmbeddingClient) {texts : List String} (given : texts ≠ [])
    {v : ℕ → List Float} {item : ℕ → Value}
    (items : ∀ i < texts.length, Reply.IsItem i (v i) (item i))
    (filled : ∀ i < texts.length, v i ≠ []) :
    (∀ transport data, c.Receives transport texts data →
      data.Perm ((List.range texts.length).map item) →
        (c.embed transport texts).2 = .ok ((List.range texts.length).map v)) ∧
    ∀ transport transport' data data', c.Receives transport texts data →
      c.Receives transport' texts data' → data.Perm ((List.range texts.length).map item) →
        data'.Perm data → (c.embed transport' texts).2 = (c.embed transport texts).2 := by
  have answers : ∀ transport data, c.Receives transport texts data →
      data.Perm ((List.range texts.length).map item) →
        (c.embed transport texts).2 = .ok ((List.range texts.length).map v) := by
    intro transport data receives perm
    obtain ⟨reply, embedded, listed, usage⟩ := embed_of_receives receives given
    rw [embedded, Reply.vectors_perm items perm filled listed, usage]
    rfl
  refine ⟨answers, fun transport transport' data data' receives receives' perm same => ?_⟩
  rw [answers _ _ receives perm, answers _ _ receives' (same.trans perm)]

/-- The vector of the second text comes first in the reply. -/
theorem embed_permuted_swapped :
    let c : EmbeddingClient := { apiKey := some "k" }
    let item (i : ℕ) : Value :=
      .object [("embedding", .list [.int i, .real 0.5]), ("index", .int i)]
    let transport : Request → Answer := fun _ =>
      .answered 200 (some (.object [("data", .list [item 1, item 0])]))
    ["a", "b"] ≠ [] ∧ c.Receives transport ["a", "b"] [item 1, item 0] ∧
      (c.embed transport ["a", "b"]).2 = .ok [[0, 0.5], [1, 0.5]] := by
  intro c item transport
  have given : ["a", "b"] ≠ [] := by decide
  let v (i : ℕ) : List Float := if i = 0 then [0, 0.5] else [1, 0.5]
  have items : ∀ i < ["a", "b"].length, Reply.IsItem i (v i) (item i) := by
    intro i inside
    have inside : i < 2 := inside
    refine ⟨rfl, _, rfl, ?_⟩
    interval_cases i
    · exact .cons (.whole rfl) (.cons (.real 0.5) .nil)
    · exact .cons (.whole rfl) (.cons (.real 0.5) .nil)
  have filled : ∀ i < ["a", "b"].length, v i ≠ [] := by
    intro i _
    simp only [v]
    split <;> simp
  obtain ⟨address, there, absolute⟩ := address_standard c rfl
  have receives : c.Receives transport ["a", "b"] [item 1, item 0] :=
    ⟨by decide, by decide, address, 200, _, there, absolute, rfl, by decide, by decide, rfl, rfl⟩
  have answers := (embed_permuted c given items filled).1
  exact ⟨given, receives, answers transport _ receives (.swap _ _ _)⟩

end EmbeddingClient

end CodeAtlas
