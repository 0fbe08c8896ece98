import CodeAtlas.Embedding.Client
import CodeAtlas.Proofs.Number.Range
import CodeAtlas.Proofs.Sorting
import Mathlib

/-!
# What a client makes of a reply

A configured client that is asked for the vectors of some texts gives one non-empty vector for each
text, or a failure of the provider. Three faults get past it as something else, and `Surfaces` says
where: an address that is none, a component that is a whole number beyond the floating-point
numbers, and a usage that is neither empty nor an object.

Strategy: sorting keeps the items (`Sorting.perm_of_byHalving?`); a list is read item by item, up to
the first that fails (`mapM_ok_iff_forall`, `mapM_error_iff`); so a failure of the reply is traced
to the one component or entry it comes from.
-/

namespace CodeAtlas

/-! ### Reading one by one -/

section Each

variable {α β ε : Type} {f : α → Except ε β} {x : α} {xs : List α}

theorem mapM_cons_ok_iff {ys : List β} :
    (x :: xs).mapM f = .ok ys ↔ ∃ y rest, f x = .ok y ∧ xs.mapM f = .ok rest ∧ ys = y :: rest := by
  rw [List.mapM_cons]
  cases f x <;> cases xs.mapM f <;> simp [bind, Except.bind, pure, Except.pure, eq_comm]

theorem mapM_cons_error_iff {e : ε} :
    (x :: xs).mapM f = .error e ↔ f x = .error e ∨ (∃ y, f x = .ok y) ∧ xs.mapM f = .error e := by
  rw [List.mapM_cons]
  cases f x <;> cases xs.mapM f <;> simp [bind, Except.bind, pure, Except.pure]

theorem length_of_mapM_ok {ys : List β} (read : xs.mapM f = .ok ys) : ys.length = xs.length := by
  induction xs generalizing ys with
  | nil =>
    cases read
    rfl
  | cons x xs ih =>
    obtain ⟨y, rest, -, others, rfl⟩ := mapM_cons_ok_iff.mp read
    rw [List.length_cons, List.length_cons, ih others]

/-- A list is read, with a property, exactly when each item of it is. -/
theorem mapM_ok_iff_forall {p : β → Prop} :
    (∃ ys, xs.mapM f = .ok ys ∧ ∀ y ∈ ys, p y) ↔ ∀ x ∈ xs, ∃ y, f x = .ok y ∧ p y := by
  induction xs with
  | nil => simp [pure, Except.pure]
  | cons x xs ih =>
    rw [List.forall_mem_cons, ← ih]
    constructor
    · rintro ⟨_, read, all⟩
      obtain ⟨y, rest, first, others, rfl⟩ := mapM_cons_ok_iff.mp read
      obtain ⟨good, goods⟩ := List.forall_mem_cons.mp all
      exact ⟨⟨y, first, good⟩, rest, others, goods⟩
    · rintro ⟨⟨y, first, good⟩, rest, others, goods⟩
      exact ⟨y :: rest, mapM_cons_ok_iff.mpr ⟨y, rest, first, others, rfl⟩,
        List.forall_mem_cons.mpr ⟨good, goods⟩⟩

/-- A list fails as the first of its items that cannot be read. -/
theorem mapM_error_iff {e : ε} :
    xs.mapM f = .error e ↔
      ∃ before x after, xs = before ++ x :: after ∧ (∀ y ∈ before, ∃ b, f y = .ok b) ∧
        f x = .error e := by
  induction xs with
  | nil => simp [pure, Except.pure]
  | cons x xs ih =>
    rw [mapM_cons_error_iff, ih]
    constructor
    · rintro (failed | ⟨first, before, y, after, rfl, read, failed⟩)
      · exact ⟨[], x, xs, rfl, by simp, failed⟩
      · exact ⟨x :: before, y, after, rfl, List.forall_mem_cons.mpr ⟨first, read⟩, failed⟩
    · rintro ⟨_ | ⟨_, before⟩, y, after, parts, read, failed⟩
      · obtain ⟨rfl, rfl⟩ := List.cons.inj parts
        exact .inl failed
      · obtain ⟨rfl, rfl⟩ := List.cons.inj parts
        obtain ⟨first, others⟩ := List.forall_mem_cons.mp read
        exact .inr ⟨first, before, y, after, rfl, others, failed⟩

end Each

/-! ### Replies -/

namespace Reply

open Number

theorem map_placed? {items : List Value} {places : List (Value × Value)}
    (placed : items.mapM placed? = some places) : places.map (·.2) = items := by
  induction items generalizing places with
  | nil =>
    cases placed
    rfl
  | cons item items ih =>
    simp only [List.mapM_cons, Option.bind_eq_bind, Option.bind_eq_some_iff, Option.pure_def,
      Option.some.injEq] at placed
    obtain ⟨place, first, others, rest, rfl⟩ := placed
    have kept : place.2 = item := by
      cases item <;> cases first
      rfl
    rw [List.map_cons, kept, ih rest]

theorem perm_of_ordered? {items out : List Value} (found : ordered? items = some out) :
    out.Perm items := by
  simp only [ordered?, Option.bind_eq_bind, Option.bind_eq_some_iff, Option.pure_def,
    Option.some.injEq] at found
  obtain ⟨places, placed, sorted, order, rfl⟩ := found
  exact map_placed? placed ▸ (Sorting.perm_of_byHalving? order).map (·.2)

theorem component_text {s : String} {failure : Failure}
    (failed : component (.text s) = .error failure) : failure.kind = .provider := by
  simp only [component] at failed
  split at failed <;> cases failed
  rfl

/-- Only a whole number can be too large to be a component. -/
theorem component_error_iff {c : Value} {failure : Failure} :
    component c = .error failure ∧ failure.kind ≠ .provider ↔
      failure = .overflow .number ∧ ∃ n : ℤ, c = .int n ∧ beyondFloats ≤ n.natAbs := by
  constructor
  · rintro ⟨failed, foreign⟩
    cases c with
    | int n =>
      cases float : (Scalar.whole n).toFloat? with
      | ok x => simp [component, float, Except.mapError] at failed
      | error cause =>
        obtain ⟨rfl, large⟩ := Scalar.toFloat?_whole_eq_error_iff.mp float
        simp only [component, float, Except.mapError, Except.error.injEq] at failed
        exact ⟨failed.symm, n, rfl, large⟩
    | text s => exact absurd (component_text failed) foreign
    | real x | bool b => cases failed
    | null | time | bytes | list | object =>
      cases failed
      exact absurd rfl foreign
  · rintro ⟨rfl, n, rfl, large⟩
    have float := Scalar.toFloat?_whole_eq_error_iff.mpr ⟨rfl, large⟩
    exact ⟨by simp only [component, float, Except.mapError], by decide⟩

/-- Only a list of components can have one that is too large. -/
theorem vector_error_iff {item : Value} {failure : Failure} :
    vector item = .error failure ∧ failure.kind ≠ .provider ↔
      failure = .overflow .number ∧ ∃ read n rest,
        item.get? "embedding" = some (.list (read ++ .int n :: rest)) ∧
        (∀ c ∈ read, ∃ x, component c = .ok x) ∧ beyondFloats ≤ n.natAbs := by
  constructor
  · rintro ⟨failed, foreign⟩
    simp only [vector] at failed
    split at failed
    next components there =>
      obtain ⟨read, c, rest, rfl, numbers, fault⟩ := mapM_error_iff.mp failed
      obtain ⟨rfl, n, rfl, large⟩ := component_error_iff.mp ⟨fault, foreign⟩
      exact ⟨rfl, read, n, rest, there, numbers, large⟩
    -- The characters of a text and the keys of an object are texts themselves.
    next s there =>
      obtain ⟨-, c, -, -, -, fault⟩ := mapM_error_iff.mp failed
      exact absurd (component_text fault) foreign
    next entries there =>
      obtain ⟨-, entry, -, -, -, fault⟩ := mapM_error_iff.mp failed
      exact absurd (component_text fault) foreign
    next =>
      cases failed
      exact absurd rfl foreign
  · rintro ⟨rfl, read, n, rest, there, numbers, large⟩
    obtain ⟨fault, foreign⟩ := component_error_iff.mpr ⟨rfl, n, rfl, large⟩
    simp only [vector, there]
    exact ⟨mapM_error_iff.mpr ⟨read, .int n, rest, rfl, numbers, fault⟩, foreign⟩

/-- The items of a reply, one for each text, in the order of their places. -/
def Items (expected : Nat) (reply : Value) (ordered : List Value) : Prop :=
  ∃ items, reply.get? "data" = some (.list items) ∧ items.length = expected ∧
    ordered? items = some ordered

/-- What a reply can bring about that is no failure of the provider. -/
inductive Surfaces (expected : Nat) (reply : Value) : Failure → Prop
  /-- Whatever comes first is read, then a component is a whole number beyond the floating-point
  numbers. -/
  | tooLarge {before after : List Value} {item : Value} {read rest : List Value} {n : ℤ}
      (items : Items expected reply (before ++ item :: after))
      (earlier : ∀ other ∈ before, ∃ v, vector other = .ok v)
      (components : item.get? "embedding" = some (.list (read ++ .int n :: rest)))
      (numbers : ∀ c ∈ read, ∃ x, component c = .ok x)
      (large : beyondFloats ≤ n.natAbs) : Surfaces expected reply (.overflow .number)
  /-- All vectors are there, but what the reply says about usage is no object. -/
  | usage {ordered : List Value} {usage : Value} (items : Items expected reply ordered)
      (complete : ∀ item ∈ ordered, ∃ v, vector item = .ok v ∧ v ≠ [])
      (said : reply.get? "usage" = some usage) (something : usage.saysNothing = false)
      (other : ∀ entries, usage ≠ .object entries) : Surfaces expected reply (wrongUsage usage)

section Vectors

variable {expected : Nat} {reply : Value} {ordered : List Value}

theorem Items.length_eq (items : Items expected reply ordered) : ordered.length = expected := by
  obtain ⟨given, -, counted, placed⟩ := items
  exact (perm_of_ordered? placed).length_eq.trans counted

/-- A reply without its items is refused. -/
theorem vectors_refused (missing : ∀ ordered, ¬ Items expected reply ordered) :
    ∃ failure, vectors expected reply = .error failure ∧ failure.kind = .provider := by
  simp only [vectors]
  split
  next given listed =>
    split
    · exact ⟨_, rfl, rfl⟩
    next counted =>
      cases placed : ordered? given with
      | none => exact ⟨_, rfl, rfl⟩
      | some ordered => exact absurd ⟨given, listed, by simpa using counted, placed⟩ (missing ordered)
  next => exact ⟨_, rfl, rfl⟩

/-- A reply with its items is read one by one, then its usage is looked at. -/
theorem vectors_of_items (items : Items expected reply ordered) :
    vectors expected reply = (ordered.mapM vector).bind fun vs =>
      if vs.any (·.isEmpty) then
        .error (.plain .provider "Embedding response contained an empty vector")
      else (checkUsage reply).map fun _ => vs := by
  obtain ⟨given, listed, rfl, placed⟩ := items
  simp only [vectors, listed, bne_self_eq_false, placed]
  cases ordered.mapM vector <;> rfl

theorem filled_iff {vs : List (List Float)} :
    ¬ vs.any (·.isEmpty) = true ↔ ∀ v ∈ vs, v ≠ [] := by
  rw [List.any_eq_true, not_exists]
  simp only [List.isEmpty_iff, not_and]

theorem checkUsage_error_iff {failure : Failure} :
    checkUsage reply = .error failure ↔ ∃ usage, reply.get? "usage" = some usage ∧
      usage.saysNothing = false ∧ (∀ entries, usage ≠ .object entries) ∧
      failure = wrongUsage usage := by
  simp only [checkUsage]
  split
  next absent => simp [absent]
  next entries object => simp [object]
  next usage other said =>
    cases empty : usage.saysNothing with
    | true => simp [said, empty]
    | false =>
      constructor
      · rintro ⟨⟩
        exact ⟨usage, said, empty, other, rfl⟩
      · rintro ⟨_, said', -, -, rfl⟩
        cases said.symm.trans said'
        rfl

/-- The vectors of a reply are as many as asked for, and none is empty. -/
theorem vectors_ok {vs : List (List Float)} (read : vectors expected reply = .ok vs) :
    vs.length = expected ∧ ∀ v ∈ vs, v ≠ [] := by
  by_cases there : ∃ ordered, Items expected reply ordered
  · obtain ⟨ordered, items⟩ := there
    rw [vectors_of_items items] at read
    cases each : ordered.mapM vector with
    | error fault =>
      rw [each] at read
      cases read
    | ok values =>
      rw [each, Except.bind] at read
      split at read
      · cases read
      next filled =>
        obtain rfl : values = vs := by
          cases used : checkUsage reply with
          | error fault => simp [used, Except.map] at read
          | ok => simpa [used, Except.map] using read
        exact ⟨(length_of_mapM_ok each).trans items.length_eq, filled_iff.mp filled⟩
  · obtain ⟨fault, refused, -⟩ := vectors_refused (not_exists.mp there)
    cases refused.symm.trans read

/-- Nothing but what surfaces is no failure of the provider. -/
theorem vectors_error_iff {failure : Failure} :
    vectors expected reply = .error failure ∧ failure.kind ≠ .provider ↔
      Surfaces expected reply failure := by
  constructor
  · rintro ⟨failed, foreign⟩
    by_cases there : ∃ ordered, Items expected reply ordered
    · -- What fails first is an item, the look for empty vectors or the usage, in this order.
      obtain ⟨ordered, items⟩ := there
      rw [vectors_of_items items] at failed
      cases each : ordered.mapM vector with
      | error fault =>
        rw [each] at failed
        cases failed
        obtain ⟨before, item, after, rfl, earlier, fault⟩ := mapM_error_iff.mp each
        obtain ⟨rfl, read, n, rest, components, numbers, large⟩ :=
          vector_error_iff.mp ⟨fault, foreign⟩
        exact .tooLarge items earlier components numbers large
      | ok values =>
        rw [each, Except.bind] at failed
        split at failed
        · cases failed
          exact absurd rfl foreign
        next filled =>
          have complete := mapM_ok_iff_forall.mp ⟨values, each, filled_iff.mp filled⟩
          have misused : checkUsage reply = .error failure := by
            cases used : checkUsage reply with
            | error fault => simpa [used, Except.map] using failed
            | ok => simp [used, Except.map] at failed
          obtain ⟨usage, said, something, other, rfl⟩ := checkUsage_error_iff.mp misused
          exact .usage items complete said something other
    · obtain ⟨fault, refused, kind⟩ := vectors_refused (not_exists.mp there)
      cases refused.symm.trans failed
      exact absurd kind foreign
  · intro surfaces
    cases surfaces with
    | tooLarge items earlier components numbers large =>
      obtain ⟨fault, foreign⟩ := vector_error_iff.mpr ⟨rfl, _, _, _, components, numbers, large⟩
      rw [vectors_of_items items, mapM_error_iff.mpr ⟨_, _, _, rfl, earlier, fault⟩]
      exact ⟨rfl, foreign⟩
    | usage items complete said something other =>
      obtain ⟨values, each, filled⟩ := mapM_ok_iff_forall.mpr complete
      have misused := checkUsage_error_iff.mpr ⟨_, said, something, other, rfl⟩
      rw [vectors_of_items items, each, Except.bind, if_neg (filled_iff.mpr filled), misused]
      exact ⟨rfl, by simp [wrongUsage, Failure.plain]⟩

end Vectors

end Reply

/-! ### Asking -/

namespace EmbeddingClient

variable {c : EmbeddingClient} {transport : Request → Answer} {texts : List String}
  {failure : Failure}

theorem read_ok {expected : Nat} {answer : Answer} {vs : List (List Float)}
    (read : c.read expected answer = .ok vs) : vs.length = expected ∧ ∀ v ∈ vs, v ≠ [] := by
  match answer with
  | .lost => cases read
  | .answered status body =>
    simp only [EmbeddingClient.read] at read
    split at read
    · cases read
    · cases body with
      | none => cases read
      | some reply => exact Reply.vectors_ok read

/-- Only the reply to a request that succeeded can surface. -/
theorem read_error_iff {expected : Nat} {answer : Answer} :
    c.read expected answer = .error failure ∧ failure.kind ≠ .provider ↔
      ∃ status reply, answer = .answered status (some reply) ∧ 200 ≤ status ∧ status ≤ 299 ∧
        Reply.Surfaces expected reply failure := by
  constructor
  · rintro ⟨failed, foreign⟩
    match answer with
    | .lost =>
      cases failed
      exact absurd rfl foreign
    | .answered status body =>
      simp only [EmbeddingClient.read] at failed
      split at failed
      · cases failed
        exact absurd rfl foreign
      next succeeded =>
        cases body with
        | none =>
          cases failed
          exact absurd rfl foreign
        | some reply =>
          simp only [Bool.or_eq_true, decide_eq_true_eq, not_or, not_lt] at succeeded
          exact ⟨status, reply, rfl, succeeded.1, succeeded.2,
            Reply.vectors_error_iff.mp ⟨failed, foreign⟩⟩
  · rintro ⟨status, reply, rfl, low, high, surfaces⟩
    have succeeded : (status < 200 || 299 < status) = false := by
      simpa using ⟨low, high⟩
    simp only [EmbeddingClient.read, succeeded]
    exact Reply.vectors_error_iff.mpr surfaces

/-- What asking can bring about that is no failure of the provider. -/
inductive Surfaces (c : EmbeddingClient) (transport : Request → Answer) (texts : List String) :
    Failure → Prop
  /-- The base address is none, and nothing is sent. -/
  | misaddressed {fault : Address.Fault} (nowhere : c.address = .error fault) :
      Surfaces c transport texts (misaddressed fault)
  /-- The request succeeded, and it surfaces in the reply. -/
  | replied {address : Address} {status : ℤ} {reply : Value} {failure : Failure}
      (there : c.address = .ok address) (absolute : address.isAbsolute = true)
      (sendable : c.canSend = true)
      (answered : transport (c.request address texts) = .answered status (some reply))
      (low : 200 ≤ status) (high : status ≤ 299)
      (surfaces : Reply.Surfaces texts.length reply failure) : Surfaces c transport texts failure

/-- The address of the service is one when none is given. -/
theorem address_standard (c : EmbeddingClient) (standard : c.baseUrl = "https://api.openai.com/v1") :
    ∃ address, c.address = .ok address ∧ address.isAbsolute = true := by
  refine ⟨⟨"https".toList, [], "api.openai.com".toList, none, "/v1/embeddings".toList, none, none⟩,
    ?_, by decide⟩
  rw [address, standard]
  cbv

section Embed

variable (configured : c.isConfigured = true) (given : texts ≠ [])

include configured given

theorem embed_nowhere {fault : Address.Fault} (nowhere : c.address = .error fault) :
    (c.embed transport texts).2 = .error (misaddressed fault) := by
  simp [embed, configured, given, nowhere]

theorem embed_there {address : Address} (there : c.address = .ok address) :
    (c.embed transport texts).2 =
      if c.canSend ∧ address.isAbsolute then
        c.read texts.length (transport (c.request address texts))
      else .error c.lost := by
  cases sendable : c.canSend <;> cases absolute : address.isAbsolute <;>
    simp [embed, configured, given, there, sendable, absolute]

end Embed

/-- A configured client that is asked for the vectors of some texts gives as many vectors, none of
them empty, or a failure of the provider, but for what surfaces. -/
theorem embed_surfaces (c : EmbeddingClient) (transport : Request → Answer) (texts : List String)
    (configured : c.isConfigured = true) (given : texts ≠ []) :
    (∀ vectors, (c.embed transport texts).2 = .ok vectors →
      vectors.length = texts.length ∧ ∀ v ∈ vectors, v ≠ []) ∧
    ∀ failure, (c.embed transport texts).2 = .error failure ∧ failure.kind ≠ .provider ↔
      c.Surfaces transport texts failure := by
  cases there : c.address with
  | error fault =>
    rw [embed_nowhere configured given there]
    refine ⟨fun _ read => (by cases read), fun failure => ⟨?_, ?_⟩⟩
    · rintro ⟨⟨⟩, -⟩
      exact .misaddressed there
    · rintro (nowhere | ⟨elsewhere⟩)
      · cases there.symm.trans nowhere
        exact ⟨rfl, by simp [misaddressed, Failure.plain]⟩
      · cases there.symm.trans elsewhere
  | ok address =>
    rw [embed_there configured given there]
    split
    next sent =>
      refine ⟨fun _ => read_ok, fun failure => read_error_iff.trans ⟨?_, ?_⟩⟩
      · rintro ⟨status, reply, answered, low, high, surfaces⟩
        exact .replied there sent.2 sent.1 answered low high surfaces
      · rintro (nowhere | ⟨here, -, -, answered, low, high, surfaces⟩)
        · cases there.symm.trans nowhere
        · cases there.symm.trans here
          exact ⟨_, _, answered, low, high, surfaces⟩
    next unsent =>
      refine ⟨fun _ read => (by cases read), fun failure => ⟨?_, ?_⟩⟩
      · rintro ⟨⟨⟩, foreign⟩
        exact absurd rfl foreign
      · rintro (nowhere | ⟨here, absolute, sendable, -⟩)
        · cases there.symm.trans nowhere
        · cases there.symm.trans here
          exact absurd ⟨sendable, absolute⟩ unsent

/-- A component of more than four hundred digits, after one that is read, is no failure of the
provider. -/
theorem embed_surfaces_tooLarge :
    let c : EmbeddingClient := { apiKey := some "k" }
    let transport : Request → Answer := fun _ => .answered 200 (some (.object
      [("data", .list [.object [("embedding", .list [.int 1, .int (Number.tenPow 400)])]])]))
    c.isConfigured = true ∧ ["a"] ≠ [] ∧
      (c.embed transport ["a"]).2 = .error (.overflow .number) := by
  intro c transport
  have configured : c.isConfigured = true := by decide
  have given : ["a"] ≠ [] := by decide
  obtain ⟨address, there, absolute⟩ := address_standard c rfl
  have items : Reply.Items 1 (.object
      [("data", .list [.object [("embedding", .list [.int 1, .int (Number.tenPow 400)])]])])
      ([] ++ .object [("embedding", .list [.int 1, .int (Number.tenPow 400)])] :: []) :=
    ⟨_, rfl, rfl, rfl⟩
  have large : Number.beyondFloats ≤ (Number.tenPow 400 : ℤ).natAbs := by
    decide +kernel
  have read : ∀ component ∈ [Value.int 1], ∃ x, Reply.component component = .ok x := by
    simpa using ⟨_, rfl⟩
  exact ⟨configured, given, (((embed_surfaces c transport ["a"] configured given).2 _).mpr
    (.replied there absolute (by decide) rfl (by decide) (by decide)
      (.tooLarge items (by simp) rfl read large))).1⟩

/-- A reply with its one vector, but with a text for its usage, is no failure of the provider. -/
theorem embed_misused :
    let c : EmbeddingClient := { apiKey := some "k" }
    let transport : Request → Answer := fun _ => .answered 200 (some (.object
      [("data", .list [.object [("embedding", .list [.int 1]), ("index", .int 0)]]),
        ("usage", .text "free")]))
    c.isConfigured = true ∧ ["a"] ≠ [] ∧
      ¬ ((∃ vectors, (c.embed transport ["a"]).2 = .ok vectors ∧ vectors.length = 1 ∧
          ∀ v ∈ vectors, v ≠ []) ∨
        ∃ failure, (c.embed transport ["a"]).2 = .error failure ∧ failure.kind = .provider) := by
  intro c transport
  have configured : c.isConfigured = true := by decide
  have given : ["a"] ≠ [] := by decide
  obtain ⟨address, there, absolute⟩ := address_standard c rfl
  have failed : (c.embed transport ["a"]).2 = .error (Reply.wrongUsage (.text "free")) := by
    rw [embed_there configured given there, if_pos ⟨by decide, absolute⟩]
    rfl
  refine ⟨configured, given, ?_⟩
  rw [failed]
  rintro (⟨_, ⟨⟩, -⟩ | ⟨_, ⟨⟩, kind⟩)
  cases kind

end EmbeddingClient

end CodeAtlas
