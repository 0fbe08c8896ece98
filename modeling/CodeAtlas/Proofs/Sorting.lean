import CodeAtlas.Sorting
import Mathlib.Data.List.Chain
import Mathlib.Order.Lattice

/-!
# Sorting by comparisons

What comes out of a sort are the items that went in. Where two items compare as their keys do, and
keys are in a linear order, the sort always succeeds and its result is in order. A sort that is
stable puts one item before another when its key is higher, or when the keys are equal and it stood
before.

## Main results

`perm_of_byHalving?`, `byHalving?_some` and `before_byKey_iff`.

## Proof strategy

The halving keeps two facts about its bounds: what stands before the lower one is not above the
item, and what stands behind the upper one is. When the bounds meet, the item goes between them.
-/

namespace CodeAtlas.Sorting

variable {α : Type} {before? : α → α → Option Bool}

/-! ### The same items -/

theorem perm_of_insert? {sorted out : List α} {item : α}
    (inserted : insert? before? sorted item = some out) : out.Perm (item :: sorted) := by
  obtain ⟨place, -, rfl⟩ := Option.map_eq_some_iff.mp inserted
  have moved : (sorted.take place ++ item :: sorted.drop place).Perm
      (item :: (sorted.take place ++ sorted.drop place)) := List.perm_middle
  rwa [List.take_append_drop] at moved

theorem perm_of_run? {items run rest : List α} (found : run? before? items = some (run, rest)) :
    (run ++ rest).Perm items := by
  match items with
  | [] | [_] =>
    cases found
    simp
  | first :: second :: others =>
    simp only [run?, Option.bind_eq_bind, Option.bind_eq_some_iff, Option.pure_def,
      Option.some.injEq, Prod.mk.injEq] at found
    obtain ⟨descending, -, length, -, rfl, rfl⟩ := found
    conv_rhs => rw [← List.take_append_drop (length + 2) (first :: second :: others)]
    refine List.Perm.append_right _ ?_
    -- A run that descends is turned round.
    split
    · exact List.reverse_perm _
    · exact .refl _

theorem perm_of_foldlM_insert? {rest sorted out : List α}
    (inserted : rest.foldlM (insert? before?) sorted = some out) : out.Perm (sorted ++ rest) := by
  induction rest generalizing sorted with
  | nil =>
    cases inserted
    simp
  | cons item rest ih =>
    simp only [List.foldlM_cons, Option.bind_eq_bind, Option.bind_eq_some_iff] at inserted
    obtain ⟨next, first, others⟩ := inserted
    have before := (perm_of_insert? first).append_right rest
    exact ((ih others).trans before).trans List.perm_middle.symm

/-- What comes out are the items that went in. -/
theorem perm_of_byHalving? {items out : List α} (sorted : byHalving? before? items = some out) :
    out.Perm items := by
  simp only [byHalving?, Option.bind_eq_bind, Option.bind_eq_some_iff, Prod.exists] at sorted
  obtain ⟨run, rest, found, inserted⟩ := sorted
  exact (perm_of_foldlM_insert? inserted).trans (perm_of_run? found)

/-! ### In order by a key -/

variable {κ : Type} [LinearOrder κ] {key : α → κ} {among : α → Prop}

/-- Two items of a kind compare as their keys do. -/
def ComparesBy (before? : α → α → Option Bool) (key : α → κ) (among : α → Prop) : Prop :=
  ∀ a b, among a → among b → before? a b = some (decide (key a < key b))

/-- In order by a key. -/
def Ordered (key : α → κ) (items : List α) : Prop :=
  items.Pairwise fun a b => key a ≤ key b

/-- The second item goes on from the first: in order, or strictly against it. -/
def GoesOn (key : α → κ) (descending : Bool) (a b : α) : Prop :=
  if descending then key b < key a else key a ≤ key b

theorem goesOn_of_eq {descending : Bool} {a b : α}
    (goes : decide (key b < key a) = descending) : GoesOn key descending a b := by
  subst goes
  by_cases lower : key b < key a
  · simp [GoesOn, lower]
  · simpa [GoesOn, lower] using not_lt.mp lower

section Insertion

variable (compares : ComparesBy before? key among) {item : α} (own : among item) {sorted : List α}
  (all : ∀ x ∈ sorted, among x) (ordered : Ordered key sorted)

include compares own all ordered

/-- Halving finds a place: what stands before it is not above the item, and what stands behind it
is. -/
theorem placeBetween?_some {low high : Nat} (le : low ≤ high) (within : high ≤ sorted.length)
    (lower : ∀ x ∈ sorted.take low, key x ≤ key item)
    (upper : ∀ x ∈ sorted.drop high, key item < key x) :
    ∃ place, placeBetween? before? item sorted.toArray low high = some place ∧
      (∀ x ∈ sorted.take place, key x ≤ key item) ∧
      ∀ x ∈ sorted.drop place, key item < key x := by
  fun_induction placeBetween? before? item sorted.toArray low high with
  | case1 low high less middle absent =>
    have inside : middle < sorted.length := by omega
    simp [inside] at absent
  | case2 low high less middle other there incomparable =>
    rw [List.getElem?_toArray] at there
    rw [compares item other own (all other (List.mem_of_getElem? there))] at incomparable
    cases incomparable
  | case3 low high less middle other there below ih =>
    rw [List.getElem?_toArray] at there
    obtain ⟨inside, rfl⟩ := List.getElem?_eq_some_iff.mp there
    rw [compares _ _ own (all _ (List.getElem_mem inside)), Option.some.injEq,
      decide_eq_true_iff] at below
    -- All that stands behind the middle is at least as high as it.
    refine ih (by omega) (by omega) lower fun x member => ?_
    have behind := List.Pairwise.sublist (List.drop_sublist middle sorted) ordered
    rw [List.drop_eq_getElem_cons inside] at member behind
    rcases List.mem_cons.mp member with rfl | later
    · exact below
    · exact below.trans_le ((List.pairwise_cons.mp behind).1 x later)
  | case4 low high less middle other there above ih =>
    rw [List.getElem?_toArray] at there
    obtain ⟨inside, rfl⟩ := List.getElem?_eq_some_iff.mp there
    rw [compares _ _ own (all _ (List.getElem_mem inside)), Option.some.injEq,
      decide_eq_false_iff_not, not_lt] at above
    -- All that stands before the middle is at most as high as it.
    refine ih (by omega) (by omega) (fun x member => ?_) upper
    have front := List.Pairwise.sublist (List.take_sublist (middle + 1) sorted) ordered
    rw [List.take_succ_eq_append_getElem inside] at front member
    have last := List.mem_singleton_self (sorted[middle])
    rcases List.mem_append.mp member with earlier | same
    · exact ((List.pairwise_append.mp front).2.2 x earlier _ last).trans above
    · rw [List.mem_singleton.mp same]
      exact above
  | case5 low high done =>
    obtain rfl : low = high := by omega
    exact ⟨low, rfl, lower, upper⟩

/-- An item is put in between the others, which stay in order. -/
theorem insert?_some : ∃ out, insert? before? sorted item = some out ∧ Ordered key out := by
  obtain ⟨place, found, lower, upper⟩ := placeBetween?_some compares own all ordered
    (Nat.zero_le _) (Nat.le_refl sorted.length) (by simp) (by simp)
  refine ⟨sorted.take place ++ item :: sorted.drop place, ?_, ?_⟩
  · simp only [insert?, found, Option.map_some]
  · have parts := ordered
    rw [← List.take_append_drop place sorted] at parts
    obtain ⟨front, back, across⟩ := List.pairwise_append.mp parts
    refine List.pairwise_append.mpr ⟨front, List.pairwise_cons.mpr ⟨fun x member => ?_, back⟩,
      fun x member y member' => ?_⟩
    · exact (upper x member).le
    · rcases List.mem_cons.mp member' with rfl | later
      · exact lower x member
      · exact across x member y later

end Insertion

theorem foldlM_insert?_some (compares : ComparesBy before? key among) {sorted rest : List α}
    (all : ∀ x ∈ sorted, among x) (ordered : Ordered key sorted) (more : ∀ x ∈ rest, among x) :
    ∃ out, rest.foldlM (insert? before?) sorted = some out ∧ Ordered key out := by
  induction rest generalizing sorted with
  | nil => exact ⟨sorted, rfl, ordered⟩
  | cons item rest ih =>
    obtain ⟨own, others⟩ := List.forall_mem_cons.mp more
    obtain ⟨next, inserted, ordered'⟩ := insert?_some compares own all ordered
    have all' : ∀ x ∈ next, among x := by
      intro x member
      rcases List.mem_cons.mp ((perm_of_insert? inserted).mem_iff.mp member) with rfl | old
      · exact own
      · exact all x old
    obtain ⟨out, done, sorted'⟩ := ih all' ordered' others
    refine ⟨out, ?_, sorted'⟩
    rw [List.foldlM_cons, inserted]
    exact done

theorem runLength?_some (compares : ComparesBy before? key among) (descending : Bool) {last : α}
    (own : among last) {rest : List α} (all : ∀ x ∈ rest, among x) :
    ∃ length, runLength? before? descending last rest = some length ∧
      (last :: rest.take length).IsChain (GoesOn key descending) := by
  induction rest generalizing last with
  | nil => exact ⟨0, rfl, .singleton _⟩
  | cons item rest ih =>
    obtain ⟨own', others⟩ := List.forall_mem_cons.mp all
    obtain ⟨length, found, chain⟩ := ih own' others
    rw [runLength?, compares item last own' own]
    by_cases goes : decide (key item < key last) = descending
    · exact ⟨length + 1, by simp [goes, found], chain.cons_cons (goesOn_of_eq goes)⟩
    · exact ⟨0, by simp [goes], .singleton _⟩

/-- The run at the start is put in order. -/
theorem run?_some (compares : ComparesBy before? key among) {items : List α}
    (all : ∀ x ∈ items, among x) :
    ∃ run rest, run? before? items = some (run, rest) ∧ Ordered key run := by
  match items with
  | [] => exact ⟨[], [], rfl, .nil⟩
  | [only] => exact ⟨[only], [], rfl, List.pairwise_singleton _ _⟩
  | first :: second :: others =>
    obtain ⟨own, own', more⟩ : among first ∧ among second ∧ ∀ x ∈ others, among x := by
      simpa using all
    obtain ⟨length, found, chain⟩ :=
      runLength?_some compares (decide (key second < key first)) own' more
    have goes : GoesOn key (decide (key second < key first)) first second := goesOn_of_eq rfl
    have chain := chain.cons_cons goes
    rw [← List.take_succ_cons, ← List.take_succ_cons] at chain
    have ran (run : List α) (is_ : (if decide (key second < key first) then
        ((first :: second :: others).take (length + 2)).reverse
        else (first :: second :: others).take (length + 2)) = run) :
        run? before? (first :: second :: others) =
          some (run, (first :: second :: others).drop (length + 2)) := by
      simp only [run?, compares second first own' own, Option.bind_eq_bind, Option.bind_some, found,
        Option.pure_def, is_]
    by_cases lower : key second < key first
    · -- A run that descends strictly ascends when it is turned round.
      have descends : IsTrans α fun a b => key b < key a := ⟨fun _ _ _ h h' => h'.trans h⟩
      rw [decide_eq_true lower] at ran chain
      refine ⟨_, _, ran _ rfl, List.pairwise_reverse.mpr ?_⟩
      exact (List.IsChain.pairwise (R := fun a b => key b < key a) chain).imp fun less => less.le
    · have ascends : IsTrans α fun a b => key a ≤ key b := ⟨fun _ _ _ h h' => h.trans h'⟩
      rw [decide_eq_false lower] at ran chain
      exact ⟨_, _, ran _ rfl, List.IsChain.pairwise (R := fun a b => key a ≤ key b) chain⟩

/-- Items that compare as their keys do are put in order. -/
theorem byHalving?_some (compares : ComparesBy before? key among) {items : List α}
    (all : ∀ x ∈ items, among x) :
    ∃ out, byHalving? before? items = some out ∧ out.Perm items ∧ Ordered key out := by
  obtain ⟨run, rest, found, ordered⟩ := run?_some compares all
  have parts := perm_of_run? found
  have all' : ∀ x ∈ run ++ rest, among x := fun x member => all x (parts.mem_iff.mp member)
  obtain ⟨out, inserted, ordered'⟩ := foldlM_insert?_some compares
    (fun x member => all' x (List.mem_append_left _ member)) ordered
    (fun x member => all' x (List.mem_append_right _ member))
  have done : byHalving? before? items = some out := by
    simp only [byHalving?, Option.bind_eq_bind, found, Option.bind_some, inserted]
  exact ⟨out, done, perm_of_byHalving? done, ordered'⟩

/-! ### Before and behind in a stable sort -/

/-- An item stands before another. -/
def Before (a b : α) (items : List α) : Prop :=
  [a, b].Sublist items

theorem Before.mem {a b : α} {items : List α} (before : Before a b items) :
    a ∈ items ∧ b ∈ items :=
  ⟨before.subset List.mem_cons_self, before.subset (by simp)⟩

theorem before_or_before {a b : α} {items : List α} (member : a ∈ items) (member' : b ∈ items)
    (ne : a ≠ b) : Before a b items ∨ Before b a items := by
  obtain ⟨front, back, rfl⟩ := List.append_of_mem member
  rcases List.mem_append.mp member' with earlier | later
  · right
    exact (List.singleton_sublist.mpr earlier).append
      (List.singleton_sublist.mpr List.mem_cons_self)
  · left
    have behind : b ∈ back := (List.mem_cons.mp later).resolve_left ne.symm
    exact ((List.singleton_sublist.mpr behind).cons_cons a).trans (List.sublist_append_right _ _)

variable (key) in
/-- The highest key first, and items of one key as they stood. -/
def byKey (items : List α) : List α :=
  items.mergeSort fun a b => decide (key b ≤ key a)

theorem mem_byKey {items : List α} {a : α} : a ∈ byKey key items ↔ a ∈ items :=
  List.mem_mergeSort

private theorem byKey_trans (a b c : α) (first : decide (key b ≤ key a) = true)
    (second : decide (key c ≤ key b) = true) : decide (key c ≤ key a) = true :=
  decide_eq_true ((of_decide_eq_true second).trans (of_decide_eq_true first))

private theorem byKey_total (a b : α) :
    (decide (key b ≤ key a) || decide (key a ≤ key b)) = true := by
  rw [Bool.or_eq_true, decide_eq_true_iff, decide_eq_true_iff]
  exact le_total _ _

theorem byKey_pairwise (items : List α) :
    (byKey key items).Pairwise fun a b => key b ≤ key a :=
  (List.pairwise_mergeSort byKey_trans byKey_total items).imp of_decide_eq_true

/-- Items of one key stay as they stood. -/
theorem filter_byKey (k : κ) (items : List α) :
    (byKey key items).filter (key · = k) = items.filter (key · = k) := by
  have alike : (items.filter (key · = k)).Pairwise fun a b => decide (key b ≤ key a) = true := by
    refine List.pairwise_of_forall_mem_list fun a member b member' => decide_eq_true ?_
    have a_eq := of_decide_eq_true (List.mem_filter.mp member).2
    have b_eq := of_decide_eq_true (List.mem_filter.mp member').2
    exact (b_eq.trans a_eq.symm).le
  have kept := (List.sublist_mergeSort byKey_trans byKey_total alike List.filter_sublist).filter
    (key · = k)
  rw [List.filter_filter] at kept
  simp only [Bool.and_self] at kept
  refine (kept.eq_of_length ?_).symm
  exact (((List.mergeSort_perm items _).filter _).length_eq).symm

theorem before_byKey_iff {a b : α} {items : List α} : Before a b (byKey key items) ↔
    (key b < key a ∧ a ∈ items ∧ b ∈ items) ∨ (key a = key b ∧ Before a b items) := by
  have ordered : (byKey key items).Pairwise _ := byKey_pairwise items
  constructor
  · intro before
    have le : key b ≤ key a := by simpa using ordered.sublist before
    obtain ⟨member, member'⟩ := before.mem
    rcases le.lt_or_eq with less | same
    · exact .inl ⟨less, mem_byKey.mp member, mem_byKey.mp member'⟩
    · have alike := before.filter (key · = key a)
      rw [filter_byKey] at alike
      refine .inr ⟨same.symm, List.Sublist.trans ?_ (alike.trans List.filter_sublist)⟩
      simp [same]
  · rintro (⟨less, member, member'⟩ | ⟨same, before⟩)
    · have ne : a ≠ b := by
        rintro rfl
        exact less.false
      refine (before_or_before (mem_byKey.mpr member) (mem_byKey.mpr member') ne).resolve_right ?_
      intro before
      have le : key a ≤ key b := by simpa using ordered.sublist before
      exact le.not_gt less
    · exact List.pair_sublist_mergeSort byKey_trans byKey_total
        (decide_eq_true same.symm.le) before

end CodeAtlas.Sorting
