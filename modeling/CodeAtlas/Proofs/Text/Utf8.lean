import CodeAtlas.Text.Utf8
import Mathlib.Algebra.Group.Nat.Defs
import Mathlib.Data.String.Basic
import Mathlib.Tactic.Common

/-!
# UTF-8 as it is read and as it is written

## Main results

`Text.ofUtf8_ok_iff`: bytes are read as a text exactly when the text is written as these bytes.
`Text.utf8_lt_utf8_iff`: bytes are in the order of the texts that they write.
-/

namespace CodeAtlas.Text

variable {b first : UInt8} {bytes tail rest : List UInt8} {c : Char} {n k offset : Nat}
  {out text : List Char} {p : Utf8Pending}

/-- The last bytes of a code point, `k` of them, with six bits each. -/
def continuation : Nat → Nat → List UInt8
  | 0, _ => []
  | k + 1, n => UInt8.ofNat (n / 64 ^ k % 64 + 128) :: continuation k n

/-- The code point `n` is one of those that the sequence may be the start of. -/
structure Utf8Pending.Leads (p : Utf8Pending) (n : Nat) : Prop where
  gathered : n / 64 ^ p.owed = p.bits
  above : p.low.toNat ≤ n / 64 ^ (p.owed - 1) % 64 + 128
  below : n / 64 ^ (p.owed - 1) % 64 + 128 ≤ p.high.toNat

theorem toNat_byte (small : n < 256) : (UInt8.ofNat n).toNat = n :=
  UInt8.toNat_ofNat_of_lt' small

theorem toNat_char (valid : n.isValidChar) : (Char.ofNat n).toNat = n := by
  rw [Char.ofNat, dif_pos valid]
  rfl

/-! ## The first byte of a character -/

theorem utf8Start_eq (b : UInt8) : utf8Start b =
    if b.toNat < 128 then .char (Char.ofNat b.toNat)
    else if b.toNat < 194 then .invalid
    else if b.toNat < 224 then .begin ⟨1, 1, 128, 191, b.toNat - 192⟩
    else if b.toNat = 224 then .begin ⟨1, 2, 160, 191, 0⟩
    else if b.toNat = 237 then .begin ⟨1, 2, 128, 159, b.toNat - 224⟩
    else if b.toNat < 240 then .begin ⟨1, 2, 128, 191, b.toNat - 224⟩
    else if b.toNat = 240 then .begin ⟨1, 3, 144, 191, 0⟩
    else if b.toNat < 244 then .begin ⟨1, 3, 128, 191, b.toNat - 240⟩
    else if b.toNat = 244 then .begin ⟨1, 3, 128, 143, b.toNat - 240⟩
    else .invalid := by
  simp only [utf8Start, UInt8.lt_iff_toNat_lt, beq_iff_eq, ← UInt8.toNat_inj]
  rfl

/-! A first byte tells by its size how many bytes follow. -/

theorem utf8Start_two (least : 194 ≤ b.toNat) (most : b.toNat < 224) :
    utf8Start b = .begin ⟨1, 1, 128, 191, b.toNat - 192⟩ := by
  rw [utf8Start_eq, if_neg (by omega), if_neg (by omega), if_pos most]

theorem utf8Start_three (least : 224 ≤ b.toNat) (most : b.toNat < 240) :
    utf8Start b = .begin ⟨1, 2, if b.toNat = 224 then 160 else 128,
      if b.toNat = 237 then 159 else 191, b.toNat - 224⟩ := by
  rw [utf8Start_eq, if_neg (by omega), if_neg (by omega), if_neg (by omega)]
  by_cases first : b.toNat = 224
  · simp [first]
  · by_cases surrogate : b.toNat = 237
    · simp [surrogate]
    · simp [first, surrogate, most]

theorem utf8Start_four (least : 240 ≤ b.toNat) (most : b.toNat < 245) :
    utf8Start b = .begin ⟨1, 3, if b.toNat = 240 then 144 else 128,
      if b.toNat = 244 then 143 else 191, b.toNat - 240⟩ := by
  rw [utf8Start_eq, if_neg (by omega), if_neg (by omega), if_neg (by omega), if_neg (by omega),
    if_neg (by omega), if_neg (by omega)]
  by_cases first : b.toNat = 240
  · simp [first]
  · by_cases last : b.toNat = 244
    · simp [last]
    · simp [first, last, show b.toNat < 244 by omega]

/-- Some bytes are owed after a first one, and they are continuation bytes. -/
theorem Utf8Pending.bounds_of_start (start : utf8Start b = .begin p) :
    0 < p.owed ∧ 128 ≤ p.low.toNat ∧ p.high.toNat ≤ 191 := by
  rw [utf8Start_eq] at start
  repeat' split at start
  all_goals cases start
  all_goals simp

/-- What a first byte leads to is a character: no surrogate, and nothing beyond the last one. -/
theorem Utf8Pending.Leads.isValidChar (leads : p.Leads n) (start : utf8Start b = .begin p) :
    n.isValidChar := by
  obtain ⟨gathered, above, below⟩ := leads
  rw [utf8Start_eq] at start
  repeat' split at start
  all_goals cases start
  all_goals
    simp only [Nat.reducePow, Nat.reduceSub, UInt8.reduceToNat, Nat.div_one] at gathered above below
    unfold Nat.isValidChar
    omega

/-- A character is written as the bytes by which it is recognised. -/
theorem start_of_utf8EncodeChar (written : String.utf8EncodeChar c = b :: tail) :
    (utf8Start b = .char c ∧ tail = []) ∨
      ∃ p, utf8Start b = .begin p ∧ p.Leads c.toNat ∧ tail = continuation p.owed c.toNat := by
  have valid : c.toNat.isValidChar := c.valid
  unfold Nat.isValidChar at valid
  have value : c.val.toNat = c.toNat := rfl
  simp only [String.utf8EncodeChar, value] at written
  split at written
  · rw [List.cons_eq_cons] at written
    obtain ⟨rfl, rfl⟩ := written
    rw [utf8Start_eq, toNat_byte (by omega), if_pos (by omega), Char.ofNat_toNat]
    exact .inl ⟨rfl, rfl⟩
  · right
    repeat' split at written
    all_goals
      rw [List.cons_eq_cons] at written
      obtain ⟨first, rfl⟩ := written
      have byte := congrArg UInt8.toNat first
      rw [toNat_byte (by omega)] at byte
    · refine ⟨_, utf8Start_two (by omega) (by omega), ⟨?_, ?_, ?_⟩,
        by simp only [continuation, Nat.reducePow, Nat.div_one]⟩
      all_goals
        simp only [Nat.reducePow, Nat.reduceSub, UInt8.reduceToNat, Nat.div_one]
        omega
    · refine ⟨_, utf8Start_three (by omega) (by omega), ⟨?_, ?_, ?_⟩,
        by simp only [continuation, Nat.reducePow, Nat.div_one]⟩
      all_goals simp only [Nat.reducePow, Nat.reduceSub]
      · omega
      · split <;> simp only [UInt8.reduceToNat] <;> omega
      · split <;> simp only [UInt8.reduceToNat] <;> omega
    · refine ⟨_, utf8Start_four (by omega) (by omega), ⟨?_, ?_, ?_⟩,
        by simp only [continuation, Nat.reducePow, Nat.div_one]⟩
      all_goals simp only [Nat.reducePow, Nat.reduceSub]
      · omega
      · split <;> simp only [UInt8.reduceToNat] <;> omega
      · split <;> simp only [UInt8.reduceToNat] <;> omega

theorem utf8EncodeChar_of_char (start : utf8Start b = .char c) :
    String.utf8EncodeChar c = [b] := by
  rw [utf8Start_eq] at start
  repeat' split at start
  all_goals cases start
  next small =>
    have value : (Char.ofNat b.toNat).val.toNat = b.toNat := toNat_char (.inl (by omega))
    rw [String.utf8EncodeChar, value, if_pos (by omega), UInt8.ofNat_toNat]

theorem utf8EncodeChar_of_begin (start : utf8Start b = .begin p) (leads : p.Leads c.toNat) :
    String.utf8EncodeChar c = b :: continuation p.owed c.toNat := by
  obtain ⟨gathered, above, below⟩ := leads
  have value : c.val.toNat = c.toNat := rfl
  rw [utf8Start_eq] at start
  repeat' split at start
  all_goals cases start
  all_goals
    simp only [Nat.reducePow, Nat.reduceSub, UInt8.reduceToNat, Nat.div_one] at gathered above below
    simp only [String.utf8EncodeChar, value, continuation, Nat.reducePow, Nat.div_one]
    repeat' split
  -- Only the length that the first byte announces is left.
  all_goals first
    | omega
    | rw [List.cons_eq_cons]
      exact ⟨UInt8.toNat_inj.mp (by rw [toNat_byte (by omega)]; omega), rfl⟩

/-! What a character starts with tells, case by case, which characters start with a byte. -/

theorem utf8EncodeChar_iff_of_char {c' : Char} (start : utf8Start b = .char c) :
    String.utf8EncodeChar c' = b :: tail ↔ c' = c ∧ tail = [] := by
  constructor
  · intro encoded
    rcases start_of_utf8EncodeChar encoded with ⟨start', last⟩ | ⟨p, start', -⟩
    · exact ⟨Utf8Start.char.inj (start'.symm.trans start), last⟩
    · cases start.symm.trans start'
  · rintro ⟨rfl, rfl⟩
    exact utf8EncodeChar_of_char start

theorem utf8EncodeChar_iff_of_begin (start : utf8Start b = .begin p) :
    String.utf8EncodeChar c = b :: tail ↔
      p.Leads c.toNat ∧ tail = continuation p.owed c.toNat := by
  constructor
  · intro encoded
    rcases start_of_utf8EncodeChar encoded with ⟨start', -⟩ | ⟨p', start', leads, rest⟩
    · cases start.symm.trans start'
    · obtain rfl : p = p' := Utf8Start.begin.inj (start.symm.trans start')
      exact ⟨leads, rest⟩
  · rintro ⟨leads, rfl⟩
    exact utf8EncodeChar_of_begin start leads

theorem utf8EncodeChar_ne_of_invalid (start : utf8Start b = .invalid) :
    String.utf8EncodeChar c ≠ b :: tail := by
  intro encoded
  rcases start_of_utf8EncodeChar encoded with ⟨start', -⟩ | ⟨p, start', -⟩
  · cases start.symm.trans start'
  · cases start.symm.trans start'

/-! ## The bytes after the first -/

/-- The next byte is in range and has the next six bits of the code point in it. -/
theorem Utf8Pending.leads_and_byte_iff (owes : p.owed = k + 1) (low : 128 ≤ p.low.toNat)
    (high : p.high.toNat ≤ 191) :
    p.Leads n ∧ b = UInt8.ofNat (n / 64 ^ k % 64 + 128) ↔
      (p.low ≤ b ∧ b ≤ p.high) ∧ n / 64 ^ k = p.bits * 64 + (b.toNat - 128) := by
  have byte : (UInt8.ofNat (n / 64 ^ k % 64 + 128)).toNat = n / 64 ^ k % 64 + 128 :=
    toNat_byte (by omega)
  have shift : n / 64 ^ (k + 1) = n / 64 ^ k / 64 := by rw [Nat.pow_succ, Nat.div_div_eq_div_mul]
  rw [UInt8.le_iff_toNat_le, UInt8.le_iff_toNat_le, ← UInt8.toNat_inj, byte]
  constructor
  · rintro ⟨⟨gathered, above, below⟩, read⟩
    rw [owes, shift] at gathered
    rw [owes, Nat.add_sub_cancel] at above below
    omega
  · rintro ⟨within, read⟩
    refine ⟨⟨?_, ?_, ?_⟩, by omega⟩
    · rw [owes, shift]
      omega
    · rw [owes, Nat.add_sub_cancel]
      omega
    · rw [owes, Nat.add_sub_cancel]
      omega

/-- With all of a continuation byte to choose from, the bits gathered say it all. -/
theorem Utf8Pending.leads_iff_of_full (low : p.low = 128) (high : p.high = 191) :
    p.Leads n ↔ n / 64 ^ p.owed = p.bits := by
  refine ⟨Leads.gathered, fun gathered => ⟨gathered, ?_, ?_⟩⟩
  · simp only [low, UInt8.reduceToNat]
    omega
  · simp only [high, UInt8.reduceToNat]
    omega

/-- What completes a sequence is the next byte and what completes the sequence after it. -/
theorem exists_completion_iff (owes : p.owed = k + 1) (low : 128 ≤ p.low.toNat)
    (high : p.high.toNat ≤ 191) {R : Nat → List UInt8 → Prop} :
    (∃ n rest, p.Leads n ∧ b :: bytes = continuation (k + 1) n ++ rest ∧ R n rest) ↔
      (p.low ≤ b ∧ b ≤ p.high) ∧ ∃ n rest, n / 64 ^ k = p.bits * 64 + (b.toNat - 128) ∧
        bytes = continuation k n ++ rest ∧ R n rest := by
  have first_iff (n : Nat) (rest : List UInt8) :
      (p.Leads n ∧ b :: bytes = continuation (k + 1) n ++ rest ∧ R n rest) ↔
        (p.low ≤ b ∧ b ≤ p.high) ∧ n / 64 ^ k = p.bits * 64 + (b.toNat - 128) ∧
          bytes = continuation k n ++ rest ∧ R n rest := by
    rw [continuation, List.cons_append, List.cons_eq_cons, and_assoc, ← and_assoc,
      Utf8Pending.leads_and_byte_iff owes low high, and_assoc]
  simp only [first_iff, exists_and_left]

/-- An open sequence goes on with a byte in range and with nothing else. -/
theorem go_pending_cons_iff :
    ofUtf8.go out offset (some (p, first)) (b :: bytes) = .ok text ↔
      (p.low ≤ b ∧ b ≤ p.high) ∧
        (match p.next b with
          | .inl c => ofUtf8.go (c :: out) (offset + 1) none bytes
          | .inr q => ofUtf8.go out (offset + 1) (some (q, first)) bytes) = .ok text := by
  simp only [ofUtf8.go, Bool.and_eq_true, decide_eq_true_eq]
  split
  next within => exact (and_iff_right within).symm
  next beyond => simp only [reduceCtorEq, beyond, false_and]

/-- An open sequence is read to its end exactly when the bytes owed are those of a code point that
it leads to. The induction is on their number. -/
theorem go_pending_iff (owes : p.owed = k + 1) (low : 128 ≤ p.low.toNat)
    (high : p.high.toNat ≤ 191) :
    ofUtf8.go out offset (some (p, first)) bytes = .ok text ↔
      ∃ n rest, p.Leads n ∧ bytes = continuation (k + 1) n ++ rest ∧
        ofUtf8.go (Char.ofNat n :: out) (offset + (k + 1)) none rest = .ok text := by
  induction k generalizing p offset bytes with
  | zero =>
    cases bytes with
    | nil => simp [ofUtf8.go, continuation]
    | cons b bytes =>
      have next : p.next b = .inl (Char.ofNat (p.bits * 64 + (b.toNat - 128))) :=
        if_pos (Nat.le_of_eq owes)
      rw [go_pending_cons_iff, exists_completion_iff owes low high, next]
      simp [continuation]
  | succ k ih =>
    cases bytes with
    | nil => simp [ofUtf8.go, continuation]
    | cons b bytes =>
      have next : p.next b =
          .inr ⟨p.seen + 1, p.owed - 1, 128, 191, p.bits * 64 + (b.toNat - 128)⟩ :=
        if_neg (by omega)
      rw [go_pending_cons_iff, exists_completion_iff owes low high, next]
      -- From the second byte on every continuation byte is in range.
      have owed : p.owed - 1 = k + 1 := by omega
      have moved : offset + 1 + (k + 1) = offset + (k + 1 + 1) := by omega
      dsimp only
      rw [ih owed (by simp) (by simp)]
      simp only [Utf8Pending.leads_iff_of_full, owed, moved]

/-! ## Texts -/

theorem utf8_cons (c : Char) (text : List Char) :
    utf8 (c :: text) = String.utf8EncodeChar c ++ utf8 text :=
  List.flatMap_cons

theorem utf8EncodeChar_ne_nil (c : Char) : String.utf8EncodeChar c ≠ [] := by
  rw [String.utf8EncodeChar]
  repeat' split
  all_goals exact List.cons_ne_nil _ _

/-- Bytes are a text when they are a character and, behind it, a text. -/
theorem exists_utf8_cons_iff {P : List Char → Prop} :
    (∃ text, b :: bytes = utf8 text ∧ P text) ↔
      ∃ c tail, String.utf8EncodeChar c = b :: tail ∧
        ∃ text, bytes = tail ++ utf8 text ∧ P (c :: text) := by
  constructor
  · rintro ⟨text, written, holds⟩
    cases text with
    | nil => cases written
    | cons c text =>
      obtain ⟨b', tail, encoded⟩ := List.exists_cons_of_ne_nil (utf8EncodeChar_ne_nil c)
      rw [utf8_cons, encoded, List.cons_append, List.cons_eq_cons] at written
      obtain ⟨rfl, rfl⟩ := written
      exact ⟨c, tail, encoded, text, rfl, holds⟩
  · rintro ⟨c, tail, encoded, text, rfl, holds⟩
    exact ⟨c :: text, by rw [utf8_cons, encoded, List.cons_append], holds⟩

/-- What is read is what is written. The induction is on the number of bytes. -/
theorem go_iff (bytes : List UInt8) (out text : List Char) (offset : Nat) :
    ofUtf8.go out offset none bytes = .ok text ↔
      ∃ more, bytes = utf8 more ∧ text = out.reverse ++ more := by
  induction size : bytes.length using Nat.strongRecOn generalizing bytes out offset with
  | ind size ih =>
    subst size
    cases bytes with
    | nil =>
      simp only [ofUtf8.go, Except.ok.injEq]
      constructor
      · rintro rfl
        exact ⟨[], rfl, (List.append_nil _).symm⟩
      · rintro ⟨more, written, rfl⟩
        cases more with
        | nil => exact (List.append_nil _).symm
        | cons c more =>
          exact absurd (List.append_eq_nil_iff.mp written.symm).1 (utf8EncodeChar_ne_nil c)
    | cons b rest =>
      rw [exists_utf8_cons_iff]
      simp only [ofUtf8.go, ofUtf8.start]
      cases start : utf8Start b with
      | char c =>
        dsimp only
        rw [ih rest.length (Nat.lt_succ_self _) rest (c :: out) (offset + 1) rfl]
        simp [utf8EncodeChar_iff_of_char start]
      | begin p =>
        obtain ⟨owes, low, high⟩ := Utf8Pending.bounds_of_start start
        have owed : p.owed - 1 + 1 = p.owed := Nat.sub_add_cancel owes
        have shorter (tail rest : List UInt8) : rest.length < (b :: (tail ++ rest)).length := by
          rw [List.length_cons, List.length_append]
          omega
        dsimp only
        rw [go_pending_iff owed.symm low high, owed]
        simp only [utf8EncodeChar_iff_of_begin start]
        constructor
        · rintro ⟨n, rest', leads, rfl, run⟩
          have value : (Char.ofNat n).toNat = n := toNat_char (leads.isValidChar start)
          obtain ⟨more, rfl, rfl⟩ := (ih rest'.length (shorter _ rest') rest' _ _ rfl).mp run
          exact ⟨Char.ofNat n, _, ⟨value.symm ▸ leads, rfl⟩, more, by rw [value], by simp⟩
        · rintro ⟨c, _, ⟨leads, rfl⟩, more, rfl, rfl⟩
          refine ⟨c.toNat, utf8 more, leads, rfl, ?_⟩
          rw [Char.ofNat_toNat]
          exact (ih (utf8 more).length (shorter _ _) _ _ _ rfl).mpr ⟨more, rfl, by simp⟩
      | invalid => simp [utf8EncodeChar_ne_of_invalid start]

/-- Bytes are read as a text exactly when the text is written as these bytes. -/
theorem ofUtf8_ok_iff : ofUtf8 bytes = .ok text ↔ bytes = utf8 text := by
  rw [ofUtf8, go_iff]
  simp

theorem ofUtf8_utf8 (text : List Char) : ofUtf8 (utf8 text) = .ok text :=
  ofUtf8_ok_iff.mpr rfl

theorem utf8_injective : Function.Injective utf8 := fun a b same =>
  Except.ok.inj ((ofUtf8_utf8 a).symm.trans (same ▸ ofUtf8_utf8 b))

/-! ## Order -/

/-- The bytes of the lower character are less, whatever follows. -/
theorem utf8EncodeChar_append_lt {c c' : Char} (lower : c.toNat < c'.toNat)
    (rest rest' : List UInt8) :
    String.utf8EncodeChar c ++ rest < String.utf8EncodeChar c' ++ rest' := by
  have valid : c'.toNat.isValidChar := c'.valid
  unfold Nat.isValidChar at valid
  have value (c : Char) : c.val.toNat = c.toNat := rfl
  -- Six bits at a time, so that the first six that differ decide.
  have twelve (n : Nat) : n / 4096 = n / 64 / 64 := by omega
  have eighteen (n : Nat) : n / 262144 = n / 64 / 64 / 64 := by omega
  simp only [String.utf8EncodeChar, value, twelve, eighteen]
  generalize c.toNat = n at *
  generalize c'.toNat = n' at *
  -- The longer a character is written, the greater its first byte.
  repeat' split
  all_goals
    simp (disch := omega) only [List.cons_append, List.nil_append, List.cons_lt_cons_iff,
      UInt8.lt_iff_toNat_lt, ← UInt8.toNat_inj, toNat_byte]
    omega

theorem utf8_lt_utf8 {text text' : List Char} (less : text < text') : utf8 text < utf8 text' := by
  induction text generalizing text' with
  | nil =>
    cases text' with
    | nil => exact absurd less (List.lt_irrefl _)
    | cons c text' =>
      obtain ⟨b, tail, encoded⟩ := List.exists_cons_of_ne_nil (utf8EncodeChar_ne_nil c)
      rw [utf8_cons, encoded]
      exact List.nil_lt_cons _ _
  | cons c text ih =>
    cases text' with
    | nil => exact absurd less (List.not_lt_nil _)
    | cons c' text' =>
      rw [utf8_cons, utf8_cons]
      rcases List.cons_lt_cons_iff.mp less with lower | ⟨rfl, later⟩
      · exact utf8EncodeChar_append_lt lower _ _
      · exact List.append_left_lt (ih later)

/-- Bytes are in the order of the texts that they write. -/
theorem utf8_lt_utf8_iff {text text' : List Char} : utf8 text < utf8 text' ↔ text < text' := by
  refine ⟨fun less => ?_, utf8_lt_utf8⟩
  rcases lt_trichotomy text text' with before | rfl | behind
  · exact before
  · exact absurd less (List.lt_irrefl _)
  · exact absurd less (List.lt_asymm (utf8_lt_utf8 behind))

end CodeAtlas.Text
