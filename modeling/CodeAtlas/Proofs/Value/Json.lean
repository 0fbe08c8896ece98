import CodeAtlas.Proofs.Value.Numeral

/-!
# Stored values

A table keeps a value as JSON text: a blank after each comma and colon, short escapes where there
are any, everything outside printable ASCII as one unit or as a surrogate pair. Read back it is the
value that was stored, numbers included.

## Main results

`parse?_stored`: the stored text of a storable value is read as that value.

## Proof strategy

What follows a value never carries it on, so each part is read up to its own end: a character
(`string?_storedChar`), a text (`string?_storedQuote`), a number (`value?_of_number?`). A value is
read by induction on what it is made of, with fuel for every character (`readBack_of_storable`).
-/

namespace CodeAtlas

open Number (plain)

/-! ### Storable values -/

/-- A value that JSON text can hold: finite numbers, and different keys in each object. -/
inductive Value.Storable : Value → Prop where
  | null : Storable .null
  | bool (b : Bool) : Storable (.bool b)
  | int (n : Int) : Storable (.int n)
  | real {x : Float} (finite : x.isFinite = true) : Storable (.real x)
  | text (s : String) : Storable (.text s)
  | list {items : List Value} (each : ∀ v ∈ items, Storable v) : Storable (.list items)
  | object {entries : List (String × Value)} (different : (entries.map Prod.fst).Nodup)
      (each : ∀ e ∈ entries, Storable e.2) : Storable (.object entries)

namespace Json

/-- One character inside quotes, by a short escape where there is one. -/
def storedChar (c : Char) : List Char :=
  if c == '\x08' then ['\\', 'b']
  else if c == '\x0c' then ['\\', 'f']
  else if c == '\n' then ['\\', 'n']
  else if c == '\r' then ['\\', 'r']
  else if c == '\t' then ['\\', 't']
  else escaped c

/-- A text in quotes. -/
def storedQuote (s : String) : List Char :=
  '\x22' :: (s.toList.flatMap storedChar ++ ['\x22'])

mutual

/-- A value as it is stored. -/
def stored : Value → List Char
  | .null => "null".toList
  | .bool b => if b then "true".toList else "false".toList
  | .int n => (toString n).toList
  | .real x => (plain.shortest x).toList
  | .text s => storedQuote s
  | .time s => storedQuote s
  | .bytes data => storedQuote (String.ofList (data.map fun b => Char.ofNat b.toNat))
  | .list items =>
    match items with
    | [] => "[]".toList
    | v :: rest => '[' :: (stored v ++ storedItems rest)
  | .object entries =>
    match entries with
    | [] => "\x7b\x7d".toList
    | (key, v) :: rest =>
      '\x7b' :: (storedQuote key ++ ':' :: ' ' :: (stored v ++ storedEntries rest))

/-- Further items of a list and its end. -/
def storedItems : List Value → List Char
  | [] => [']']
  | v :: rest => ',' :: ' ' :: (stored v ++ storedItems rest)

/-- Further entries of an object and its end. -/
def storedEntries : List (String × Value) → List Char
  | [] => ['\x7d']
  | (key, v) :: rest =>
    ',' :: ' ' :: (storedQuote key ++ ':' :: ' ' :: (stored v ++ storedEntries rest))

end

/-! ### Characters and texts -/

theorem hexDigits_succ {width : Nat} (pos : 0 < width) (n : Nat) :
    Text.hexDigits (width + 1) n = Text.hexDigits width (n / 16) ++ [(n % 16).digitChar] := by
  obtain ⟨width, rfl⟩ := Nat.exists_eq_add_one.mpr pos
  by_cases one : n < 16
  · rw [Text.hexDigits, Text.hexDigits, Nat.div_eq_of_lt one, Nat.mod_eq_of_lt one,
      Nat.toDigits_of_lt_base one, Nat.toDigits_of_lt_base (by decide)]
    simp [List.replicate_succ']
  · rw [Text.hexDigits, Text.hexDigits, Nat.toDigits_of_base_le (by decide) (Nat.not_lt.mp one)]
    simp

theorem hexDigit?_digitChar : ∀ n < 16, hexDigit? n.digitChar = some n := by decide

/-- A unit is read from its four digits. -/
theorem hex4?_hexDigits {n : Nat} (less : n < 0x10000) (rest : List Char) :
    hex4? (Text.hexDigits 4 n ++ rest) = some (n, rest) := by
  have one : Text.hexDigits 1 (n / 16 / 16 / 16) = [(n / 16 / 16 / 16).digitChar] := by
    rw [Text.hexDigits, Nat.toDigits_of_lt_base (by omega)]
    rfl
  rw [hexDigits_succ (by decide), hexDigits_succ (by decide), hexDigits_succ (by decide), one]
  simp only [hex4?, List.cons_append, List.nil_append,
    hexDigit?_digitChar _ (Nat.mod_lt _ (by decide)),
    hexDigit?_digitChar (n / 16 / 16 / 16) (by omega), Option.bind_eq_bind, Option.bind_some,
    Option.pure_def, Option.some.injEq, Prod.mk.injEq, and_true]
  omega

/-- The two units of a surrogate pair are read as one character. -/
theorem escape?_pair {a b : List Char} {n m : Nat} {c : Char}
    (first : ∀ rest, hex4? (a ++ rest) = some (n, rest))
    (second : ∀ rest, hex4? (b ++ rest) = some (m, rest)) (high : isHigh n = true)
    (low : isLow m = true) (code : 0x10000 + (n - 0xd800) * 0x400 + (m - 0xdc00) = c.toNat)
    (rest : List Char) : escape? ('u' :: (a ++ '\\' :: 'u' :: (b ++ rest))) = some (c, rest) := by
  simp only [escape?, first, second, Option.bind_eq_bind, Option.bind_some, high, low,
    Bool.and_self, if_true, code, Char.ofNat_toNat]

/-- A unit that is no part of a pair is read as its character, whatever follows. -/
theorem escape?_unit {a : List Char} {n : Nat}
    (read : ∀ rest, hex4? (a ++ rest) = some (n, rest)) (high : isHigh n = false)
    (rest : List Char) : escape? ('u' :: (a ++ rest)) = some (charOf n, rest) := by
  simp only [escape?, read, Option.bind_eq_bind, Option.bind_some, high, Bool.false_and,
    Bool.false_eq_true, if_false]
  repeat' split
  all_goals rfl

/-- A character that is one unit is read from the escape of that unit. -/
theorem escape?_within {c : Char} (less : c.toNat < 0x10000) (rest : List Char) :
    escape? ('u' :: (Text.hexDigits 4 c.toNat ++ rest)) = some (c, rest) := by
  have valid : c.toNat < 0xd800 ∨ 0xdfff < c.toNat ∧ c.toNat < 0x110000 := c.valid
  obtain ⟨noHigh, noLow⟩ : isHigh c.toNat = false ∧ isLow c.toNat = false := by
    simp only [isHigh, isLow, Bool.and_eq_false_iff, decide_eq_false_iff_not]
    omega
  have own : charOf c.toNat = c := by
    rw [charOf, noHigh, noLow]
    exact Char.ofNat_toNat c
  rw [escape?_unit (hex4?_hexDigits less) noHigh, own]

/-- A character beyond one unit is read from the escapes of its surrogate pair. -/
theorem escape?_beyond {c : Char} (beyond : 0x10000 ≤ c.toNat) (rest : List Char) :
    escape? ('u' :: (Text.hexDigits 4 (0xd800 + (c.toNat - 0x10000) / 0x400) ++
      '\\' :: 'u' :: (Text.hexDigits 4 (0xdc00 + (c.toNat - 0x10000) % 0x400) ++ rest))) =
        some (c, rest) := by
  have valid : c.toNat < 0xd800 ∨ 0xdfff < c.toNat ∧ c.toNat < 0x110000 := c.valid
  generalize first_eq : 0xd800 + (c.toNat - 0x10000) / 0x400 = first
  generalize second_eq : 0xdc00 + (c.toNat - 0x10000) % 0x400 = second
  have high : isHigh first = true := by
    simp only [isHigh, Bool.and_eq_true, decide_eq_true_eq]
    omega
  have low : isLow second = true := by
    simp only [isLow, Bool.and_eq_true, decide_eq_true_eq]
    omega
  exact escape?_pair (hex4?_hexDigits (show first < 0x10000 by omega))
    (hex4?_hexDigits (show second < 0x10000 by omega)) high low (show _ = c.toNat by omega) rest

/-- A character is stored as itself or by an escape that is read as it. -/
theorem storedChar_cases (c : Char) :
    (storedChar c = [c] ∧ c ≠ '\x22' ∧ c ≠ '\\' ∧ ¬ c.val < 0x20) ∨
      ∃ code, storedChar c = '\\' :: code ∧ ∀ rest, escape? (code ++ rest) = some (c, rest) := by
  by_cases short : c ∈ ['\x08', '\x0c', '\n', '\r', '\t']
  · fin_cases short <;> exact .inr ⟨_, rfl, fun _ => rfl⟩
  simp only [List.mem_cons, List.not_mem_nil, or_false, not_or] at short
  have long : storedChar c = escaped c := by
    simp [storedChar, short]
  rw [long, escaped]
  by_cases special : c = '\x22' ∨ c = '\\'
  · right
    obtain rfl | rfl := special <;> exact ⟨_, rfl, fun _ => rfl⟩
  rw [not_or] at special
  rw [if_neg (by simpa using special)]
  by_cases printable : 0x20 ≤ c.val ∧ c.val < 0x7f
  · left
    rw [if_pos (by simpa using printable)]
    exact ⟨rfl, special.1, special.2, UInt32.not_lt.mpr printable.1⟩
  right
  rw [if_neg (by simpa using printable)]
  by_cases unit : c.val < 0x10000
  · rw [if_pos unit]
    exact ⟨_, rfl, escape?_within unit⟩
  · rw [if_neg unit]
    have joined (a b : List Char) : ('\\' :: 'u' :: a) ++ ('\\' :: 'u' :: b) =
        '\\' :: 'u' :: (a ++ '\\' :: 'u' :: b) := rfl
    simp only
    rw [joined]
    refine ⟨_, rfl, fun rest => ?_⟩
    rw [List.cons_append, List.append_assoc, List.cons_append, List.cons_append,
      escape?_beyond (UInt32.not_lt.mp unit)]

/-- A character inside quotes is read with what stands for it. -/
theorem string?_storedChar (c : Char) (fuel : Nat) (done rest : List Char) :
    string? (fuel + 1) done (storedChar c ++ rest) = string? fuel (c :: done) rest := by
  obtain ⟨same, noQuote, noEscape, control⟩ | ⟨code, same, read⟩ := storedChar_cases c
  · rw [same, List.singleton_append, string?, if_neg (by simpa using noQuote),
      if_neg (by simpa using noEscape), if_neg control]
  · rw [same, List.cons_append, string?, if_neg (by decide), if_pos (by decide), read]
    rfl

theorem storedChar_ne_nil (c : Char) : storedChar c ≠ [] := by
  obtain ⟨same, -⟩ | ⟨code, same, -⟩ := storedChar_cases c <;> simp [same]

/-- A text is read up to its closing quote. -/
theorem string?_flatMap (cs rest : List Char) {fuel : Nat} (enough : cs.length < fuel)
    (done : List Char) : string? fuel done (cs.flatMap storedChar ++ '\x22' :: rest) =
      some (String.ofList (done.reverse ++ cs), rest) := by
  induction cs generalizing fuel done with
  | nil =>
    obtain ⟨fuel, rfl⟩ := Nat.exists_eq_add_one.mpr enough
    simp [string?]
  | cons c cs ih =>
    obtain ⟨fuel, rfl⟩ := Nat.exists_eq_add_one.mpr (Nat.zero_lt_of_lt enough)
    rw [List.flatMap_cons, List.append_assoc, string?_storedChar, ih (by simpa using enough)]
    simp

theorem length_le_flatMap (cs : List Char) : cs.length ≤ (cs.flatMap storedChar).length := by
  induction cs with
  | nil => rfl
  | cons c cs ih =>
    have pos := List.length_pos_of_ne_nil (storedChar_ne_nil c)
    rw [List.flatMap_cons, List.length_append, List.length_cons]
    omega

/-- Behind an opening quote stands the text that was stored. -/
theorem string?_storedQuote (s : String) (rest : List Char) : ∃ more,
    storedQuote s ++ rest = '\x22' :: more ∧ string? more.length [] more = some (s, rest) := by
  refine ⟨s.toList.flatMap storedChar ++ '\x22' :: rest, by simp [storedQuote], ?_⟩
  have enough : s.toList.length <
      (s.toList.flatMap storedChar ++ '\x22' :: rest).length := by
    have le := length_le_flatMap s.toList
    rw [List.length_append, List.length_cons]
    omega
  rw [string?_flatMap s.toList rest enough, List.reverse_nil, List.nil_append, String.ofList_toList]

/-! ### Objects -/

theorem put_append {key : String} {value : Value} {done : List (String × Value)}
    (fresh : key ∉ done.map Prod.fst) : Value.put done key value = done ++ [(key, value)] := by
  induction done with
  | nil => rfl
  | cons entry done ih =>
    obtain ⟨k, v⟩ := entry
    rw [List.map_cons, List.mem_cons, not_or] at fresh
    rw [Value.put, if_neg (by simpa using Ne.symm fresh.1), ih fresh.2, List.cons_append]

/-- Entries with different keys are an object as they are. -/
theorem ofEntries_eq {entries : List (String × Value)} (different : (entries.map Prod.fst).Nodup) :
    Value.ofEntries entries = entries := by
  suffices general : ∀ done : List (String × Value), ((done ++ entries).map Prod.fst).Nodup →
      entries.foldl (fun done e => Value.put done e.1 e.2) done = done ++ entries from
    general [] different
  clear different
  induction entries with
  | nil => simp
  | cons entry entries ih =>
    intro done different
    have fresh : entry.1 ∉ done.map Prod.fst := by
      rw [List.map_append, List.map_cons] at different
      intro mem
      exact (List.disjoint_of_nodup_append different) mem List.mem_cons_self
    rw [List.foldl_cons, put_append fresh, ih _ (by simpa using different), List.append_assoc]
    rfl

/-! ### Values -/

/-- What stands at the start of a number. -/
def StartsNumber (c : Char) : Prop :=
  c.isDigit = true ∨ c ∈ ['-', 'N', 'I']

theorem startsNumber_of_number? {s rest : List Char} {v : Value}
    (read : number? s = some (v, rest)) : ∃ c more, s = c :: more ∧ StartsNumber c := by
  cases s with
  | nil => cases read
  | cons c more =>
    refine ⟨c, more, rfl, ?_⟩
    by_contra other
    simp only [StartsNumber, List.mem_cons, List.not_mem_nil, or_false, not_or] at other
    obtain ⟨noDigit, noMinus, noN, noI⟩ := other
    have noNaN : "NaN".toList.isPrefixOf (c :: more) = false :=
      isPrefixOf_of_ne noN "aN".toList more
    have noPlus : "Infinity".toList.isPrefixOf (c :: more) = false :=
      isPrefixOf_of_ne noI "nfinity".toList more
    have noInfinity : "-Infinity".toList.isPrefixOf (c :: more) = false :=
      isPrefixOf_of_ne noMinus "Infinity".toList more
    have nothing : magnitude? false (c :: more) = none := by
      simp [magnitude?, Number.digits, noDigit]
    unfold number? at read
    simp only [noNaN, noPlus, noInfinity, Bool.false_eq_true, if_false, Option.none_or] at read
    split at read
    next same => exact noMinus (List.cons.inj same).1
    next => rw [nothing] at read; cases read

theorem StartsNumber.ne {c : Char} (starts : StartsNumber c) :
    ∀ x ∈ [' ', '\t', '\n', '\r', '\x22', '\x7b', '[', ']', 'n', 't', 'f'], c ≠ x := by
  rintro x mem rfl
  obtain digit | mark := starts
  · fin_cases mem <;> cases digit
  · fin_cases mark <;> simp at mem

theorem skip_cons {c : Char} (noSpace : isSpace c = false) (s : List Char) :
    skip (c :: s) = c :: s := by
  rw [skip, List.dropWhile_cons_of_neg (by simp [noSpace])]

/-- Where a number stands it is read. -/
theorem value?_of_number? {s rest : List Char} {v : Value} (read : number? s = some (v, rest))
    (fuel : Nat) : value? (fuel + 1) s = some (v, rest) := by
  obtain ⟨c, more, rfl, starts⟩ := startsNumber_of_number? read
  have ne := starts.ne
  simp only [List.forall_mem_cons] at ne
  have noSpace : isSpace c = false := by simp [isSpace, ne]
  have noNull : "null".toList.isPrefixOf (c :: more) = false :=
    isPrefixOf_of_ne (starts.ne 'n' (by simp)) "ull".toList more
  have noTrue : "true".toList.isPrefixOf (c :: more) = false :=
    isPrefixOf_of_ne (starts.ne 't' (by simp)) "rue".toList more
  have noFalse : "false".toList.isPrefixOf (c :: more) = false :=
    isPrefixOf_of_ne (starts.ne 'f' (by simp)) "alse".toList more
  rw [value?, skip_cons noSpace]
  simp only [noNull, noTrue, noFalse, Bool.false_eq_true, if_false]
  split
  next same => cases same
  next same => simp_all
  next same => simp_all
  next same => simp_all
  next => exact read

/-- A value is read from its stored text, whatever follows it without carrying it on. -/
def ReadBack (v : Value) : Prop :=
  ∀ {fuel : Nat} {rest : List Char}, 2 * (stored v).length ≤ fuel → EndsNumber rest →
    value? fuel (stored v ++ rest) = some (v, rest)

theorem value?_blank (fuel : Nat) (s : List Char) : value? fuel (' ' :: s) = value? fuel s := by
  cases fuel <;> rfl

theorem items?_blank (fuel : Nat) (done : List Value) (s : List Char) :
    items? fuel done (' ' :: s) = items? fuel done s := by
  cases fuel with
  | zero => rfl
  | succ fuel => rw [items?, items?, value?_blank]

theorem entries?_blank (fuel : Nat) (done : List (String × Value)) (s : List Char) :
    entries? fuel done (' ' :: s) = entries? fuel done s := by
  cases fuel <;> rfl

theorem endsNumber_cons {c : Char} {rest : List Char} (ends : c ∈ [',', ']', '\x7d']) :
    EndsNumber (c :: rest) := by
  rintro _ ⟨⟩
  fin_cases ends <;> decide

/-- Items are read up to the bracket behind them. -/
theorem items?_stored {v : Value} {more : List Value} (first : ReadBack v)
    (others : ∀ w ∈ more, ReadBack w) {fuel : Nat}
    (enough : 2 * (stored v ++ storedItems more).length < fuel) (done : List Value)
    (rest : List Char) :
    items? fuel done (stored v ++ (storedItems more ++ rest)) =
      some (.list (done.reverse ++ v :: more), rest) := by
  obtain ⟨fuel, rfl⟩ := Nat.exists_eq_add_one.mpr (Nat.zero_lt_of_lt enough)
  induction more generalizing v fuel done with
  | nil =>
    have ends : EndsNumber (storedItems [] ++ rest) := endsNumber_cons (by simp)
    rw [List.length_append] at enough
    rw [items?, first (by omega) ends]
    simp [storedItems, skip, isSpace]
  | cons w more ih =>
    have ends : EndsNumber (storedItems (w :: more) ++ rest) := endsNumber_cons (by simp)
    rw [List.length_append, storedItems, List.length_cons, List.length_cons] at enough
    obtain ⟨fuel, rfl⟩ := Nat.exists_eq_add_one.mpr (show 0 < fuel by omega)
    rw [items?, first (by omega) ends]
    simp only [storedItems, List.cons_append, skip_cons (show isSpace ',' = false from rfl),
      items?_blank, List.append_assoc]
    rw [ih (others w List.mem_cons_self) (fun x mem => others x (List.mem_cons_of_mem w mem)) _
      fuel (by omega)]
    simp

/-- Entries with different keys are read up to the brace behind them. -/
theorem entries?_stored {key : String} {v : Value} {more : List (String × Value)}
    (first : ReadBack v) (others : ∀ e ∈ more, ReadBack e.2) {fuel : Nat}
    (enough : 2 * (storedQuote key ++ ':' :: ' ' :: (stored v ++ storedEntries more)).length < fuel)
    (done : List (String × Value))
    (different : ((done.reverse ++ (key, v) :: more).map Prod.fst).Nodup) (rest : List Char) :
    entries? fuel done
      (storedQuote key ++ ':' :: ' ' :: (stored v ++ (storedEntries more ++ rest))) =
        some (.object (done.reverse ++ (key, v) :: more), rest) := by
  obtain ⟨fuel, rfl⟩ := Nat.exists_eq_add_one.mpr (Nat.zero_lt_of_lt enough)
  have colon (s : List Char) : skip (':' :: s) = ':' :: s := skip_cons rfl s
  have comma (s : List Char) : skip (',' :: s) = ',' :: s := skip_cons rfl s
  have quote (s : List Char) : skip ('\x22' :: s) = '\x22' :: s := skip_cons rfl s
  induction more generalizing key v fuel done with
  | nil =>
    have ends : EndsNumber (storedEntries [] ++ rest) := endsNumber_cons (by simp)
    obtain ⟨behind, same, read⟩ :=
      string?_storedQuote key (':' :: ' ' :: (stored v ++ (storedEntries [] ++ rest)))
    simp only [List.length_append, List.length_cons] at enough
    rw [same, entries?, quote]
    simp only [read, colon, value?_blank, first (show _ ≤ fuel by omega) ends]
    simp [storedEntries, skip, isSpace, ofEntries_eq different]
  | cons w more ih =>
    obtain ⟨key', w⟩ := w
    have ends : EndsNumber (storedEntries ((key', w) :: more) ++ rest) := endsNumber_cons (by simp)
    obtain ⟨behind, same, read⟩ := string?_storedQuote key
      (':' :: ' ' :: (stored v ++ (storedEntries ((key', w) :: more) ++ rest)))
    simp only [List.length_append, List.length_cons, storedEntries] at enough
    obtain ⟨fuel, rfl⟩ := Nat.exists_eq_add_one.mpr (show 0 < fuel by omega)
    rw [same, entries?, quote]
    simp only [read, colon, value?_blank, first (show _ ≤ fuel + 1 by omega) ends]
    simp only [storedEntries, List.cons_append, comma, entries?_blank, List.append_assoc]
    rw [ih (others (key', w) List.mem_cons_self)
      (fun e mem => others e (List.mem_cons_of_mem _ mem)) _ (by simpa using different) fuel
      (by simp only [List.length_append, List.length_cons]; omega)]
    simp

/-- A stored value starts neither with a blank nor with a closing bracket. -/
theorem Storable.starts {v : Value} (storable : v.Storable) :
    ∃ c more, stored v = c :: more ∧ isSpace c = false ∧ c ≠ ']' := by
  have number {s rest : List Char} {v : Value} (read : number? s = some (v, rest)) :
      ∃ c more, s = c :: more ∧ isSpace c = false ∧ c ≠ ']' := by
    obtain ⟨c, more, same, starts⟩ := startsNumber_of_number? read
    have ne := starts.ne
    simp only [List.forall_mem_cons] at ne
    exact ⟨c, more, same, by simp [isSpace, ne], starts.ne _ (by simp)⟩
  have nothing : EndsNumber [] := fun c mem => nomatch mem
  cases storable with
  | null => exact ⟨'n', "ull".toList, rfl, rfl, by decide⟩
  | bool b => cases b with
    | true => exact ⟨'t', "rue".toList, rfl, rfl, by decide⟩
    | false => exact ⟨'f', "alse".toList, rfl, rfl, by decide⟩
  | int n => exact number (List.append_nil _ ▸ number?_toString n nothing)
  | real finite => exact number (List.append_nil _ ▸ number?_shortest finite nothing)
  | text s => exact ⟨'\x22', _, rfl, rfl, by decide⟩
  | @list items each => cases items with
    | nil => exact ⟨'[', [']'], rfl, rfl, by decide⟩
    | cons v more => exact ⟨'[', _, rfl, rfl, by decide⟩
  | @object entries different each => cases entries with
    | nil => exact ⟨'\x7b', ['\x7d'], rfl, rfl, by decide⟩
    | cons e more => exact ⟨'\x7b', _, rfl, rfl, by decide⟩

/-- Reading a stored value takes some fuel, as its text is not empty. -/
theorem readBack_of_succ {v : Value} (storable : v.Storable)
    (step : ∀ (fuel : Nat) (rest : List Char), 2 * (stored v).length ≤ fuel + 1 → EndsNumber rest →
      value? (fuel + 1) (stored v ++ rest) = some (v, rest)) : ReadBack v := by
  intro fuel rest enough ends
  obtain ⟨c, more, same, -⟩ := Storable.starts storable
  obtain ⟨fuel, rfl⟩ : ∃ n, fuel = n + 1 := by
    rw [same, List.length_cons] at enough
    exact Nat.exists_eq_add_one.mpr (by omega)
  exact step fuel rest enough ends

/-- A storable value is read from its stored text. -/
theorem readBack_of_storable {v : Value} (storable : v.Storable) : ReadBack v := by
  induction storable with
  | null => exact readBack_of_succ .null fun _ _ _ _ => rfl
  | bool b => exact readBack_of_succ (.bool b) fun _ _ _ _ => by cases b <;> rfl
  | int n =>
    exact readBack_of_succ (.int n) fun fuel _ _ ends =>
      value?_of_number? (number?_toString n ends) fuel
  | real finite =>
    exact readBack_of_succ (.real finite) fun fuel _ _ ends =>
      value?_of_number? (number?_shortest finite ends) fuel
  | text s =>
    refine readBack_of_succ (.text s) fun fuel rest _ _ => ?_
    obtain ⟨behind, same, read⟩ := string?_storedQuote s rest
    rw [stored, same, value?, skip_cons rfl]
    simp only [read, Option.map_some]
  | @list items each ih =>
    refine readBack_of_succ (.list each) fun fuel rest enough ends => ?_
    cases items with
    | nil => rfl
    | cons v more =>
      obtain ⟨c, behind, same, noSpace, noEnd⟩ := Storable.starts (each v List.mem_cons_self)
      rw [stored, List.length_cons] at enough
      have read := items?_stored (ih v List.mem_cons_self)
        (fun w mem => ih w (List.mem_cons_of_mem v mem)) (show _ < fuel by omega) [] rest
      rw [List.reverse_nil, List.nil_append] at read
      rw [stored, List.cons_append, value?, skip_cons rfl, List.append_assoc]
      simp only [← read]
      rw [same, List.cons_append, skip_cons noSpace]
      split
      next closing => exact absurd (List.cons.inj closing).1 noEnd
      next => rfl
  | @object entries different each ih =>
    refine readBack_of_succ (.object different each) fun fuel rest enough ends => ?_
    cases entries with
    | nil => rfl
    | cons e more =>
      obtain ⟨key, v⟩ := e
      obtain ⟨behind, same, -⟩ :=
        string?_storedQuote key (':' :: ' ' :: (stored v ++ (storedEntries more ++ rest)))
      rw [stored, List.length_cons] at enough
      have read := entries?_stored (ih (key, v) List.mem_cons_self)
        (fun e mem => ih e (List.mem_cons_of_mem _ mem)) (show 2 * (storedQuote key ++
          ':' :: ' ' :: (stored v ++ storedEntries more)).length < fuel by omega) [] different rest
      rw [List.reverse_nil, List.nil_append] at read
      rw [stored, List.cons_append, value?, skip_cons rfl]
      simp only [← read, List.append_assoc, List.cons_append]
      rw [same, skip_cons rfl]
      rfl

/-- A storable value is read back from the text that is stored for it. -/
theorem parse?_stored {v : Value} (storable : v.Storable) :
    parse? (String.ofList (stored v)) = some v := by
  have nothing : EndsNumber [] := fun c mem => nomatch mem
  have read := readBack_of_storable storable (show _ ≤ 2 * (stored v).length + 2 by omega) nothing
  rw [List.append_nil] at read
  rw [parse?, String.toList_ofList]
  simp only [read]
  rfl

end Json

end CodeAtlas
