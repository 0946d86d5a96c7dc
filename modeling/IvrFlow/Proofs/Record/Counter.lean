import IvrFlow.Proofs.Json.Numerals
import IvrFlow.Record.Counter

/-!
What counters are read from. A number and its decimal text, with whatever blanks around it, are read
as the same counter, or both refused as too large (`Counter.read_of_gives`). There are three ways to
leave a counter unset (`Counter.Unset`), and everything else is refused (`Counter.Unfit`).
-/

namespace IvrFlow

/-! ### Blanks -/

namespace Text

theorem isBlank_of_isDigit {c : Char} (isDigit : c.isDigit = true) : isBlank c = false := by
  have range : 48 ≤ c.toNat ∧ c.toNat ≤ 57 := by simpa [Char.isDigit_iff_toNat] using isDigit
  simp [isBlank, Ranges.contains, blanks]
  omega

theorem trim_of_forall_isBlank {text : List Char} (blank : ∀ c ∈ text, isBlank c = true) :
    trim text = [] := by
  rw [trim, List.dropWhile_eq_nil_iff.mpr blank]
  rfl

theorem forall_isBlank_of_trim_eq_nil {text : List Char} (isEmpty : trim text = []) :
    ∀ c ∈ text, isBlank c = true := by
  rw [trim, List.reverse_eq_nil_iff, List.dropWhile_eq_nil_iff] at isEmpty
  intro c isThere
  rw [← List.takeWhile_append_dropWhile (p := isBlank) (l := text), List.mem_append] at isThere
  rcases isThere with isBefore | isLeft
  · exact List.mem_takeWhile_imp isBefore
  · exact isEmpty c (List.mem_reverse.mpr isLeft)

/-- Blanks around a text without blanks are all that is left out of it. -/
theorem trim_append {before text after : List Char} (blankBefore : ∀ c ∈ before, isBlank c = true)
    (blankAfter : ∀ c ∈ after, isBlank c = true) (solid : ∀ c ∈ text, isBlank c = false) :
    trim (before ++ text ++ after) = text := by
  cases text with
  | nil =>
    refine trim_of_forall_isBlank fun c isThere => ?_
    rw [List.append_nil] at isThere
    exact (List.mem_append.mp isThere).elim (blankBefore c) (blankAfter c)
  | cons first rest =>
    have isSolid := solid first List.mem_cons_self
    -- What is left without the blanks before is reversed, and then the blanks after come first.
    have blankReversed : ∀ c ∈ after.reverse, isBlank c = true :=
      fun c isThere => blankAfter c (List.mem_reverse.mp isThere)
    have trimmed := trim_of_forall_not_isBlank solid
    rw [trim, List.dropWhile_cons, isSolid, if_neg Bool.false_ne_true] at trimmed
    rw [trim, List.append_assoc, List.dropWhile_append_of_pos blankBefore, List.cons_append,
      List.dropWhile_cons, isSolid, if_neg Bool.false_ne_true, ← List.cons_append,
      List.reverse_append, List.dropWhile_append_of_pos blankReversed, trimmed]

end Text

namespace Counter

open Text (isBlank trim)

/-! ### Numbers -/

theorem le_ofDigitChars (digits : List Char) (value : Nat) :
    value ≤ Nat.ofDigitChars 10 digits value := by
  induction digits generalizing value with
  | nil => exact Nat.le_refl value
  | cons c rest ih =>
    rw [Nat.ofDigitChars_cons]
    refine Nat.le_trans ?_ (ih _)
    omega

/-- Digits are read as the number that they stand for, unless it is past the greatest counter. -/
theorem readDigits_eq {digits : List Char} (areDigits : ∀ c ∈ digits, c.isDigit = true)
    {value : Nat} (small : value < UInt32.size) :
    readDigits value digits =
      if Nat.ofDigitChars 10 digits value < UInt32.size
      then .ok (Nat.ofDigitChars 10 digits value).toUInt32 else .error .tooLarge := by
  induction digits generalizing value with
  | nil => exact (if_pos small).symm
  | cons c rest ih =>
    obtain ⟨isDigit, restDigits⟩ := List.forall_mem_cons.mp areDigits
    rw [readDigits, if_pos isDigit, Nat.ofDigitChars_cons]
    dsimp only
    by_cases goesOn : 10 * value + (c.toNat - '0'.toNat) < UInt32.size
    · rw [if_pos goesOn, ih restDigits goesOn]
    · have atLeast := le_ofDigitChars rest (10 * value + (c.toNat - '0'.toNat))
      rw [if_neg goesOn, if_neg (by omega)]

/-- A stored value that gives a number: the number itself, or its decimal text with blanks around
it. -/
inductive Gives (n : Nat) : Json → Prop where
  | number {number : Number} :
      Json.numeral? false (Nat.toDigits 10 n) none none = some number → Gives n (.num number)
  | text {text : String} {before after : List Char} :
      (∀ c ∈ before, isBlank c = true) → (∀ c ∈ after, isBlank c = true) →
      text.toList = before ++ Nat.toDigits 10 n ++ after → Gives n (.str text)

/-- A number that fits 64 bits is held as it is, and a greater one as a real. -/
theorem natural_or_real {n : Nat} {number : Number}
    (given : Json.numeral? false (Nat.toDigits 10 n) none none = some number) :
    n < UInt64.size ∧ number = .natural n.toUInt64 ∨
      UInt64.size ≤ n ∧ ∃ value, number = .real value := by
  rw [Json.numeral?, Nat.ofDigitChars_ten_toDigits] at given
  by_cases fits : n < UInt64.size
  · have isInteger : Json.integer? false n = some (.natural n.toUInt64) := by
      rw [Json.integer?, if_neg Bool.false_ne_true, if_pos fits]
    simp only [isInteger, Option.some.injEq] at given
    exact Or.inl ⟨fits, given.symm⟩
  · have noInteger : Json.integer? false n = none := by
      rw [Json.integer?, if_neg Bool.false_ne_true, if_neg fits]
    simp only [noInteger] at given
    obtain ⟨value, _, isReal⟩ := Option.map_eq_some_iff.mp given
    exact Or.inr ⟨Nat.le_of_not_lt fits, value, isReal.symm⟩

/-- A counter is written as a number. -/
theorem gives_write (counter : UInt32) : Gives counter.toNat (write counter) := by
  have fits : counter.toNat < UInt64.size := Nat.lt_trans counter.toNat_lt (by decide)
  have isInteger : Json.integer? false counter.toNat = some (.natural counter.toUInt64) := by
    rw [Json.integer?, if_neg Bool.false_ne_true, if_pos fits]
    exact congrArg (some ∘ Number.natural) (UInt64.toNat_inj.mp (UInt64.toNat_ofNat_of_lt' fits))
  refine .number ?_
  rw [Json.numeral?, Nat.ofDigitChars_ten_toDigits]
  simp only [isInteger]

theorem read_natural {n : Nat} (fits : n < UInt64.size) :
    read (.num (.natural n.toUInt64)) =
      if n < UInt32.size then .ok (some n.toUInt32) else .error .tooLarge := by
  have same : n.toUInt64.toNat = n := UInt64.toNat_ofNat_of_lt' fits
  rw [read, same]
  by_cases small : n < UInt32.size
  · have narrowed : n.toUInt64.toUInt32 = n.toUInt32 := by
      rw [← UInt32.toNat_inj, UInt64.toNat_toUInt32, same]
      rfl
    rw [if_pos small, if_pos small, narrowed]
  · rw [if_neg small, if_neg small]

theorem read_text {n : Nat} {text : String} (given : trim text.toList = Nat.toDigits 10 n) :
    read (.str text) = if n < UInt32.size then .ok (some n.toUInt32) else .error .tooLarge := by
  have areDigits : ∀ c ∈ Nat.toDigits 10 n, c.isDigit = true :=
    fun c => Nat.isDigit_of_mem_toDigits (by decide) (by decide)
  have reads := readDigits_eq areDigits (by decide : 0 < UInt32.size)
  rw [Nat.ofDigitChars_ten_toDigits] at reads
  obtain ⟨c, rest, digits⟩ := List.exists_cons_of_ne_nil (Nat.toDigits_ne_nil (b := 10) (n := n))
  have notPlus : c ≠ '+' := by
    rintro rfl
    have isDigit := areDigits '+' (by rw [digits]; exact List.mem_cons_self)
    revert isDigit
    decide
  have decimal : readDecimal (c :: rest) = readDigits 0 (c :: rest) := by
    unfold readDecimal
    split
    · rename_i isEmpty
      cases isEmpty
    · rename_i isPlus
      exact absurd (List.cons.inj isPlus).1 notPlus
    · rename_i isPlus
      exact absurd (List.cons.inj isPlus).1 notPlus
    · rfl
  rw [read, given, digits]
  dsimp only
  rw [decimal, ← digits, reads]
  split
  · rfl
  · rfl

/-- **A number and its text are read alike**: as the counter of that value, or not at all. -/
theorem read_of_gives {n : Nat} {stored : Json} (gives : Gives n stored) :
    (n < UInt32.size → read stored = .ok (some n.toUInt32)) ∧
      (UInt32.size ≤ n → ∃ fault, read stored = .error fault) := by
  have narrow : UInt32.size < UInt64.size := by decide
  have outcome :
      read stored = (if n < UInt32.size then .ok (some n.toUInt32) else .error .tooLarge) ∨
        UInt64.size ≤ n ∧ read stored = .error .notCounter := by
    cases gives with
    | number given =>
      obtain ⟨fits, rfl⟩ | ⟨past, value, rfl⟩ := natural_or_real given
      · exact Or.inl (read_natural fits)
      · exact Or.inr ⟨past, rfl⟩
    | @text text before after blankBefore blankAfter split =>
      refine Or.inl (read_text ?_)
      rw [split]
      exact Text.trim_append blankBefore blankAfter fun c isThere =>
        Text.isBlank_of_isDigit (Nat.isDigit_of_mem_toDigits (by decide) (by decide) isThere)
  rcases outcome with reads | ⟨past, refused⟩
  · rw [reads]
    exact ⟨fun small => if_pos small, fun large => ⟨_, if_neg (Nat.not_lt.mpr large)⟩⟩
  · exact ⟨fun small => by omega, fun _ => ⟨_, refused⟩⟩

/-! ### Unset counters, and values that give none -/

/-- A text of digits, before which a plus sign may stand. -/
def IsNumeral (text : List Char) : Prop :=
  ∃ digits, digits ≠ [] ∧ (∀ c ∈ digits, c.isDigit = true) ∧
    (text = digits ∨ text = '+' :: digits)

/-- Nothing, or what counts as nothing. -/
inductive Unset : Option Json → Prop where
  | absent : Unset none
  | null : Unset (some .null)
  | blank {text : String} : (∀ c ∈ text.toList, isBlank c = true) → Unset (some (.str text))

/-- A stored value that gives no counter: a number that is no natural one, such as a negative number
or a fraction, a text with something else in it than a numeral, or a value of another type. -/
inductive Unfit : Json → Prop where
  | negative {below : Fin 0x8000000000000000} : Unfit (.num (.negative below))
  | real {value : Binary64} : Unfit (.num (.real value))
  | text {text : String} {c : Char} : c ∈ text.toList → isBlank c = false →
      ¬ IsNumeral (trim text.toList) → Unfit (.str text)
  | bool {value : Bool} : Unfit (.bool value)
  | arr {items : List Json} : Unfit (.arr items)
  | obj {entries : Fields} : Unfit (.obj entries)

/-- Reads a counter that may be absent. -/
def readOptional : Option Json → Except Fault (Option UInt32)
  | none => .ok none
  | some stored => read stored

theorem readOptional_of_unset {given : Option Json} (unset : Unset given) :
    readOptional given = .ok none := by
  cases unset with
  | absent => rfl
  | null => rfl
  | blank blank =>
    show read (.str _) = _
    rw [read, Text.trim_of_forall_isBlank blank]

theorem isDigit_of_readDigits {digits : List Char} {value : Nat} {counter : UInt32}
    (reads : readDigits value digits = .ok counter) : ∀ c ∈ digits, c.isDigit = true := by
  induction digits generalizing value with
  | nil => exact List.forall_mem_nil _
  | cons c rest ih =>
    rw [readDigits] at reads
    split at reads
    · rename_i isDigit
      dsimp only at reads
      split at reads
      · exact List.forall_mem_cons.mpr ⟨isDigit, ih reads⟩
      · cases reads
    · cases reads

/-- Only numerals are read as decimal numbers. -/
theorem isNumeral_of_readDecimal {text : List Char} {counter : UInt32}
    (reads : readDecimal text = .ok counter) : IsNumeral text := by
  unfold readDecimal at reads
  split at reads
  · cases reads
  · cases reads
  · rename_i rest notEmpty
    exact ⟨rest, notEmpty ∘ fun isEmpty => by rw [isEmpty], isDigit_of_readDigits reads, Or.inr rfl⟩
  · rename_i notEmpty _ _
    exact ⟨_, notEmpty, isDigit_of_readDigits reads, Or.inl rfl⟩

theorem read_of_unfit {stored : Json} (unfit : Unfit stored) :
    ∃ fault, read stored = .error fault := by
  cases unfit with
  | negative | real | bool | arr | obj => exact ⟨_, rfl⟩
  | @text text c isThere solid notNumeral =>
    rw [read]
    cases trimmed : trim text.toList with
    | nil =>
      have blank := Text.forall_isBlank_of_trim_eq_nil trimmed c isThere
      rw [solid] at blank
      cases blank
    | cons first rest =>
      dsimp only
      cases reads : readDecimal (first :: rest) with
      | error fault => exact ⟨fault, rfl⟩
      | ok counter => exact absurd (trimmed ▸ isNumeral_of_readDecimal reads) notNumeral

end Counter

end IvrFlow
