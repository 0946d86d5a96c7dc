import IvrFlow.Json.Decimal
import IvrFlow.Json.Parser
import IvrFlow.Proofs.Outcomes
import Mathlib.Data.List.TakeWhile

/-!
Reading numbers among other text. A number that is read from the start of a text is read just so
when more text follows, as long as that does not go on with the number (`tailed_number`); so what is
read from the decimal text of a number by itself is also read from it within a document.
-/

namespace IvrFlow

namespace Json

/-- A text that does not go on with a number: no digit, point or exponent starts it. -/
def Stops (rest : List Char) : Prop :=
  ∀ c ∈ rest.head?, c.isDigit = false ∧ c ≠ '.' ∧ c ≠ 'e' ∧ c ≠ 'E'

theorem stops_cons {c : Char} (other : c.isDigit = false ∧ c ≠ '.' ∧ c ≠ 'e' ∧ c ≠ 'E')
    (rest : List Char) : Stops (c :: rest) := by
  intro head isHead
  cases isHead
  exact other

/-- What is read from a text leaves an end of it, and more text that follows the number is left
as well. -/
def Scanner.Tailed {α : Type} (scan : Scanner α) : Prop :=
  ∀ text read left, scan text = .ok (read, left) →
    left <:+ text ∧ ∀ rest, Stops rest → scan (text ++ rest) = .ok (read, left ++ rest)

/-- An outcome of reading, with something else made of what has been read. -/
def made {α β : Type} (make : α → β) (outcome : Except Refusal (α × List Char)) :
    Except Refusal (β × List Char) := do
  let (read, left) ← outcome
  return (make read, left)

/-! ### The parts of a number -/

section Digits

variable {rest : List Char}

theorem takeWhile_isDigit_append (stops : Stops rest) :
    ∀ text : List Char, (text ++ rest).takeWhile Char.isDigit = text.takeWhile Char.isDigit
  | [] => by
    cases rest with
    | nil => rfl
    | cons c rest => simp [(stops c rfl).1]
  | c :: text => by
    simp only [List.cons_append, List.takeWhile_cons, takeWhile_isDigit_append stops text]

theorem dropWhile_isDigit_append (stops : Stops rest) :
    ∀ text : List Char, (text ++ rest).dropWhile Char.isDigit = text.dropWhile Char.isDigit ++ rest
  | [] => by
    cases rest with
    | nil => rfl
    | cons c rest => simp [(stops c rfl).1]
  | c :: text => by
    simp only [List.cons_append, List.dropWhile_cons, dropWhile_isDigit_append stops text]
    split
    · rfl
    · rfl

end Digits

theorem digits_cons_of_isDigit {c : Char} (isDigit : c.isDigit = true) (text : List Char) :
    digits (c :: text) =
      .ok ((c :: text).takeWhile Char.isDigit, (c :: text).dropWhile Char.isDigit) := by
  rw [digits, if_pos isDigit]

/-- Digits that are read start with one. -/
theorem digits_eq_ok {text read left : List Char} (succeeds : digits text = .ok (read, left)) :
    ∃ c rest, text = c :: rest ∧ c.isDigit = true ∧ read = text.takeWhile Char.isDigit ∧
      left = text.dropWhile Char.isDigit := by
  cases text with
  | nil => cases succeeds
  | cons c rest =>
    cases isDigit : c.isDigit with
    | true =>
      rw [digits_cons_of_isDigit isDigit] at succeeds
      cases succeeds
      exact ⟨c, rest, rfl, isDigit, rfl, rfl⟩
    | false =>
      rw [digits, isDigit] at succeeds
      cases succeeds

theorem tailed_digits : digits.Tailed := by
  intro text read left succeeds
  obtain ⟨c, text, rfl, isDigit, rfl, rfl⟩ := digits_eq_ok succeeds
  refine ⟨List.dropWhile_suffix _, fun rest stops => ?_⟩
  rw [List.cons_append, digits_cons_of_isDigit isDigit, ← List.cons_append,
    takeWhile_isDigit_append stops, dropWhile_isDigit_append stops]

theorem wholePart_of_ne_zero {c : Char} (notZero : c ≠ '0') (text : List Char) :
    wholePart (c :: text) = digits (c :: text) := by
  unfold wholePart
  split
  · rename_i isZero
    cases isZero
    exact absurd rfl notZero
  · rfl

theorem wholePart_zero {c : Char} (other : c.isDigit = false) (text : List Char) :
    wholePart ('0' :: c :: text) = .ok (['0'], c :: text) := by
  simp [wholePart, other]

theorem tailed_wholePart : wholePart.Tailed := by
  intro text read left succeeds
  match text with
  | [] => cases succeeds
  | c :: more =>
    by_cases isZero : c = '0'
    · subst isZero
      match more with
      | [] =>
        cases succeeds
        refine ⟨List.nil_suffix, fun rest stops => ?_⟩
        cases rest with
        | nil => rfl
        | cons d rest => exact wholePart_zero (stops d rfl).1 rest
      | d :: more =>
        cases other : d.isDigit with
        | true => simp [wholePart, other, refuseNext] at succeeds
        | false =>
          rw [wholePart_zero other] at succeeds
          cases succeeds
          exact ⟨List.suffix_cons _ _, fun rest _ => wholePart_zero other _⟩
    · rw [wholePart_of_ne_zero isZero] at succeeds
      obtain ⟨isSuffix, goesOn⟩ := tailed_digits _ _ _ succeeds
      refine ⟨isSuffix, fun rest stops => ?_⟩
      rw [List.cons_append, wholePart_of_ne_zero isZero, ← List.cons_append, goesOn rest stops]

theorem places_of_ne_point {text : List Char} (other : ∀ c ∈ text.head?, c ≠ '.') :
    places text = .ok (none, text) := by
  unfold places
  split
  · exact absurd rfl (other '.' rfl)
  · rfl

theorem places_point (text : List Char) : places ('.' :: text) = made some (digits text) := rfl

theorem tailed_places : places.Tailed := by
  intro text read left succeeds
  match text with
  | [] =>
    cases succeeds
    exact ⟨List.suffix_refl _, fun rest stops => places_of_ne_point fun c isHead =>
      (stops c isHead).2.1⟩
  | c :: text =>
    by_cases isPoint : c = '.'
    · subst isPoint
      obtain ⟨⟨ds, after⟩, readDigits, isRead⟩ := bind_eq_ok_iff.mp succeeds
      cases isRead
      obtain ⟨isSuffix, goesOn⟩ := tailed_digits _ _ _ readDigits
      refine ⟨isSuffix.trans (List.suffix_cons _ _), fun rest stops => ?_⟩
      rw [List.cons_append, places_point, goesOn rest stops]
      rfl
    · have other : ∀ more : List Char, ∀ d ∈ (c :: more).head?, d ≠ '.' := by
        rintro more d ⟨⟩
        exact isPoint
      rw [places_of_ne_point (other text)] at succeeds
      cases succeeds
      exact ⟨List.suffix_refl _, fun rest _ => places_of_ne_point (other _)⟩

/-! ### Powers of ten -/

/-- Whether an exponent has a minus sign, and its text after a sign. -/
def exponentSign : List Char → Bool × List Char
  | '-' :: rest => (true, rest)
  | '+' :: rest => (false, rest)
  | rest => (false, rest)

/-- The power of ten that the digits of an exponent stand for, which are in front of the text after
its sign. -/
def exponentValue (read : Nat) (negative : Bool) (ds text : List Char) : Except Refusal Int :=
  if negative then .ok (-(Nat.ofDigitChars 10 ds 0 : Int))
  else
    match exponentOverflow 0 text with
    | some cut => if read = 0 then .ok 0 else refuseRead .infiniteNumber cut
    | none => .ok (Nat.ofDigitChars 10 ds 0 : Int)

/-- The power of ten of an exponent after its `e`. -/
def exponentPower (read : Nat) : Scanner (Option Int) := fun text => do
  let (ds, left) ← digits (exponentSign text).2
  let value ← exponentValue read (exponentSign text).1 ds (exponentSign text).2
  return (some value, left)

theorem power_cons_of_exponent {e : Char} (isExponent : e = 'e' ∨ e = 'E') (read : Nat)
    (text : List Char) : power read (e :: text) = exponentPower read text := by
  have values : ∀ (negative : Bool) (ds text left : List Char),
      (do return (some (← exponentValue read negative ds text), left)) =
        if negative then (pure (some (-(Nat.ofDigitChars 10 ds 0 : Int)), left) : Except _ _)
        else
          match exponentOverflow 0 text with
          | some cut => if read = 0 then return (some 0, left) else refuseRead .infiniteNumber cut
          | none => return (some (Nat.ofDigitChars 10 ds 0 : Int), left) := by
    intro negative ds text left
    unfold exponentValue
    split
    · rfl
    · split
      · split
        · rfl
        · rfl
      · rfl
  simp only [power, if_pos isExponent, exponentPower, values]
  rfl

theorem power_of_ne_exponent {text : List Char} (other : ∀ c ∈ text.head?, c ≠ 'e' ∧ c ≠ 'E')
    (read : Nat) : power read text = .ok (none, text) := by
  unfold power
  split
  · rfl
  · rw [if_neg]
    rintro (rfl | rfl)
    · exact (other 'e' rfl).1 rfl
    · exact (other 'E' rfl).2 rfl

theorem exponentSign_append {c : Char} (text rest : List Char) :
    exponentSign (c :: text ++ rest) =
      ((exponentSign (c :: text)).1, (exponentSign (c :: text)).2 ++ rest) := by
  by_cases isMinus : c = '-'
  · subst isMinus
    rfl
  · by_cases isPlus : c = '+'
    · subst isPlus
      rfl
    · simp [exponentSign, isMinus, isPlus]

theorem exponentSign_suffix (text : List Char) : (exponentSign text).2 <:+ text := by
  unfold exponentSign
  split
  · exact List.suffix_cons _ _
  · exact List.suffix_cons _ _
  · exact List.suffix_refl _

theorem exponentOverflow_append {rest : List Char} (stops : Stops rest) :
    ∀ (read : Nat) (text : List Char), exponentOverflow read (text ++ rest) =
      (exponentOverflow read text).map (· ++ rest)
  | read, [] => by
    cases rest with
    | nil => rfl
    | cons c rest => simp [exponentOverflow, (stops c rfl).1]
  | read, c :: text => by
    simp only [List.cons_append, exponentOverflow]
    split
    · split
      · rfl
      · exact exponentOverflow_append stops _ text
    · rfl

theorem exponentValue_append {rest : List Char} (stops : Stops rest) {read : Nat} {negative : Bool}
    {ds text : List Char} {value : Int}
    (succeeds : exponentValue read negative ds text = .ok value) :
    exponentValue read negative ds (text ++ rest) = .ok value := by
  unfold exponentValue at succeeds ⊢
  rw [exponentOverflow_append stops]
  cases overflow : exponentOverflow 0 text with
  | none =>
    rw [overflow] at succeeds
    exact succeeds
  | some cut =>
    rw [overflow] at succeeds
    simp only [Option.map_some] at succeeds ⊢
    cases negative with
    | true => exact succeeds
    | false =>
      simp only [Bool.false_eq_true, if_false] at succeeds ⊢
      by_cases isZero : read = 0
      · rwa [if_pos isZero] at succeeds ⊢
      · rw [if_neg isZero] at succeeds
        cases succeeds

theorem tailed_exponentPower (read : Nat) : (exponentPower read).Tailed := by
  intro text power left succeeds
  obtain ⟨⟨ds, after⟩, readDigits, rest⟩ := bind_eq_ok_iff.mp succeeds
  obtain ⟨value, readValue, isPower⟩ := bind_eq_ok_iff.mp rest
  cases isPower
  obtain ⟨isSuffix, goesOn⟩ := tailed_digits _ _ _ readDigits
  refine ⟨isSuffix.trans (exponentSign_suffix text), fun more stops => ?_⟩
  -- An exponent without digits is refused, so its sign is not looked for in what follows.
  have sign : exponentSign (text ++ more) =
      ((exponentSign text).1, (exponentSign text).2 ++ more) := by
    cases text with
    | nil => cases readDigits
    | cons c text => exact exponentSign_append text more
  simp only [exponentPower, sign, goesOn more stops, exponentValue_append stops readValue,
    ok_bind]
  rfl

theorem tailed_power (read : Nat) : (power read).Tailed := by
  intro text exponent left succeeds
  match text with
  | [] =>
    cases succeeds
    exact ⟨List.suffix_refl _, fun rest stops => power_of_ne_exponent
      (fun c isHead => (stops c isHead).2.2) read⟩
  | c :: text =>
    by_cases isExponent : c = 'e' ∨ c = 'E'
    · rw [power_cons_of_exponent isExponent] at succeeds
      obtain ⟨isSuffix, goesOn⟩ := tailed_exponentPower read _ _ _ succeeds
      refine ⟨isSuffix.trans (List.suffix_cons _ _), fun rest stops => ?_⟩
      rw [List.cons_append, power_cons_of_exponent isExponent, goesOn rest stops]
    · have other : ∀ more : List Char, ∀ d ∈ (c :: more).head?, d ≠ 'e' ∧ d ≠ 'E' := by
        rintro more d ⟨⟩
        exact not_or.mp isExponent
      rw [power_of_ne_exponent (other text)] at succeeds
      cases succeeds
      exact ⟨List.suffix_refl _, fun rest _ => power_of_ne_exponent (other _) read⟩

/-! ### Numbers -/

/-- The number that digits before the point and after it and a power of ten stand for, unless it is
infinite. -/
def numeral? (negative : Bool) (whole : List Char) (part : Option (List Char))
    (exponent : Option Int) : Option Number :=
  let (wholeRead, dropped) := significand 0 whole
  let (read, droppedPlaces) := significand wholeRead (part.getD [])
  match part, exponent, integer? negative (Nat.ofDigitChars 10 whole 0) with
  | none, none, some value => some value
  | _, _, _ =>
    let shift : Int := dropped.length + droppedPlaces.length - (part.getD []).length
    (Binary64.ofDecimal? negative read (exponent.getD 0 + shift)).map .real

/-- A number is read part by part, and only then looked at. -/
theorem number_eq (negative : Bool) (text : List Char) :
    number negative text = (do
      let (whole, rest) ← wholePart text
      let (part, rest) ← places rest
      let (exponent, rest) ← power (significand (significand 0 whole).1 (part.getD [])).1 rest
      match numeral? negative whole part exponent with
      | some value => return (.num value, rest)
      | none => refuseRead .infiniteNumber rest) := by
  unfold number numeral?
  congr 1
  funext afterWhole
  obtain ⟨whole, rest⟩ := afterWhole
  simp only
  congr 1
  funext afterPart
  obtain ⟨part, rest⟩ := afterPart
  simp only
  congr 1
  funext afterPower
  obtain ⟨exponent, rest⟩ := afterPower
  cases part <;> cases exponent <;> cases integer? negative _ <;> simp only <;>
    cases Binary64.ofDecimal? negative _ _ <;> rfl

theorem number_eq_ok {negative : Bool} {text left : List Char} {value : Json}
    (succeeds : number negative text = .ok (value, left)) : ∃ number, value = .num number := by
  rw [number_eq] at succeeds
  obtain ⟨⟨whole, afterWhole⟩, _, succeeds⟩ := bind_eq_ok_iff.mp succeeds
  obtain ⟨⟨part, afterPart⟩, _, succeeds⟩ := bind_eq_ok_iff.mp succeeds
  obtain ⟨⟨exponent, afterPower⟩, _, succeeds⟩ := bind_eq_ok_iff.mp succeeds
  simp only at succeeds
  split at succeeds
  · cases succeeds
    exact ⟨_, rfl⟩
  · cases succeeds

/-- **A number is read the same when other text follows it.** -/
theorem tailed_number (negative : Bool) : (number negative).Tailed := by
  intro text value left succeeds
  rw [number_eq] at succeeds
  obtain ⟨⟨whole, afterWhole⟩, readWhole, succeeds⟩ := bind_eq_ok_iff.mp succeeds
  obtain ⟨⟨part, afterPart⟩, readPart, succeeds⟩ := bind_eq_ok_iff.mp succeeds
  obtain ⟨⟨exponent, afterPower⟩, readPower, succeeds⟩ := bind_eq_ok_iff.mp succeeds
  obtain ⟨wholeSuffix, wholeGoesOn⟩ := tailed_wholePart _ _ _ readWhole
  obtain ⟨partSuffix, partGoesOn⟩ := tailed_places _ _ _ readPart
  obtain ⟨powerSuffix, powerGoesOn⟩ := tailed_power _ _ _ _ readPower
  simp only at succeeds
  split at succeeds
  · rename_i number isNumber
    cases succeeds
    refine ⟨powerSuffix.trans (partSuffix.trans wholeSuffix), fun rest stops => ?_⟩
    rw [number_eq, wholeGoesOn rest stops]
    simp only [ok_bind, partGoesOn rest stops, powerGoesOn rest stops, isNumber]
    rfl
  · cases succeeds

/-! ### Whole numbers -/

theorem head?_toDigits_ne_zero {n : Nat} (notZero : n ≠ 0) :
    (Nat.toDigits 10 n).head? ≠ some '0' := by
  induction n using Nat.base_induction 10 (by decide) with
  | single m isDigit =>
    rw [Nat.toDigits_of_lt_base isDigit]
    intro isHead
    exact notZero (Nat.digitChar_eq_zero.mp (Option.some.inj isHead))
  | digit m k isDigit positive ih =>
    obtain ⟨c, ds, digits⟩ := List.exists_cons_of_ne_nil (Nat.toDigits_ne_nil (b := 10) (n := m))
    rw [← Nat.toDigits_append_toDigits (by decide) positive isDigit, digits]
    rw [digits] at ih
    exact ih (Nat.ne_of_gt positive)

theorem digits_of_forall {text : List Char} (notEmpty : text ≠ [])
    (areDigits : ∀ c ∈ text, c.isDigit = true) : digits text = .ok (text, []) := by
  match text with
  | [] => exact absurd rfl notEmpty
  | c :: text =>
    rw [digits_cons_of_isDigit (areDigits c List.mem_cons_self),
      List.takeWhile_eq_self_iff.mpr areDigits, List.dropWhile_eq_nil_iff.mpr areDigits]

/-- The digits of a number are read back whole: they have no leading zero. -/
theorem wholePart_toDigits (n : Nat) :
    wholePart (Nat.toDigits 10 n) = .ok (Nat.toDigits 10 n, []) := by
  by_cases isZero : n = 0
  · subst isZero
    rfl
  · have areDigits : ∀ c ∈ Nat.toDigits 10 n, c.isDigit = true :=
      fun c member => Nat.isDigit_of_mem_toDigits (by decide) (by decide) member
    have read := digits_of_forall Nat.toDigits_ne_nil areDigits
    have notLeading := head?_toDigits_ne_zero isZero
    cases digits : Nat.toDigits 10 n with
    | nil => exact absurd digits Nat.toDigits_ne_nil
    | cons c rest =>
      rw [digits] at notLeading read
      rw [wholePart_of_ne_zero (fun leading => notLeading (congrArg some leading)), read]

theorem number_toDigits {negative : Bool} {n : Nat} {value : Number}
    (isInteger : integer? negative n = some value) :
    number negative (Nat.toDigits 10 n) = .ok (.num value, []) := by
  have isNumeral : numeral? negative (Nat.toDigits 10 n) none none = some value := by
    simp only [numeral?, Nat.ofDigitChars_ten_toDigits, isInteger]
  rw [number_eq, wholePart_toDigits]
  simp only [ok_bind, places, power, isNumeral]
  rfl

/-! ### The decimal text of a number -/

theorem ne_of_isDigit {c d : Char} (isDigit : c.isDigit = true) (other : d.isDigit = false) :
    c ≠ d := by
  rintro rfl
  rw [isDigit] at other
  cases other

theorem isGap_of_isDigit {c : Char} (isDigit : c.isDigit = true) : isGap c = false := by
  simp [isGap, ne_of_isDigit isDigit (d := ' ') rfl, ne_of_isDigit isDigit (d := '\t') rfl,
    ne_of_isDigit isDigit (d := '\n') rfl, ne_of_isDigit isDigit (d := '\r') rfl]

theorem isGap_of_mem_toDigits (n : Nat) : ∀ c ∈ Nat.toDigits 10 n, isGap c = false :=
  fun _ member => isGap_of_isDigit (Nat.isDigit_of_mem_toDigits (by decide) (by decide) member)

theorem toDigits_eq_cons (n : Nat) :
    ∃ c rest, Nat.toDigits 10 n = c :: rest ∧ c.isDigit = true := by
  obtain ⟨c, rest, digits⟩ :=
    List.exists_cons_of_ne_nil (Nat.toDigits_ne_nil (b := 10) (n := n))
  exact ⟨c, rest, digits, Nat.isDigit_of_mem_toDigits (by decide) (by decide)
    (digits ▸ List.mem_cons_self)⟩

end Json

namespace Decimal

theorem text_eq_cons (d : Decimal) : ∃ c rest, d.text = c :: rest ∧ c.isDigit = true := by
  obtain ⟨c, ds, digits, isDigit⟩ := Json.toDigits_eq_cons d.digits
  unfold text
  simp only [digits]
  split
  · split
    · exact ⟨c, _, rfl, isDigit⟩
    · exact ⟨'0', _, rfl, rfl⟩
  · exact ⟨c, _, rfl, isDigit⟩

theorem isGap_of_mem_text (d : Decimal) : ∀ c ∈ d.text, Json.isGap c = false := by
  have digits := Json.isGap_of_mem_toDigits
  have zeros : ∀ n, ∀ c ∈ List.replicate n '0', Json.isGap c = false := by
    intro n c isZero
    rw [List.eq_of_mem_replicate isZero]
    rfl
  unfold text
  simp only
  split
  · split
    · refine List.forall_mem_append.mpr ⟨fun c inWhole => ?_, List.forall_mem_cons.mpr ⟨rfl, ?_⟩⟩
      · exact List.forall_mem_append.mpr ⟨digits _, zeros _⟩ c (List.mem_of_mem_take inWhole)
      · split
        · exact List.forall_mem_singleton.mpr rfl
        · exact fun c inPlaces => digits _ c (List.mem_of_mem_drop inPlaces)
    · exact List.forall_mem_cons.mpr ⟨rfl, List.forall_mem_cons.mpr ⟨rfl,
        List.forall_mem_append.mpr ⟨zeros _, digits _⟩⟩⟩
  · refine List.forall_mem_append.mpr ⟨List.forall_mem_append.mpr
      ⟨fun c isFirst => digits _ c (List.mem_of_mem_take isFirst), ?_⟩,
      List.forall_mem_cons.mpr ⟨rfl, List.forall_mem_cons.mpr ⟨?_, digits _⟩⟩⟩
    · split
      · exact List.forall_mem_nil _
      · exact List.forall_mem_cons.mpr ⟨rfl, fun c inPlaces =>
          digits _ c (List.mem_of_mem_drop inPlaces)⟩
    · split
      · rfl
      · rfl

end Decimal

/-! ### Reading numbers back -/

namespace Number

/-- Whether a number is written with a minus sign. -/
def isNegative : Number → Bool
  | .natural _ => false
  | .negative _ => true
  | .real value => value.negative

/-- The text of a number without its sign. -/
def unsignedText : Number → List Char
  | .natural value => Nat.toDigits 10 value.toNat
  | .negative below => Nat.toDigits 10 (below.val + 1)
  | .real value => value.shortest.text

theorem text_eq (number : Number) :
    number.text = (if number.isNegative then ['-'] else []) ++ number.unsignedText := by
  cases number <;> rfl

theorem unsignedText_eq_cons (number : Number) :
    ∃ c rest, number.unsignedText = c :: rest ∧ c.isDigit = true := by
  cases number with
  | natural | negative => exact Json.toDigits_eq_cons _
  | real value => exact value.shortest.text_eq_cons

theorem isGap_of_mem_unsignedText (number : Number) :
    ∀ c ∈ number.unsignedText, Json.isGap c = false := by
  cases number with
  | natural | negative => exact Json.isGap_of_mem_toDigits _
  | real value => exact value.shortest.isGap_of_mem_text

/-- The number is read back from its own text, as one document. -/
def Legible (number : Number) : Prop :=
  Json.parse (String.ofList number.text) = .ok (.num number)

instance (number : Number) : Decidable number.Legible :=
  inferInstanceAs (Decidable (_ = _))

end Number

namespace Json

theorem skipGap_cons_of_not {c : Char} (other : isGap c = false) (rest : List Char) :
    skipGap (c :: rest) = c :: rest := by
  rw [skipGap, List.dropWhile_cons, other]
  rfl

/-- Whatever is read from a text by the depth limit is read by its first character. -/
theorem value_eq_valueBy (limit : Nat) : ∃ list fields, value limit = valueBy list fields := by
  cases limit with
  | zero => exact ⟨_, _, rfl⟩
  | succ limit => exact ⟨_, _, rfl⟩

theorem valueBy_number (list fields : Scanner Json) (value : Number) (rest : List Char) :
    valueBy list fields (value.text ++ rest) =
      number value.isNegative (value.unsignedText ++ rest) := by
  obtain ⟨c, more, unsigned, isDigit⟩ := value.unsignedText_eq_cons
  rw [value.text_eq, unsigned]
  cases value.isNegative with
  | true => rfl
  | false =>
    have other : ∀ d : Char, d.isDigit = false → c ≠ d := fun _ => ne_of_isDigit isDigit
    rw [valueBy]
    simp only [Bool.false_eq_true, if_false, List.nil_append, List.cons_append,
      skipGap_cons_of_not (isGap_of_isDigit isDigit), if_neg (other '[' rfl),
      if_neg (other '\x7b' rfl), if_neg (other '"' rfl), if_neg (other '-' rfl), if_pos isDigit]

theorem value_number {value : Number} (legible : value.Legible) (limit : Nat) {rest : List Char}
    (stops : Stops rest) : Json.value limit (value.text ++ rest) = .ok (.num value, rest) := by
  have document : ∃ left, number value.isNegative value.unsignedText = .ok (.num value, left) ∧
      skipGap left = [] := by
    obtain ⟨list, fields, valueBy_eq⟩ := value_eq_valueBy nestingLimit
    have byParts := valueBy_number list fields value []
    rw [List.append_nil, List.append_nil] at byParts
    have read := legible
    rw [Number.Legible, parse, parseWithin, String.toList_ofList, valueBy_eq, byParts] at read
    split at read
    · cases read
    · rename_i found left succeeds
      split at read
      · rename_i ended
        cases read
        exact ⟨left, succeeds, ended⟩
      · cases read
  obtain ⟨left, succeeds, ended⟩ := document
  obtain ⟨isSuffix, goesOn⟩ := tailed_number _ _ _ _ succeeds
  -- A number has no blanks in it, so nothing of it is left.
  have none : left = [] := by
    cases left with
    | nil => rfl
    | cons c left =>
      have notGap := value.isGap_of_mem_unsignedText c (isSuffix.subset List.mem_cons_self)
      rw [skipGap_cons_of_not notGap] at ended
      cases ended
  obtain ⟨list, fields, valueBy_eq⟩ := value_eq_valueBy limit
  rw [valueBy_eq, valueBy_number, goesOn rest stops, none, List.nil_append]

end Json

namespace Number

theorem legible_of_integer {number : Number} {n : Nat}
    (digits : number.unsignedText = Nat.toDigits 10 n)
    (isInteger : Json.integer? number.isNegative n = some number) : number.Legible := by
  obtain ⟨list, fields, valueBy_eq⟩ := Json.value_eq_valueBy Json.nestingLimit
  have read := Json.valueBy_number list fields number []
  rw [List.append_nil, List.append_nil, digits, Json.number_toDigits isInteger] at read
  rw [Legible, Json.parse, Json.parseWithin, String.toList_ofList, valueBy_eq, read]
  rfl

/-- **Every whole number is read back.** -/
theorem legible_natural (value : UInt64) : (natural value).Legible := by
  refine legible_of_integer rfl ?_
  rw [Json.integer?, isNegative, if_neg Bool.false_ne_true, if_pos value.toNat_lt]
  simp

theorem legible_negative (below : Fin 0x8000000000000000) : (negative below).Legible := by
  refine legible_of_integer rfl ?_
  rw [Json.integer?, isNegative, if_pos rfl, dif_pos ⟨Nat.succ_pos _, below.isLt⟩]
  rfl

end Number

end IvrFlow
