import IvrFlow.Proofs.Json.Entries
import IvrFlow.Proofs.Json.Parts
import IvrFlow.Proofs.Json.Sequences

/-!
Documents printed and read again. A value that comes from a document is ordered: the entries of each
of its objects stand in the order of their keys (`ordered_of_parse`). The text of an ordered value
whose real numbers are legible is read back as the value if it nests no deeper than documents may,
and is refused for its depth otherwise (`parse_prettyText`).
-/

namespace IvrFlow.Json

/-! ### Strings -/

theorem stringBody_plain {c : Char} (notQuote : c ≠ '"') (notBackslash : c ≠ '\\')
    (notControl : ¬ c.toNat < 0x20) (read rest : List Char) :
    stringBody read (c :: rest) = stringBody (c :: read) rest := by
  rw [stringBody.eq_def]
  simp only [if_neg notQuote, if_neg notBackslash, if_neg notControl]

theorem stringBody_letter {letter c : Char} (notUnit : letter ≠ 'u')
    (isEscaped : escapedChar? letter = some c) (read rest : List Char) :
    stringBody read ('\\' :: letter :: rest) = stringBody (c :: read) rest := by
  rw [stringBody.eq_5 _ _ _ _ (fun _ _ _ _ _ isUnit => absurd isUnit notUnit) notUnit, isEscaped]
  rfl

theorem stringBody_unit {a b c d : Char} {unit : Nat} (isUnit : hexUnit? a b c d = some unit)
    (notSurrogate : unit < 0xD800) (read rest : List Char) :
    stringBody read ('\\' :: 'u' :: a :: b :: c :: d :: rest) =
      stringBody (Char.ofNat unit :: read) rest := by
  have notTrailing : isTrailing unit = false := by
    rw [isTrailing, decide_eq_false (by omega), Bool.false_and]
  have notLeading : isLeading unit = false := by
    rw [isLeading, decide_eq_false (by omega), Bool.false_and]
  rw [stringBody.eq_3, isUnit]
  simp only [notTrailing, notLeading]
  rfl

theorem hexUnit?_controlDigits :
    ∀ n < 0x20, hexUnit? '0' '0' (Nat.digitChar (n / 16)) (Nat.digitChar (n % 16)) = some n := by
  decide

/-- An escaped character is read back. -/
theorem stringBody_escaped (read : List Char) (c : Char) (rest : List Char) :
    stringBody read (escaped c ++ rest) = stringBody (c :: read) rest := by
  by_cases hasLetter : c ∈ ['"', '\\', '\x08', '\x0c', '\n', '\r', '\t']
  · simp only [List.mem_cons, List.not_mem_nil, or_false] at hasLetter
    rcases hasLetter with rfl | rfl | rfl | rfl | rfl | rfl | rfl <;>
      exact stringBody_letter (by decide) rfl read rest
  · simp only [List.mem_cons, List.not_mem_nil, or_false, not_or] at hasLetter
    have other : escaped c = if c.toNat < 0x20 then '\\' :: 'u' :: controlDigits c else [c] := by
      simp only [escaped, hasLetter, if_false]
    by_cases isControl : c.toNat < 0x20
    · rw [other, if_pos isControl]
      have unit := hexUnit?_controlDigits c.toNat isControl
      exact (stringBody_unit unit (by omega) read rest).trans (by rw [Char.ofNat_toNat])
    · rw [other, if_neg isControl]
      exact stringBody_plain hasLetter.1 hasLetter.2.1 isControl read rest

theorem stringBody_flatMap_escaped (text rest : List Char) : ∀ read : List Char,
    stringBody read (text.flatMap escaped ++ '"' :: rest) = .ok (read.reverse ++ text, rest) := by
  induction text with
  | nil =>
    intro read
    rw [List.flatMap_nil, List.nil_append, stringBody.eq_def, List.append_nil]
    rfl
  | cons c text ih =>
    intro read
    rw [List.flatMap_cons, List.append_assoc, stringBody_escaped, ih, List.reverse_cons,
      List.append_assoc, List.singleton_append]

/-- A quoted text is read back after its opening quote. -/
theorem string_quote (text : String) (rest : List Char) :
    string (text.toList.flatMap escaped ++ '"' :: rest) = .ok (text, rest) := by
  rw [string, stringBody_flatMap_escaped]
  show Except.ok (String.ofList ([].reverse ++ text.toList), rest) = _
  rw [List.reverse_nil, List.nil_append, String.ofList_toList]

/-! ### Values on lines of their own -/

/-- The entries of each object in a value stand in the order of their keys. -/
def Ordered (value : Json) : Prop :=
  value.Throughout fun part => ∀ fields, part = .obj fields → Fields.Sorted fields

/-- Each real number in a value is read back from its own text. -/
def Legible (value : Json) : Prop :=
  value.Throughout fun part => ∀ real, part = .num (.real real) → (Number.real real).Legible

/-- An entry whose value goes on at a level. -/
def indentedEntry (level : Nat) (entry : String × Json) : List Char :=
  quote entry.1 ++ ':' :: ' ' :: indented level entry.2

@[simp] theorem indentedItems_eq_onLines (level : Nat) :
    ∀ items : List Json, indentedItems level items = onLines level (indented level) items
  | [] => rfl
  | item :: rest => by
    rw [indentedItems, indentedItems_eq_onLines level rest]
    rfl

@[simp] theorem indentedFields_eq_onLines (level : Nat) :
    ∀ fields : Fields, indentedFields level fields = onLines level (indentedEntry level) fields
  | [] => rfl
  | (key, value) :: rest => by
    rw [indentedFields, indentedFields_eq_onLines level rest, onLines, onLines, List.flatMap_cons]
    simp only [indentedEntry, List.append_assoc, List.cons_append]

theorem depthOfFields_eq_foldr (fields : Fields) :
    depthOfFields fields = (fields.map fun entry => depth entry.2).foldr max 0 := by
  rw [depthOfFields_eq_depthOfItems, depthOfItems_eq_foldr, List.map_map]
  rfl

/-- The text of a value starts with neither a blank nor a closing bracket. -/
theorem indented_eq_cons (level : Nat) (value : Json) :
    ∃ c rest, value.indented level = c :: rest ∧ isGap c = false ∧ c ≠ ']' := by
  cases value with
  | null => exact ⟨'n', _, rfl, rfl, by decide⟩
  | bool value =>
    cases value with
    | true => exact ⟨'t', _, rfl, rfl, by decide⟩
    | false => exact ⟨'f', _, rfl, rfl, by decide⟩
  | num number =>
    obtain ⟨c, rest, unsigned, isDigit⟩ := number.unsignedText_eq_cons
    show ∃ c rest, number.text = c :: rest ∧ _
    rw [number.text_eq, unsigned]
    cases number.isNegative with
    | true => exact ⟨'-', _, rfl, rfl, by decide⟩
    | false => exact ⟨c, rest, rfl, isGap_of_isDigit isDigit, ne_of_isDigit isDigit rfl⟩
  | str text => exact ⟨'"', _, rfl, rfl, by decide⟩
  | arr items =>
    cases items with
    | nil => exact ⟨'[', _, rfl, rfl, by decide⟩
    | cons item rest => exact ⟨'[', _, rfl, rfl, by decide⟩
  | obj fields =>
    cases fields with
    | nil => exact ⟨'\x7b', _, rfl, rfl, by decide⟩
    | cons entry rest => exact ⟨'\x7b', _, rfl, rfl, by decide⟩

theorem indentedEntry_eq_cons (level : Nat) (entry : String × Json) :
    ∃ c rest, indentedEntry level entry = c :: rest ∧ isGap c = false ∧ c ≠ '\x7d' :=
  ⟨'"', _, rfl, rfl, by decide⟩

/-! ### Values read back -/

theorem value_blank (limit : Nat) (text : List Char) :
    value limit (' ' :: text) = value limit text := by
  obtain ⟨list, fields, isValueBy⟩ := value_eq_valueBy limit
  have skips : skipGap (' ' :: text) = skipGap text := rfl
  rw [isValueBy, valueBy, valueBy, skips]

theorem readsWithin_entry {limit depth level : Nat} {stored : Json} {rest : List Char}
    (reads : ReadsWithin limit depth stored rest (value limit (stored.indented level ++ rest)))
    (key : String) : ReadsWithin limit depth (key, stored) rest
      (entry (value limit) (indentedEntry level (key, stored) ++ rest)) := by
  have text : indentedEntry level (key, stored) ++ rest =
      '"' :: (key.toList.flatMap escaped ++
        '"' :: ':' :: ' ' :: (stored.indented level ++ rest)) := by
    simp only [indentedEntry, quote, List.cons_append, List.append_assoc, List.nil_append]
  have read : entry (value limit) (indentedEntry level (key, stored) ++ rest) =
      made (key, ·) (value limit (stored.indented level ++ rest)) := by
    rw [text, entry, string_quote, ← value_blank]
    rfl
  rw [read]
  exact reads.map (key, ·)

/-- One more level around what is read. -/
theorem ReadsWithin.inside {α : Type} {limit depth : Nat} {read : α} {rest : List Char}
    {outcome : Except Refusal (α × List Char)} (reads : ReadsWithin limit depth read rest outcome) :
    ReadsWithin (limit + 1) (depth + 1) read rest outcome := by
  rcases reads with ⟨fits, succeeds⟩ | ⟨deep, refused⟩
  · exact Or.inl ⟨Nat.succ_le_succ fits, succeeds⟩
  · exact Or.inr ⟨Nat.succ_lt_succ deep, refused⟩

theorem readsWithin_zero {depth : Nat} {read : Json} {c : Char} (opens : c = '[' ∨ c = '\x7b')
    (text rest : List Char) : ReadsWithin 0 (depth + 1) read rest (value 0 (c :: text)) := by
  refine Or.inr ⟨Nat.succ_pos depth, ?_⟩
  rcases opens with rfl | rfl
  · exact ⟨_, rfl, rfl⟩
  · exact ⟨_, rfl, rfl⟩

theorem length_le_onLines {α : Type} (level : Nat) (write : α → List Char) :
    ∀ values : List α, values.length ≤ (onLines level write values).length
  | [] => Nat.le_refl _
  | value :: rest => by
    have later := length_le_onLines level write rest
    simp only [onLines, List.flatMap_cons, List.length_append, List.length_cons] at later ⊢
    omega

theorem array_of_ne_close {item : Scanner Json} {text rest : List Char} {c : Char}
    (starts : skipGap text = c :: rest) (notClose : c ≠ ']') :
    array item text =
      made .arr (separated ']' .endInList .noListEnd item (c :: rest).length (c :: rest)) := by
  rw [← items_eq_separated, array, starts]
  split
  · rename_i isNil
    cases isNil
  · rename_i isClose
    cases isClose
    exact absurd rfl notClose
  · rfl

theorem object_of_ne_close {scan : Scanner Json} {text rest : List Char} {c : Char}
    (starts : skipGap text = c :: rest) (notClose : c ≠ '\x7d') :
    object scan text = made (fun read => .obj (Fields.ofList read))
      (separated '\x7d' .endInObject .noObjectEnd (entry scan) (c :: rest).length (c :: rest)) := by
  rw [← entries_eq_separated, object, starts]
  split
  · rename_i isNil
    cases isNil
  · rename_i isClose
    cases isClose
    exact absurd rfl notClose
  · rfl

/-- An array that is not empty is read back once its items are, one level below. -/
theorem readsWithin_arr {limit level : Nat} {item : Json} {others : List Json}
    (reads : ∀ part ∈ item :: others, ∀ rest, Stops rest →
      ReadsWithin limit part.depth part rest (value limit (part.indented (level + 1) ++ rest)))
    (rest : List Char) :
    ReadsWithin (limit + 1) (depth (.arr (item :: others))) (.arr (item :: others)) rest
      (value (limit + 1) (indented level (.arr (item :: others)) ++ rest)) := by
  obtain ⟨c, line, written, notGap, notClose⟩ := indented_eq_cons (level + 1) item
  let after := onLines (level + 1) (indented (level + 1)) others ++ (newLine level ++ ']' :: rest)
  have enough : others.length < (c :: (line ++ after)).length := by
    have shorter := length_le_onLines (level + 1) (indented (level + 1)) others
    simp only [after, List.length_cons, List.length_append]
    omega
  have read : ReadsWithin limit (((item :: others).map depth).foldr max 0) (item :: others) rest
      (separated ']' .endInList .noListEnd (value limit) (c :: (line ++ after)).length
        (indented (level + 1) item ++ after)) :=
    readsWithin_separated rfl (by decide) (indented_eq_cons (level + 1)) reads enough rest
  have text : indented level (.arr (item :: others)) ++ rest =
      '[' :: (newLine (level + 1) ++ c :: (line ++ after)) := by
    simp only [indented, indentedItems_eq_onLines, written, after, List.cons_append,
      List.append_assoc, List.nil_append]
  have arrays : value (limit + 1) ('[' :: (newLine (level + 1) ++ c :: (line ++ after))) =
      array (value limit) (newLine (level + 1) ++ c :: (line ++ after)) := rfl
  rw [text, arrays, array_of_ne_close (skipGap_newLine _ notGap _) notClose, depth,
    depthOfItems_eq_foldr]
  rw [written] at read
  exact (read.map Json.arr).inside

/-- An object that is not empty is read back, in the order of its keys, once the values of its
entries are, one level below. -/
theorem readsWithin_obj {limit level : Nat} {first : String × Json} {others : Fields}
    (sorted : Fields.Sorted (first :: others))
    (reads : ∀ entry ∈ first :: others, ∀ rest, Stops rest →
      ReadsWithin limit entry.2.depth entry.2 rest
        (value limit (entry.2.indented (level + 1) ++ rest)))
    (rest : List Char) :
    ReadsWithin (limit + 1) (depth (.obj (first :: others))) (.obj (first :: others)) rest
      (value (limit + 1) (indented level (.obj (first :: others)) ++ rest)) := by
  obtain ⟨c, line, written, notGap, notClose⟩ := indentedEntry_eq_cons (level + 1) first
  let after :=
    onLines (level + 1) (indentedEntry (level + 1)) others ++ (newLine level ++ '\x7d' :: rest)
  have enough : others.length < (c :: (line ++ after)).length := by
    have shorter := length_le_onLines (level + 1) (indentedEntry (level + 1)) others
    simp only [after, List.length_cons, List.length_append]
    omega
  have read : ReadsWithin limit (((first :: others).map fun entry => depth entry.2).foldr max 0)
      (first :: others) rest
      (separated '\x7d' .endInObject .noObjectEnd (entry (value limit))
        (c :: (line ++ after)).length (indentedEntry (level + 1) first ++ after)) :=
    readsWithin_separated rfl (by decide) (indentedEntry_eq_cons (level + 1))
      (fun entry isEntry rest stops => readsWithin_entry (reads entry isEntry rest stops) entry.1)
      enough rest
  have text : indented level (.obj (first :: others)) ++ rest =
      '\x7b' :: (newLine (level + 1) ++ (indentedEntry (level + 1) first ++ after)) := by
    simp only [indented, indentedEntry, indentedFields_eq_onLines, after, List.cons_append,
      List.append_assoc, List.nil_append]
  have objects : value (limit + 1) ('\x7b' :: (newLine (level + 1) ++ c :: (line ++ after))) =
      object (value limit) (newLine (level + 1) ++ c :: (line ++ after)) := rfl
  rw [text, written, List.cons_append, objects,
    object_of_ne_close (skipGap_newLine _ notGap _) notClose, depth, depthOfFields_eq_foldr]
  rw [written] at read
  have made := (read.map fun found => Json.obj (Fields.ofList found)).inside
  rwa [Fields.ofList_of_sorted sorted] at made

theorem Legible.number {number : Number} (legible : (num number).Legible) : number.Legible := by
  cases number with
  | natural value => exact Number.legible_natural value
  | negative below => exact Number.legible_negative below
  | real real => exact legible.here real rfl

theorem value_str (limit level : Nat) (text : String) (rest : List Char) :
    value limit (indented level (.str text) ++ rest) = .ok (.str text, rest) := by
  have quoted : indented level (.str text) ++ rest =
      '"' :: (text.toList.flatMap escaped ++ '"' :: rest) := by
    show quote text ++ rest = _
    rw [quote, List.cons_append, List.cons_append, List.append_assoc, List.singleton_append]
  obtain ⟨list, fields, isValueBy⟩ := value_eq_valueBy limit
  rw [quoted, isValueBy]
  show made Json.str (string (text.toList.flatMap escaped ++ '"' :: rest)) = _
  rw [string_quote]
  rfl

/-- The text of an ordered and legible value is read back, if it is not too deep. -/
theorem readsWithin_indented (stored : Json) : ∀ (limit level : Nat) (rest : List Char),
    stored.Ordered → stored.Legible → Stops rest →
      ReadsWithin limit stored.depth stored rest (value limit (stored.indented level ++ rest)) := by
  induction stored using Json.induction with
  | each stored ih =>
    intro limit level rest ordered legible stops
    obtain ⟨list, fields, isValueBy⟩ := value_eq_valueBy limit
    cases stored with
    | null =>
      rw [isValueBy]
      exact readsWithin_of_ok rfl
    | bool flag =>
      rw [isValueBy]
      cases flag with
      | true => exact readsWithin_of_ok rfl
      | false => exact readsWithin_of_ok rfl
    | num number => exact readsWithin_of_ok (value_number legible.number limit stops)
    | str text => exact readsWithin_of_ok (value_str limit level text rest)
    | arr items =>
      cases items with
      | nil =>
        cases limit with
        | zero => exact readsWithin_zero (Or.inl rfl) _ rest
        | succ limit => exact Or.inl ⟨Nat.succ_le_succ (Nat.zero_le limit), rfl⟩
      | cons item others =>
        cases limit with
        | zero =>
          rw [indented]
          exact readsWithin_zero (Or.inl rfl) _ rest
        | succ limit =>
          exact readsWithin_arr (fun part isPart rest stops => ih part isPart limit (level + 1) rest
            (ordered.parts part isPart) (legible.parts part isPart) stops) rest
    | obj fields =>
      cases fields with
      | nil =>
        cases limit with
        | zero => exact readsWithin_zero (Or.inr rfl) _ rest
        | succ limit => exact Or.inl ⟨Nat.succ_le_succ (Nat.zero_le limit), rfl⟩
      | cons first others =>
        cases limit with
        | zero => exact readsWithin_zero (Or.inr rfl) _ rest
        | succ limit =>
          refine readsWithin_obj (ordered.here _ rfl) (fun entry isEntry rest stops => ?_) rest
          have isPart : entry.2 ∈ (obj (first :: others)).parts := List.mem_map_of_mem isEntry
          exact ih entry.2 isPart limit (level + 1) rest (ordered.parts _ isPart)
            (legible.parts _ isPart) stops

/-- **What becomes of a printed document.** An ordered and legible value is read back from its text
if it nests no deeper than documents may, and otherwise its text is refused for that. -/
theorem parse_prettyText {stored : Json} (ordered : stored.Ordered) (legible : stored.Legible) :
    (stored.depth ≤ nestingLimit → parse (stored.prettyText ++ "\n") = .ok stored) ∧
      (nestingLimit < stored.depth → ∃ error, parse (stored.prettyText ++ "\n") = .error error ∧
        error.problem = .tooDeep) := by
  have text : (stored.prettyText ++ "\n").toList = stored.indented 0 ++ ['\n'] := by
    rw [prettyText, String.toList_append, String.toList_ofList]
    rfl
  have stops : Stops ['\n'] := stops_cons (by decide) []
  have reads := readsWithin_indented stored nestingLimit 0 ['\n'] ordered legible stops
  rw [parse, parseWithin, text]
  rcases reads with ⟨fits, read⟩ | ⟨deep, refusal, refused, tooDeep⟩
  · refine ⟨fun _ => ?_, fun deep => absurd fits (Nat.not_le_of_lt deep)⟩
    rw [read]
    rfl
  · refine ⟨fun fits => absurd fits (Nat.not_le_of_lt deep), fun _ => ?_⟩
    rw [refused]
    exact ⟨_, rfl, tooDeep⟩

/-! ### Documents are ordered -/

theorem ordered_of_no_parts {stored : Json} (noParts : stored.parts = [])
    (notObject : ∀ fields, stored ≠ .obj fields) : stored.Ordered := by
  refine .intro (fun fields isObject => absurd isObject (notObject fields)) fun part isPart => ?_
  rw [noParts] at isPart
  cases isPart

theorem yields_word {stored : Json} (ordered : stored.Ordered) :
    ∀ letters, (word stored letters).Yields Ordered
  | [], _, _, _, succeeds => by
    cases succeeds
    exact ordered
  | _ :: _, [], _, _, succeeds => by cases succeeds
  | c :: letters, d :: text, read, rest, succeeds => by
    rw [word] at succeeds
    split at succeeds
    · exact yields_word ordered letters text read rest succeeds
    · cases succeeds

theorem yields_array {item : Scanner Json} (yields : item.Yields Ordered) :
    (array item).Yields Ordered := by
  intro text read rest succeeds
  unfold array at succeeds
  split at succeeds
  · cases succeeds
  · cases succeeds
    exact ordered_of_no_parts rfl fun _ => Json.noConfusion
  · obtain ⟨⟨values, left⟩, readItems, isArray⟩ := bind_eq_ok_iff.mp succeeds
    cases isArray
    rw [items_eq_separated] at readItems
    exact .intro (fun _ => Json.noConfusion) (yields_separated yields _ _ _ _ readItems)

theorem yields_entry {scan : Scanner Json} (yields : scan.Yields Ordered) :
    (entry scan).Yields fun entry => entry.2.Ordered := by
  intro text read rest succeeds
  unfold entry at succeeds
  split at succeeds
  · obtain ⟨⟨key, afterKey⟩, _, succeeds⟩ := bind_eq_ok_iff.mp succeeds
    simp only at succeeds
    split at succeeds
    · cases succeeds
    · obtain ⟨⟨stored, left⟩, readValue, isEntry⟩ := bind_eq_ok_iff.mp succeeds
      cases isEntry
      exact yields _ _ _ readValue
    · cases succeeds
  · cases succeeds

theorem yields_object {scan : Scanner Json} (yields : scan.Yields Ordered) :
    (object scan).Yields Ordered := by
  intro text read rest succeeds
  unfold object at succeeds
  split at succeeds
  · cases succeeds
  · cases succeeds
    refine .intro (fun fields isObject => ?_) fun _ isPart => nomatch isPart
    cases isObject
    exact List.Pairwise.nil
  · obtain ⟨⟨found, left⟩, readEntries, isObject⟩ := bind_eq_ok_iff.mp succeeds
    cases isObject
    rw [entries_eq_separated] at readEntries
    have each := yields_separated (yields_entry yields) _ _ _ _ readEntries
    refine .intro (fun fields isObject => ?_) ?_
    · cases isObject
      exact Fields.sorted_ofList found
    · exact forall_parts_obj.mpr fun entry isEntry =>
        each entry (Fields.mem_of_mem_ofList isEntry)

theorem yields_valueBy {list fields : Scanner Json} (listYields : list.Yields Ordered)
    (fieldsYields : fields.Yields Ordered) : (valueBy list fields).Yields Ordered := by
  intro text read rest succeeds
  unfold valueBy at succeeds
  have number : ∀ negative text, number negative text = .ok (read, rest) → read.Ordered := by
    intro negative text readNumber
    obtain ⟨number, rfl⟩ := number_eq_ok readNumber
    exact ordered_of_no_parts rfl fun _ => Json.noConfusion
  split at succeeds
  · cases succeeds
  · split at succeeds
    · exact listYields _ _ _ succeeds
    split at succeeds
    · exact fieldsYields _ _ _ succeeds
    split at succeeds
    · obtain ⟨⟨text, left⟩, _, isText⟩ := bind_eq_ok_iff.mp succeeds
      cases isText
      exact ordered_of_no_parts rfl fun _ => Json.noConfusion
    split at succeeds
    · exact number _ _ succeeds
    split at succeeds
    · exact number _ _ succeeds
    split at succeeds
    · exact yields_word (ordered_of_no_parts rfl fun _ => Json.noConfusion) _ _ _ _ succeeds
    split at succeeds
    · exact yields_word (ordered_of_no_parts rfl fun _ => Json.noConfusion) _ _ _ _ succeeds
    split at succeeds
    · exact yields_word (ordered_of_no_parts rfl fun _ => Json.noConfusion) _ _ _ _ succeeds
    · cases succeeds

theorem yields_value : ∀ limit : Nat, (value limit).Yields Ordered
  | 0 => yields_valueBy (fun _ _ _ succeeds => nomatch succeeds) fun _ _ _ succeeds =>
    nomatch succeeds
  | limit + 1 => yields_valueBy (fun _ => yields_array (yields_value limit) _) fun _ =>
    yields_object (yields_value limit) _

/-- **Every document is ordered**, in whatever order its text lists the entries of its objects. -/
theorem ordered_of_parse {text : String} {stored : Json} (succeeds : parse text = .ok stored) :
    stored.Ordered := by
  unfold parse parseWithin at succeeds
  split at succeeds
  · cases succeeds
  · rename_i read rest reads
    split at succeeds
    · cases succeeds
      exact yields_value nestingLimit _ _ _ reads
    · cases succeeds

end IvrFlow.Json
