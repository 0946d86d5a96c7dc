import IvrFlow.Json.Printer
import IvrFlow.Proofs.Json.Numerals

/-!
Sequences of elements. The items of an array and the entries of an object are read by one loop,
`separated`, with a closing character and refusals of their own: what holds of that loop holds of
both.
-/

namespace IvrFlow.Json

variable {α : Type}

/-- Elements from one on, separated by commas, up to a closing character; at most as many as a bound
says. -/
def separated (close : Char) (unfinished unclosed : Problem) (element : Scanner α) :
    Nat → Scanner (List α)
  | 0, _ => refuseRead unfinished []
  | more + 1, text => do
    let (first, rest) ← element text
    match skipGap rest with
    | [] => refuseRead unfinished []
    | c :: rest =>
      if c = close then return ([first], rest)
      else if c = ',' then
        match skipGap rest with
        | [] => refuseRead .endInValue []
        | d :: next =>
          if d = close then refuseNext .trailingComma (d :: next)
          else do
            let (others, rest) ← separated close unfinished unclosed element more (d :: next)
            return (first :: others, rest)
      else refuseNext unclosed (c :: rest)

theorem items_eq_separated (item : Scanner Json) :
    ∀ (more : Nat) (text : List Char),
      items item more text = separated ']' .endInList .noListEnd item more text
  | 0, _ => rfl
  | more + 1, text => by
    rw [items, separated]
    congr 1
    funext ⟨first, rest⟩
    simp only
    cases skipGap rest with
    | nil => rfl
    | cons c rest =>
      by_cases isClose : c = ']'
      · subst isClose
        rfl
      · by_cases isComma : c = ','
        · subst isComma
          simp only [if_neg isClose, if_true]
          cases skipGap rest with
          | nil => rfl
          | cons d next =>
            by_cases isTrailing : d = ']'
            · subst isTrailing
              rfl
            · simp only [if_neg isTrailing, items_eq_separated item more]
              split <;> simp_all
        · simp only [if_neg isClose, if_neg isComma]
          split <;> simp_all

theorem entries_eq_separated (value : Scanner Json) :
    ∀ (more : Nat) (text : List Char),
      entries value more text = separated '\x7d' .endInObject .noObjectEnd (entry value) more text
  | 0, _ => rfl
  | more + 1, text => by
    rw [entries, separated]
    congr 1
    funext ⟨first, rest⟩
    simp only
    cases skipGap rest with
    | nil => rfl
    | cons c rest =>
      by_cases isClose : c = '\x7d'
      · subst isClose
        rfl
      · by_cases isComma : c = ','
        · subst isComma
          simp only [if_neg isClose, if_true]
          cases skipGap rest with
          | nil => rfl
          | cons d next =>
            by_cases isTrailing : d = '\x7d'
            · subst isTrailing
              rfl
            · simp only [if_neg isTrailing, entries_eq_separated value more]
              split <;> simp_all
        · simp only [if_neg isClose, if_neg isComma]
          split <;> simp_all

/-! ### What a scanner yields -/

/-- Everything that a scanner reads has a property. -/
def Scanner.Yields (holds : α → Prop) (scan : Scanner α) : Prop :=
  ∀ text read rest, scan text = .ok (read, rest) → holds read

section Yields

variable {holds : α → Prop} {element : Scanner α}

theorem yields_separated {close : Char} {unfinished unclosed : Problem}
    (yields : element.Yields holds) : ∀ more : Nat,
      Scanner.Yields (fun read => ∀ value ∈ read, holds value)
        (separated close unfinished unclosed element more)
  | 0 => by
    intro text read rest succeeds
    cases succeeds
  | more + 1 => by
    intro text read rest succeeds
    rw [separated] at succeeds
    obtain ⟨⟨first, afterFirst⟩, readFirst, succeeds⟩ := bind_eq_ok_iff.mp succeeds
    have firstHolds := yields text first afterFirst readFirst
    simp only at succeeds
    split at succeeds
    · cases succeeds
    · split at succeeds
      · cases succeeds
        exact List.forall_mem_singleton.mpr firstHolds
      · split at succeeds
        · split at succeeds
          · cases succeeds
          · split at succeeds
            · cases succeeds
            · obtain ⟨⟨others, afterOthers⟩, readOthers, succeeds⟩ := bind_eq_ok_iff.mp succeeds
              cases succeeds
              exact List.forall_mem_cons.mpr
                ⟨firstHolds, yields_separated yields more _ _ _ readOthers⟩
        · cases succeeds

end Yields

/-! ### Reading within a depth -/

/-- The outcome of reading something in which containers nest to a depth, where they may nest to a
limit: it is read up to the text after it, or refused for being too deep. -/
def ReadsWithin (limit depth : Nat) (read : α) (rest : List Char)
    (outcome : Except Refusal (α × List Char)) : Prop :=
  (depth ≤ limit ∧ outcome = .ok (read, rest)) ∨
    (limit < depth ∧ ∃ refusal, outcome = .error refusal ∧ refusal.problem = .tooDeep)

theorem readsWithin_of_ok {limit : Nat} {read : α} {rest : List Char}
    {outcome : Except Refusal (α × List Char)} (succeeds : outcome = .ok (read, rest)) :
    ReadsWithin limit 0 read rest outcome :=
  Or.inl ⟨Nat.zero_le limit, succeeds⟩

/-- What is made of something read is read within the same depth. -/
theorem ReadsWithin.map {β : Type} {limit depth : Nat} {read : α} {rest : List Char}
    {outcome : Except Refusal (α × List Char)} (reads : ReadsWithin limit depth read rest outcome)
    (make : α → β) :
    ReadsWithin limit depth (make read) rest (made make outcome) := by
  rcases reads with ⟨fits, rfl⟩ | ⟨deep, refusal, rfl, tooDeep⟩
  · exact Or.inl ⟨fits, rfl⟩
  · exact Or.inr ⟨deep, refusal, rfl, tooDeep⟩

theorem ReadsWithin.raise {limit depth other : Nat} {read : α} {rest : List Char}
    {outcome : Except Refusal (α × List Char)} (reads : ReadsWithin limit depth read rest outcome)
    (fits : other ≤ limit) : ReadsWithin limit (max other depth) read rest outcome := by
  rcases reads with ⟨fitsToo, succeeds⟩ | ⟨deep, refused⟩
  · exact Or.inl ⟨Nat.max_le.mpr ⟨fits, fitsToo⟩, succeeds⟩
  · exact Or.inr ⟨Nat.lt_of_lt_of_le deep (Nat.le_max_right _ _), refused⟩

/-! ### Sequences over several lines -/

theorem skipGap_newLine (level : Nat) {c : Char} (other : isGap c = false) (rest : List Char) :
    skipGap (newLine level ++ c :: rest) = c :: rest := by
  have gaps : ∀ d ∈ newLine level, isGap d = true := by
    refine List.forall_mem_cons.mpr ⟨rfl, fun d isBlank => ?_⟩
    rw [List.eq_of_mem_replicate isBlank]
    rfl
  rw [skipGap, List.dropWhile_append_of_pos gaps]
  exact skipGap_cons_of_not other rest

/-- The elements after the first, each after a comma on a line of its own. -/
def onLines (level : Nat) (write : α → List Char) (values : List α) : List Char :=
  values.flatMap fun value => ',' :: newLine level ++ write value

section Lines

variable {close : Char} {unfinished unclosed : Problem} {element : Scanner α}
  {write : α → List Char} {depth : α → Nat} {limit level lower more : Nat}

theorem separated_succ_of_error {text : List Char} {refusal : Refusal}
    (refused : element text = .error refusal) :
    separated close unfinished unclosed element (more + 1) text = .error refusal := by
  rw [separated, refused]
  rfl

theorem separated_succ_of_close {text gapped rest : List Char} {first : α}
    (read : element text = .ok (first, gapped)) (closes : skipGap gapped = close :: rest) :
    separated close unfinished unclosed element (more + 1) text = .ok ([first], rest) := by
  rw [separated, read]
  simp only [ok_bind, closes, if_true]
  rfl

theorem separated_succ_of_comma (notComma : close ≠ ',') {text gapped next : List Char} {first : α}
    {d : Char} (read : element text = .ok (first, ',' :: gapped))
    (goesOn : skipGap gapped = d :: next) (notClose : d ≠ close) :
    separated close unfinished unclosed element (more + 1) text =
      made (first :: ·) (separated close unfinished unclosed element more (d :: next)) := by
  have comma : skipGap (',' :: gapped) = ',' :: gapped := skipGap_cons_of_not rfl gapped
  rw [separated, read, made]
  simp only [ok_bind, comma, if_neg notComma.symm, if_true, goesOn, if_neg notClose]

/-- Elements on lines of their own are read back one after the other, and the first that is too deep
is refused. -/
theorem readsWithin_separated (notGap : isGap close = false) (notComma : close ≠ ',')
    (starts : ∀ value : α, ∃ c rest, write value = c :: rest ∧ isGap c = false ∧ c ≠ close)
    {others : List α} {first : α} (reads : ∀ value ∈ first :: others, ∀ rest, Stops rest →
      ReadsWithin limit (depth value) value rest (element (write value ++ rest)))
    (enough : others.length < more) (rest : List Char) :
    ReadsWithin limit (((first :: others).map depth).foldr max 0) (first :: others) rest
      (separated close unfinished unclosed element more
        (write first ++ (onLines level write others ++ (newLine lower ++ close :: rest)))) := by
  induction others generalizing first more with
  | nil =>
    obtain ⟨more, rfl⟩ := Nat.exists_eq_add_one_of_ne_zero (Nat.ne_of_gt enough)
    have stops : Stops (newLine lower ++ close :: rest) := stops_cons (by decide) _
    rw [List.map_singleton, List.foldr_cons, List.foldr_nil, Nat.max_zero]
    rcases reads first List.mem_cons_self _ stops with
      ⟨fits, read⟩ | ⟨deep, refusal, refused, tooDeep⟩
    · exact Or.inl ⟨fits, separated_succ_of_close read (skipGap_newLine lower notGap rest)⟩
    · exact Or.inr ⟨deep, refusal, separated_succ_of_error refused, tooDeep⟩
  | cons next others ih =>
    obtain ⟨more, rfl⟩ := Nat.exists_eq_add_one_of_ne_zero (Nat.ne_of_gt (Nat.zero_lt_of_lt enough))
    obtain ⟨readsFirst, readsOthers⟩ := List.forall_mem_cons.mp reads
    obtain ⟨c, line, written, cNotGap, notClose⟩ := starts next
    have readOthers := ih readsOthers (Nat.lt_of_succ_lt_succ enough)
    rw [written, List.cons_append] at readOthers
    have after : onLines level write (next :: others) ++ (newLine lower ++ close :: rest) =
        ',' :: (newLine level ++ c :: (line ++ (onLines level write others ++
          (newLine lower ++ close :: rest)))) := by
      simp only [onLines, List.flatMap_cons, written, List.cons_append, List.append_assoc]
    rw [after, List.map_cons, List.foldr_cons]
    have stops : Stops (',' :: (newLine level ++ c :: (line ++ (onLines level write others ++
        (newLine lower ++ close :: rest))))) := stops_cons (by decide) _
    rcases readsFirst _ stops with ⟨fits, read⟩ | ⟨deep, refusal, refused, tooDeep⟩
    · rw [separated_succ_of_comma notComma read (skipGap_newLine level cNotGap _) notClose]
      exact (readOthers.map (first :: ·)).raise fits
    · exact Or.inr ⟨Nat.lt_of_lt_of_le deep (Nat.le_max_left _ _), refusal,
        separated_succ_of_error refused, tooDeep⟩

end Lines

end IvrFlow.Json
