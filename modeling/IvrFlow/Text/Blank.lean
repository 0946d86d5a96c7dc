import IvrFlow.Text.Ranges

/-!
Blank characters, which are those with the White_Space property, and text without the blanks
around it.
-/

namespace IvrFlow.Text

/-- The characters with the White_Space property. -/
def blanks : Ranges :=
  [(0x09, 0x0D), (0x20, 0x20), (0x85, 0x85), (0xA0, 0xA0), (0x1680, 0x1680), (0x2000, 0x200A),
   (0x2028, 0x2029), (0x202F, 0x202F), (0x205F, 0x205F), (0x3000, 0x3000)]

/-- Whether a character is blank. -/
def isBlank (c : Char) : Bool := blanks.contains c

/-- Text without the blanks at its two ends. -/
def trim (text : List Char) : List Char :=
  ((text.dropWhile isBlank).reverse.dropWhile isBlank).reverse

/-- Text without blanks is its own trimmed form. -/
theorem trim_of_forall_not_isBlank {text : List Char} (h : ∀ c ∈ text, isBlank c = false) :
    trim text = text := by
  have hkeep : ∀ cs : List Char, (∀ c ∈ cs, isBlank c = false) → cs.dropWhile isBlank = cs
    | [], _ => rfl
    | c :: cs, hcs => by rw [List.dropWhile_cons, if_neg (by simp [hcs c])]
  unfold trim
  rw [hkeep text h, hkeep text.reverse (fun c hc => h c (List.mem_reverse.mp hc)),
    List.reverse_reverse]

end IvrFlow.Text
