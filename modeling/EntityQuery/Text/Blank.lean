/-!
# White space

The characters with the Unicode property White_Space, and trimming. Two sets are in use: trimming
takes the Unicode property, the fixed text patterns take the six ASCII blanks.
-/

namespace EntityQuery.Text

/-- Whether a code point lies in one of some closed ranges. -/
def inRanges (ranges : List (Nat × Nat)) (n : Nat) : Bool :=
  ranges.any fun r => decide (r.1 ≤ n) && decide (n ≤ r.2)

/-- The code points with the property White_Space: closed ranges, ascending and apart. -/
def blankRanges : List (Nat × Nat) :=
  [(0x09, 0x0D), (0x20, 0x20), (0x85, 0x85), (0xA0, 0xA0), (0x1680, 0x1680), (0x2000, 0x200A),
    (0x2028, 0x2029), (0x202F, 0x202F), (0x205F, 0x205F), (0x3000, 0x3000)]

/-- Whether a character has the Unicode property White_Space. -/
def isBlank (c : Char) : Bool :=
  inRanges blankRanges c.toNat

/-- The ASCII blanks: space, and the controls from tab to carriage return. -/
def isAsciiBlank (c : Char) : Bool :=
  c == ' ' || (decide (9 ≤ c.toNat) && decide (c.toNat ≤ 13))

/-- Drop the longest run at the end whose characters all satisfy `p`. -/
def dropEndWhile (p : Char → Bool) (s : List Char) : List Char :=
  (s.reverse.dropWhile p).reverse

/-- Drop the characters that satisfy `p` from both ends. -/
def trimWhere (p : Char → Bool) (s : List Char) : List Char :=
  dropEndWhile p (s.dropWhile p)

/-- Drop white space from both ends. -/
def trim (s : List Char) : List Char :=
  trimWhere isBlank s

/-- A text with no such character at either end is left alone. -/
theorem trimWhere_eq_self {p : Char → Bool} {s : List Char} (hhead : ∀ c ∈ s.head?, p c = false)
    (hlast : ∀ c ∈ s.getLast?, p c = false) : trimWhere p s = s := by
  have hdrop : ∀ {l : List Char}, (∀ c ∈ l.head?, p c = false) → l.dropWhile p = l := by
    intro l hl
    cases l with
    | nil => rfl
    | cons c l => exact List.dropWhile_cons_of_neg (by simp [hl c rfl])
  rw [List.getLast?_eq_head?_reverse] at hlast
  rw [trimWhere, dropEndWhile, hdrop hhead, hdrop hlast, List.reverse_reverse]

theorem isBlank_of_isDigit {c : Char} (h : c.isDigit = true) : isBlank c = false := by
  have hlo : 48 ≤ c.toNat := by
    simpa using (Char.isDigit_iff_toNat.mp h).1
  have hhi : c.toNat ≤ 57 := by
    simpa using (Char.isDigit_iff_toNat.mp h).2
  simp only [isBlank, inRanges, blankRanges, List.any_cons, List.any_nil, Bool.or_false,
    Bool.or_eq_false_iff, Bool.and_eq_false_iff, decide_eq_false_iff_not]
  omega

end EntityQuery.Text
