import EntityQuery.Text.Quoted

/-!
# Quoted literals cannot be broken out of

`scanQuoted q` reads a quoted text from behind its opening quote, one character at a time: two `q`
stand for one, and the first `q` that stands alone ends the text. Doubling is exactly what this scan
undoes (`scanQuoted_doubled`), and so is the choice of the quote that `quoteChars` makes
(`quoteChars_body`): whatever a text holds, the scan ends at the last character of its literal.
-/

namespace EntityQuery.Text

/-! ## Scanning -/

/-- Read a quoted text whose opening `q` has been read: the text, and what follows its closing
quote. There is no result when the text does not end. -/
def scanQuoted (q : Char) : List Char → Option (List Char × List Char)
  | [] => none
  | c :: s =>
    if c = q then
      match s with
      | [] => some ([], [])
      | d :: t =>
        if d = q then (scanQuoted q t).map fun r => (q :: r.1, r.2)
        else some ([], d :: t)
    else (scanQuoted q s).map fun r => (c :: r.1, r.2)

@[simp] theorem scanQuoted_pair (q : Char) (s : List Char) :
    scanQuoted q (q :: q :: s) = (scanQuoted q s).map fun r => (q :: r.1, r.2) := by
  simp [scanQuoted]

theorem scanQuoted_other {q c : Char} (s : List Char) (h : c ≠ q) :
    scanQuoted q (c :: s) = (scanQuoted q s).map fun r => (c :: r.1, r.2) := by
  cases s <;> simp [scanQuoted, h]

theorem scanQuoted_close {q : Char} {rest : List Char} (h : rest.head? ≠ some q) :
    scanQuoted q (q :: rest) = some ([], rest) := by
  cases rest with
  | nil => simp [scanQuoted]
  | cons d t =>
    have hd : d ≠ q := by simpa using h
    simp [scanQuoted, hd]

/-! ## Doubling -/

theorem doubled_of_notMem {q : Char} {s : List Char} (h : q ∉ s) : doubled q s = s := by
  induction s with
  | nil => rfl
  | cons c s ih =>
    simp only [List.mem_cons, not_or] at h
    rw [doubled, if_neg (Ne.symm h.1), ih h.2]

/-- The scan reads doubled text up to the quote that follows it, if no other one stands behind. -/
theorem scanQuoted_doubled (q : Char) (s : List Char) {rest : List Char}
    (h : rest.head? ≠ some q) : scanQuoted q (doubled q s ++ q :: rest) = some (s, rest) := by
  induction s with
  | nil => exact scanQuoted_close h
  | cons c s ih =>
    by_cases hc : c = q
    · subst hc
      simp [doubled, ih]
    · rw [doubled, if_neg hc, List.cons_append, scanQuoted_other _ hc, ih]
      rfl

/-- Reading pairs of `q` as one gives doubled text back: its quotes come in pairs from the left. -/
theorem undoubled_doubled (q : Char) (s : List Char) : undoubled q (doubled q s) = s := by
  induction s with
  | nil => rfl
  | cons c s ih =>
    by_cases hc : c = q
    · subst hc
      rw [doubled, if_pos rfl, undoubled, if_pos ⟨rfl, rfl⟩, ih]
    · rw [doubled, if_neg hc]
      cases hd : doubled q s with
      | nil =>
        rw [hd] at ih
        rw [undoubled, ← ih]
        rfl
      | cons d t => rw [undoubled, if_neg fun h => hc h.1, ← hd, ih]

/-! ## The quoted form -/

/-- Whichever quote is chosen, the inside of a quoted form is the text with that quote doubled. -/
theorem quoteChars_body (s : List Char) :
    ∃ q, (q = '\'' ∨ q = '"') ∧ quoteChars s = q :: (doubled q s ++ [q]) := by
  by_cases hs : '\'' ∈ s
  · by_cases hd : '"' ∈ s
    · exact ⟨'\'', Or.inl rfl, by simp [quoteChars, hs, hd]⟩
    · exact ⟨'"', Or.inr rfl, by simp [quoteChars, hs, hd, doubled_of_notMem hd]⟩
  · exact ⟨'\'', Or.inl rfl, by simp [quoteChars, hs, doubled_of_notMem hs]⟩

/-- **Quoted literals cannot be broken out of**: a literal opens with a quote, the scan behind it
ends at the literal's last character and gives the text, and it does so whatever stands behind the
literal, the same quote excepted. -/
theorem quote_scans_back (s : String) :
    ∃ q body, (q = '\'' ∨ q = '"') ∧ (quote s).toList = q :: body ∧
      scanQuoted q body = some (s.toList, []) ∧
      ∀ rest : List Char, rest.head? ≠ some q →
        scanQuoted q (body ++ rest) = some (s.toList, rest) := by
  obtain ⟨q, hq, hbody⟩ := quoteChars_body s.toList
  refine ⟨q, doubled q s.toList ++ [q], hq, ?_, ?_, ?_⟩
  · rw [quote, String.toList_ofList, hbody]
  · exact scanQuoted_doubled q s.toList (by simp)
  · intro rest hrest
    rw [List.append_assoc]
    exact scanQuoted_doubled q s.toList hrest

end EntityQuery.Text
