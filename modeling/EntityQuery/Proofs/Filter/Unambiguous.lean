import EntityQuery.Proofs.Filter.Grammar

/-!
# Filter texts are unambiguous

No two readable structures have the same text, even when the text goes on (`Readable.unique`).

Proof. By induction on the structure `x`, against any readable `y` whose text starts the same text.
The first character gives the form of `y` (`Readable.form`). Words end at the first character that is
none of theirs, quoted texts at the first quote that stands alone, date literals at their only closing
bracket; a function cannot be a date literal, because no operand starts with a year and a minus
sign (`Readable.not_date`). After an opening bracket either two names stand in a row, as with a unary
operator, or an operand and a name between blanks (`unary_ne_operand`); the operand is unique by
induction, the name gives the operator, and with it the rest. What follows an operand is always a
stop, which no operand starts with, so series of operands end at the same place (`series_unique`).
-/

namespace EntityQuery

namespace Outline

open Text

/-! ## The start of a text -/

section Start

variable {x : Outline} {r u : List Char} {c : Char}

theorem Readable.not_stop (hx : Readable x) (h : x.chars ++ r = c :: u) : isStop c = false := by
  rcases hx.form h with ⟨hc, -⟩ | ⟨rfl | rfl, -⟩ | ⟨rfl, -⟩ | ⟨rfl, -⟩
  · rcases hc with rfl | hc
    · decide
    · cases hstop : isStop c with
      | false => rfl
      | true =>
        rw [isNameChar_of_isStop hstop] at hc
        cases hc
  all_goals decide

theorem Readable.wordForm (hx : Readable x) (h : x.chars ++ r = c :: u)
    (hc : c = '-' ∨ isNameChar c = true) : WordForm x := by
  rcases hx.form h with ⟨-, hform⟩ | ⟨rfl | rfl, -⟩ | ⟨rfl, -⟩ | ⟨rfl, -⟩
  · exact hform
  all_goals exact absurd hc (by decide)

theorem Readable.wordForm_of_isWord {w : List Char} (hx : Readable x) (hw : isWord w = true)
    (h : x.chars ++ r = w ++ u) : WordForm x := by
  match w with
  | c :: s => exact hx.wordForm h (head_of_isWord (r := []) hw (List.append_nil _))

theorem Readable.quoteForm (hx : Readable x) (h : x.chars ++ r = c :: u)
    (hc : c = '\'' ∨ c = '"') : ∃ s, x = .leaf (quote s) := by
  rcases hx.form h with ⟨hword, -⟩ | ⟨-, hform⟩ | ⟨rfl, -⟩ | ⟨rfl, -⟩
  · rcases hc with rfl | rfl <;> exact absurd hword (by decide)
  · exact hform
  all_goals exact absurd hc (by decide)

theorem Readable.listForm (hx : Readable x) (h : x.chars ++ r = '[' :: u) :
    ∃ xs, x = .list xs ∧ ∀ y ∈ xs, Readable y := by
  rcases hx.form h with ⟨hword, -⟩ | ⟨hquote, -⟩ | ⟨-, hform⟩ | ⟨hparen, -⟩
  · exact absurd hword (by decide)
  · exact absurd hquote (by decide)
  · exact hform
  · exact absurd hparen (by decide)

theorem Readable.parenForm (hx : Readable x) (h : x.chars ++ r = '(' :: u) : ParenForm x := by
  rcases hx.form h with ⟨hword, -⟩ | ⟨hquote, -⟩ | ⟨hlist, -⟩ | ⟨-, hform⟩
  · exact absurd hword (by decide)
  · exact absurd hquote (by decide)
  · exact absurd hlist (by decide)
  · exact hform

end Start

/-! ## Unique reading -/

/-- Whether a structure is the only one that can be read from the front of a text that starts with
its own. -/
def Unique (x : Outline) : Prop :=
  ∀ {y : Outline} {r t : List Char}, Readable y → Stops r → Stops t →
    x.chars ++ r = y.chars ++ t → x = y ∧ r = t

/-! ### Leaves -/

theorem word_ne_call {w w' r v : List Char} (hw : isWord w = true) (hw' : isWord w' = true)
    (hr : Stops r) (h : w ++ r = w' ++ '(' :: v) : False := by
  obtain ⟨-, rfl⟩ := word_unique hw hw' hr.breaks (breaks_open _) h
  rw [stops_cons] at hr
  exact absurd hr (by decide)

theorem unique_word {s : String} (hs : isWord s.toList = true) : Unique (.leaf s) := by
  intro y r t hy hr ht h
  rw [chars, text_leaf] at h
  have hform := hy.wordForm_of_isWord hs h.symm
  rcases hform with ⟨s', rfl, hs'⟩ | ⟨s', rfl, year, rest, hs', -⟩ | ⟨op, xs, rfl, hop, -⟩
  · rw [chars, text_leaf] at h
    obtain ⟨hw, hrt⟩ := word_unique hs hs' hr.breaks ht.breaks h
    exact ⟨by rw [String.toList_inj.mp hw], hrt⟩
  · rw [chars, text_leaf, hs', List.append_assoc] at h
    exact (word_ne_call hs isWord_date hr h).elim
  · rw [chars_function hop, List.append_assoc] at h
    exact (word_ne_call hs op.isWord_name hr h).elim

theorem unique_quoted (s : String) : Unique (.leaf (quote s)) := by
  intro y r t hy hr ht h
  obtain ⟨q, hq, hbody⟩ := quoteChars_body s.toList
  have hnot : ∀ {u : List Char}, Stops u → u.head? ≠ some q := by
    intro u hu hhead
    have hstop := hu q hhead
    rcases hq with rfl | rfl <;> exact absurd hstop (by decide)
  rw [chars, text_leaf, quote, String.toList_ofList, hbody, List.cons_append] at h
  obtain ⟨s', rfl⟩ := hy.quoteForm h.symm hq
  obtain ⟨q', -, hbody'⟩ := quoteChars_body s'.toList
  rw [chars, text_leaf, quote, String.toList_ofList, hbody', List.cons_append,
    List.cons.injEq] at h
  obtain ⟨rfl, h⟩ := h
  rw [List.append_assoc, List.append_assoc] at h
  have hscan := scanQuoted_doubled q s.toList (hnot hr)
  have hscan' := scanQuoted_doubled q s'.toList (hnot ht)
  simp only [List.singleton_append] at h
  rw [h, hscan', Option.some.injEq, Prod.mk.injEq] at hscan
  exact ⟨by rw [String.toList_inj.mp hscan.1], hscan.2.symm⟩

/-- What stands in the brackets of a date literal is the start of no operand. -/
theorem Readable.not_date {x : Outline} (hx : Readable x) {year r u : List Char} (hr : Stops r)
    (hne : year ≠ []) (hdigits : ∀ c ∈ year, c.isDigit = true)
    (h : x.chars ++ r = year ++ '-' :: u) : False := by
  have hyear := isWord_of_digits hne hdigits
  have hbreaks : Breaks ('-' :: u) := (breaks_cons _ _).mpr (by decide)
  have hcall : ∀ {w v : List Char}, isWord w = true → w ++ '(' :: v = year ++ '-' :: u → False := by
    intro w v hw h
    obtain ⟨-, hv⟩ := word_unique hw hyear (breaks_open _) hbreaks h
    simp at hv
  have hform := hx.wordForm_of_isWord hyear h
  rcases hform with ⟨s, rfl, hs⟩ | ⟨s, rfl, year', rest, hs, -⟩ | ⟨op, xs, rfl, hop, -⟩
  · rw [chars, text_leaf] at h
    obtain ⟨-, rfl⟩ := word_unique hs hyear hr.breaks hbreaks h
    rw [stops_cons] at hr
    exact absurd hr (by decide)
  · rw [chars, text_leaf, hs, List.append_assoc] at h
    exact hcall isWord_date h
  · rw [chars_function hop, List.append_assoc] at h
    exact hcall op.isWord_name h

/-! ### Series -/

section Series

variable {s c : Char} {sep : List Char}

theorem stops_tail (hs : isStop s = true) (hc : isStop c = true) (xs : List Outline)
    (r : List Char) : Stops (tail (s :: sep) xs ++ c :: r) := by
  cases xs with
  | nil => simpa using hc
  | cons x xs => simpa using hs

theorem tail_unique (hs : isStop s = true) (hc : isStop c = true) (hne : s ≠ c)
    {xs ys : List Outline} {r t : List Char} (hxs : ∀ x ∈ xs, Unique x)
    (hys : ∀ y ∈ ys, Readable y)
    (h : tail (s :: sep) xs ++ c :: r = tail (s :: sep) ys ++ c :: t) : xs = ys ∧ r = t := by
  induction xs generalizing ys with
  | nil =>
    cases ys with
    | nil => exact ⟨rfl, by simpa using h⟩
    -- a separator is not the character that ends the series
    | cons y ys => exact absurd (by simpa using congrArg List.head? h) hne.symm
  | cons x xs ih =>
    cases ys with
    | nil => exact absurd (by simpa using congrArg List.head? h) hne
    | cons y ys =>
      simp only [tail_cons, List.append_assoc] at h
      obtain ⟨rfl, hrest⟩ := hxs x (by simp) (hys y (by simp)) (stops_tail hs hc xs r)
        (stops_tail hs hc ys t) (List.append_cancel_left h)
      obtain ⟨rfl, hrt⟩ := ih (fun z hz => hxs z (by simp [hz]))
        (fun z hz => hys z (by simp [hz])) hrest
      exact ⟨rfl, hrt⟩

theorem series_unique (hs : isStop s = true) (hc : isStop c = true) (hne : s ≠ c)
    {xs ys : List Outline} {r t : List Char} (hxs : ∀ x ∈ xs, Readable x ∧ Unique x)
    (hys : ∀ y ∈ ys, Readable y)
    (h : series (s :: sep) xs ++ c :: r = series (s :: sep) ys ++ c :: t) : xs = ys ∧ r = t := by
  cases xs with
  | nil =>
    cases ys with
    | nil => exact ⟨rfl, by simpa [series] using h⟩
    | cons y ys =>
      -- the end of the series is a stop, and no operand starts with one
      rw [series, series, List.nil_append, List.append_assoc] at h
      rw [(hys y (by simp)).not_stop h.symm] at hc
      cases hc
  | cons x xs =>
    cases ys with
    | nil =>
      rw [series, series, List.nil_append, List.append_assoc] at h
      rw [(hxs x (by simp)).1.not_stop h] at hc
      cases hc
    | cons y ys =>
      rw [series, series, List.append_assoc, List.append_assoc] at h
      obtain ⟨rfl, hrest⟩ := (hxs x (by simp)).2 (hys y (by simp)) (stops_tail hs hc xs r)
        (stops_tail hs hc ys t) h
      obtain ⟨rfl, hrt⟩ := tail_unique hs hc hne (fun z hz => (hxs z (by simp [hz])).2)
        (fun z hz => hys z (by simp [hz])) hrest
      exact ⟨rfl, hrt⟩

end Series

/-! ### Date literals and functions -/

theorem date_ne_function {s w r t : List Char} {xs : List Outline} (hs : IsDate s)
    (hw : isWord w = true) (hxs : ∀ x ∈ xs, Readable x)
    (h : s ++ r = w ++ '(' :: (series [',', ' '] xs ++ ')' :: t)) : False := by
  obtain ⟨year, rest, rfl, hne, hdigits, -⟩ := hs
  simp only [List.append_assoc, List.cons_append, List.nil_append] at h
  obtain ⟨-, h⟩ := word_unique isWord_date hw (breaks_open _) (breaks_open _) h
  rw [List.cons.injEq] at h
  cases xs with
  | nil =>
    match year, hne with
    | d :: ds, _ =>
      have hd : d = ')' := by simpa [series] using congrArg List.head? h.2
      exact absurd (hdigits d (by simp)) (by rw [hd]; decide)
  | cons x xs =>
    rw [series, List.append_assoc] at h
    exact (hxs x (by simp)).not_date (stops_tail (by decide) (by decide) xs t) hne hdigits h.2.symm

theorem date_body {year rest : List Char} (hdigits : ∀ c ∈ year, c.isDigit = true)
    (hrest : ')' ∉ rest) : ∀ c ∈ year ++ '-' :: rest, (c != ')') = true := by
  intro c hc
  rw [bne_iff_ne]
  rintro rfl
  rcases List.mem_append.mp hc with hc | hc
  · exact absurd (hdigits _ hc) (by decide)
  · rcases List.mem_cons.mp hc with hc | hc
    · exact absurd hc (by decide)
    · exact hrest hc

theorem unique_date {s : String} (hs : IsDate s.toList) : Unique (.leaf s) := by
  intro y r t hy hr ht h
  rw [chars, text_leaf] at h
  have hform : WordForm y := by
    obtain ⟨year, rest, hs, -⟩ := hs
    rw [hs, List.append_assoc] at h
    exact hy.wordForm_of_isWord isWord_date h.symm
  rcases hform with ⟨s', rfl, hs'⟩ | ⟨s', rfl, hs'⟩ | ⟨op, xs, rfl, hop, hxs⟩
  -- its first four letters are a word, behind which an opening bracket stands
  · obtain ⟨year, rest, hs, -⟩ := hs
    rw [chars, text_leaf, hs, List.append_assoc] at h
    exact (word_ne_call hs' isWord_date ht h.symm).elim
  · obtain ⟨year, rest, hs, -, hdigits, hrest⟩ := hs
    obtain ⟨year', rest', hs', -, hdigits', hrest'⟩ := hs'
    have hbodies : (year ++ '-' :: rest) ++ ')' :: r = (year' ++ '-' :: rest') ++ ')' :: t := by
      rw [chars, text_leaf, hs, hs'] at h
      simpa using h
    obtain ⟨hbody, hrt⟩ := run_unique (date_body hdigits hrest) (date_body hdigits' hrest')
      (by simp) (by simp) hbodies
    have hss : s.toList = s'.toList := by rw [hs, hs', hbody]
    exact ⟨by rw [String.toList_inj.mp hss], (List.cons.inj hrt).2⟩
  · rw [chars_function hop] at h
    exact (date_ne_function hs op.isWord_name hxs (by simpa using h)).elim

theorem unique_function {op : Operator} {xs : List Outline} (hop : op.shape = .function)
    (hxs : ∀ x ∈ xs, Readable x ∧ Unique x) : Unique (.operation op (.list xs)) := by
  intro y r t hy hr ht h
  rw [chars_function hop, List.append_assoc] at h
  have hform := hy.wordForm_of_isWord op.isWord_name h.symm
  rcases hform with ⟨s, rfl, hs⟩ | ⟨s, rfl, hs⟩ | ⟨op', ys, rfl, hop', hys⟩
  · rw [chars, text_leaf] at h
    exact (word_ne_call hs op.isWord_name ht h.symm).elim
  · rw [chars, text_leaf] at h
    exact (date_ne_function hs op.isWord_name (fun x hx => (hxs x hx).1)
      (by simpa using h.symm)).elim
  · rw [chars_function hop', List.append_assoc] at h
    obtain ⟨hname, h⟩ := word_unique op.isWord_name op'.isWord_name (breaks_open _) (breaks_open _) h
    obtain rfl := Operator.name_injective (String.toList_inj.mp hname)
    obtain ⟨rfl, hrt⟩ := series_unique (s := ',') (c := ')') (by decide) (by decide) (by decide)
      hxs hys (by simpa using h)
    exact ⟨rfl, hrt⟩

/-! ### Lists -/

theorem unique_list {xs : List Outline} (hxs : ∀ x ∈ xs, Readable x ∧ Unique x) :
    Unique (.list xs) := by
  intro y r t hy hr ht h
  rw [chars_list, List.cons_append] at h
  obtain ⟨ys, rfl, hys⟩ := hy.listForm h.symm
  rw [chars_list, List.cons_append, List.cons.injEq, List.append_assoc, List.append_assoc] at h
  obtain ⟨rfl, hrt⟩ := series_unique (s := ',') (c := ']') (by decide) (by decide) (by decide)
    hxs hys h.2
  exact ⟨rfl, hrt⟩

/-! ### Operators in brackets -/

theorem name_unique {op op' : Operator} {u v : List Char}
    (h : op.name.toList ++ ' ' :: u = op'.name.toList ++ ' ' :: v) : op = op' ∧ u = v := by
  obtain ⟨hname, hrest⟩ := word_unique op.isWord_name op'.isWord_name (breaks_blank _)
    (breaks_blank _) h
  exact ⟨Operator.name_injective (String.toList_inj.mp hname), (List.cons.inj hrest).2⟩

/-- Two names in a row, of which the second is followed by a blank: an operand there would be
followed by a bracket. -/
theorem unary_ne_operand {op op' : Operator} {x y : Outline} {r v : List Char} (hx : Readable x)
    (hy : Readable y)
    (h : op.name.toList ++ ' ' :: (x.chars ++ ')' :: r) = y.chars ++ (gap op' ++ v)) : False := by
  have hname : ∀ op : Operator, (leaf op.name).chars = op.name.toList := fun op => by
    rw [chars, text_leaf]
  rw [gap_append, ← hname op] at h
  -- the first name, read as a leaf, is all of `y`, and the second all of `x`
  obtain ⟨-, hfirst⟩ := unique_word op.isWord_name hy (stops_blank _) (stops_blank _) h
  rw [List.cons.injEq, ← hname op'] at hfirst
  obtain ⟨-, hsecond⟩ := unique_word op'.isWord_name hx (stops_blank _) (stops_close _) hfirst.2.symm
  exact absurd (List.cons.inj hsecond).1 (by decide)

theorem unique_unary {op : Operator} {x : Outline} (hop : op.shape = .unary) (hx : Readable x)
    (hux : Unique x) : Unique (.operation op x) := by
  intro y r t hy hr ht h
  simp only [chars_unary hop, List.cons_append, List.append_assoc, List.nil_append] at h
  rcases hy.parenForm h.symm with ⟨op', z, rfl, hop', hz⟩ | ⟨op', z, w, ws, rfl, hop', hws⟩ |
    ⟨op', z, zs, rfl, hop', hzs⟩
  · simp only [chars_unary hop', List.cons_append, List.append_assoc, List.nil_append,
      List.cons.injEq, true_and] at h
    obtain ⟨rfl, hrest⟩ := name_unique h
    obtain ⟨rfl, hrt⟩ := hux hz (stops_close _) (stops_close _) hrest
    exact ⟨rfl, (List.cons.inj hrt).2⟩
  · simp only [chars_chain hop', List.cons_append, List.append_assoc, List.cons.injEq,
      true_and] at h
    exact (unary_ne_operand hx (hws z (by simp)) h).elim
  · simp only [chars_collection hop', List.cons_append, List.append_assoc, List.cons.injEq,
      true_and] at h
    exact (unary_ne_operand hx (hzs z (by simp)) h).elim

theorem stops_gap (op : Operator) (u : List Char) : Stops (gap op ++ u) := by
  rw [gap_append]
  exact stops_blank _

theorem infix_unique {op op' : Operator} {x y : Outline} {u v : List Char} (hx : Unique x)
    (hy : Readable y) (h : x.chars ++ (gap op ++ u) = y.chars ++ (gap op' ++ v)) :
    x = y ∧ op = op' ∧ u = v := by
  obtain ⟨hxy, hgap⟩ := hx hy (stops_gap _ _) (stops_gap _ _) h
  rw [gap_append, gap_append, List.cons.injEq] at hgap
  exact ⟨hxy, name_unique hgap.2⟩

theorem chain_ne_collection {op : Operator} {P : Prop}
    (h : (op.shape = .binary ∧ P) ∨ op.shape = .variadic) : op.shape ≠ .collection := by
  rcases h with ⟨h, -⟩ | h <;> simp [h]

theorem unique_chain {op : Operator} {x y : Outline} {xs : List Outline}
    (hop : (op.shape = .binary ∧ xs = []) ∨ op.shape = .variadic)
    (hxs : ∀ z ∈ x :: y :: xs, Readable z ∧ Unique z) :
    Unique (.operation op (.list (x :: y :: xs))) := by
  intro y' r t hy' hr ht h
  obtain ⟨hx, hux⟩ := hxs x (by simp)
  obtain ⟨-, huy⟩ := hxs y (by simp)
  have hparen : isStop ')' = true := by decide
  simp only [chars_chain hop, List.cons_append, List.append_assoc, List.nil_append] at h
  rcases hy'.parenForm h.symm with ⟨op', z, rfl, hop', hz⟩ | ⟨op', z, w, ws, rfl, hop', hws⟩ |
    ⟨op', z, zs, rfl, hop', hzs⟩
  · simp only [chars_unary hop', List.cons_append, List.append_assoc, List.nil_append,
      List.cons.injEq, true_and] at h
    exact (unary_ne_operand hz hx h.symm).elim
  · simp only [chars_chain hop', List.cons_append, List.append_assoc, List.cons.injEq,
      true_and, List.nil_append] at h
    obtain ⟨rfl, rfl, hsecond⟩ := infix_unique hux (hws z (by simp)) h
    obtain ⟨rfl, htail⟩ := huy (hws w (by simp)) (stops_tail (by decide) hparen xs r)
      (stops_tail (by decide) hparen ws t) hsecond
    obtain ⟨rfl, hrt⟩ := tail_unique (by decide) hparen (by decide)
      (fun v hv => (hxs v (by simp [hv])).2) (fun v hv => hws v (by simp [hv])) htail
    exact ⟨rfl, hrt⟩
  · simp only [chars_collection hop', List.cons_append, List.append_assoc, List.cons.injEq,
      true_and] at h
    obtain ⟨-, rfl, -⟩ := infix_unique hux (hzs z (by simp)) h
    exact absurd hop' (chain_ne_collection hop)

theorem unique_collection {op : Operator} {x : Outline} {xs : List Outline}
    (hop : op.shape = .collection) (hxs : ∀ z ∈ x :: xs, Readable z ∧ Unique z) :
    Unique (.operation op (.list (x :: xs))) := by
  intro y r t hy hr ht h
  obtain ⟨hx, hux⟩ := hxs x (by simp)
  simp only [chars_collection hop, List.cons_append, List.append_assoc, List.nil_append] at h
  rcases hy.parenForm h.symm with ⟨op', z, rfl, hop', hz⟩ | ⟨op', z, w, ws, rfl, hop', hws⟩ |
    ⟨op', z, zs, rfl, hop', hzs⟩
  · simp only [chars_unary hop', List.cons_append, List.append_assoc, List.nil_append,
      List.cons.injEq, true_and] at h
    exact (unary_ne_operand hz hx h.symm).elim
  · simp only [chars_chain hop', List.cons_append, List.append_assoc, List.cons.injEq,
      true_and, List.nil_append] at h
    obtain ⟨-, rfl, -⟩ := infix_unique hux (hws z (by simp)) h
    exact absurd hop (chain_ne_collection hop')
  · simp only [chars_collection hop', List.cons_append, List.append_assoc, List.cons.injEq,
      true_and, List.nil_append] at h
    obtain ⟨rfl, rfl, hoptions⟩ := infix_unique hux (hzs z (by simp)) h
    obtain ⟨rfl, hrt⟩ := series_unique (by decide) (by decide) (by decide)
      (fun v hv => hxs v (by simp [hv])) (fun v hv => hzs v (by simp [hv]))
      (List.cons.inj hoptions).2
    exact ⟨rfl, (List.cons.inj hrt).2⟩

/-- A readable structure is the only one that can be read from its text, whatever follows. -/
theorem Readable.unique {x : Outline} (hx : Readable x) : Unique x := by
  induction hx with
  | word hs => exact unique_word hs
  | quoted s => exact unique_quoted s
  | date hs => exact unique_date hs
  | list hxs ih => exact unique_list fun x hx => ⟨hxs x hx, ih x hx⟩
  | unary hop hx ih => exact unique_unary hop hx ih
  | chain hop hxs ih => exact unique_chain hop fun x hx => ⟨hxs x hx, ih x hx⟩
  | collection hop hxs ih => exact unique_collection hop fun x hx => ⟨hxs x hx, ih x hx⟩
  | function hop hxs ih => exact unique_function hop fun x hx => ⟨hxs x hx, ih x hx⟩

theorem Readable.eq_of_text_eq {x y : Outline} (hx : Readable x) (hy : Readable y)
    (h : x.text = y.text) : x = y := by
  refine (hx.unique (r := []) (t := []) hy (by simp [Stops]) (by simp [Stops]) ?_).1
  rw [chars, chars, h]

end Outline

end EntityQuery
