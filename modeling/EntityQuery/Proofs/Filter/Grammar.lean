import EntityQuery.Proofs.Filter.Outline
import EntityQuery.Proofs.Filter.Render
import EntityQuery.Proofs.Text.Quoted

/-!
# The grammar of filter texts

`Outline.Readable` gives the structures whose text can be read back: their leaves are words, quoted
texts and date literals, and their operators have as many operands as their text needs. The text of
each form is opened here once, as a list of characters with a place for what follows (`chars_*`).

`Readable.form` tells the form of a structure from the first character of its text. A word, a date
literal and a function start alike, and so do all operators in brackets; what tells those apart
stands further on.
-/

namespace EntityQuery

/-! ## Words and stops -/

namespace Text

/-- The characters of names: ASCII letters and digits, and the underscore. -/
def isNameChar (c : Char) : Bool :=
  c.isAlphanum || c == '_'

/-- Whether a text is a name or a number: name characters, perhaps behind a minus sign. The sign may
stand alone. -/
def isWord : List Char → Bool
  | [] => false
  | c :: s => (c == '-' || isNameChar c) && s.all isNameChar

/-- The characters that may follow an operand. -/
def isStop (c : Char) : Bool :=
  c == ' ' || c == ',' || c == ')' || c == ']'

/-- Whether a text ends or goes on with a stop. -/
def Stops (r : List Char) : Prop :=
  ∀ c ∈ r.head?, isStop c = true

/-- Whether a text does not go on with a character of names. -/
def Breaks (r : List Char) : Prop :=
  ∀ c ∈ r.head?, isNameChar c = false

@[simp] theorem stops_cons (c : Char) (r : List Char) : Stops (c :: r) ↔ isStop c = true := by
  simp [Stops]

@[simp] theorem breaks_cons (c : Char) (r : List Char) : Breaks (c :: r) ↔ isNameChar c = false := by
  simp [Breaks]

theorem stops_blank (u : List Char) : Stops (' ' :: u) :=
  (stops_cons _ _).mpr (by decide)

theorem stops_close (u : List Char) : Stops (')' :: u) :=
  (stops_cons _ _).mpr (by decide)

theorem breaks_blank (u : List Char) : Breaks (' ' :: u) :=
  (breaks_cons _ _).mpr (by decide)

theorem breaks_open (u : List Char) : Breaks ('(' :: u) :=
  (breaks_cons _ _).mpr (by decide)

theorem isNameChar_of_isStop {c : Char} (h : isStop c = true) : isNameChar c = false := by
  simp only [isStop, Bool.or_eq_true, beq_iff_eq] at h
  rcases h with ((rfl | rfl) | rfl) | rfl <;> decide

theorem Stops.breaks {r : List Char} (h : Stops r) : Breaks r :=
  fun c hc => isNameChar_of_isStop (h c hc)

/-- A run of characters that satisfy `p` is found again in front of any text that does not go on
with one. -/
theorem run_unique {p : Char → Bool} {s s' r r' : List Char} (hs : ∀ c ∈ s, p c = true)
    (hs' : ∀ c ∈ s', p c = true) (hr : ∀ c ∈ r.head?, p c = false)
    (hr' : ∀ c ∈ r'.head?, p c = false) (h : s ++ r = s' ++ r') : s = s' ∧ r = r' := by
  have htake : ∀ {s r : List Char}, (∀ c ∈ s, p c = true) → (∀ c ∈ r.head?, p c = false) →
      (s ++ r).takeWhile p = s := by
    intro s r hs hr
    rw [List.takeWhile_append_of_pos hs]
    cases r with
    | nil => simp
    | cons c r => simp [hr c rfl]
  have hleft : s = s' := by rw [← htake hs hr, h, htake hs' hr']
  subst hleft
  exact ⟨rfl, List.append_cancel_left h⟩

theorem isWord_cons {c : Char} {s : List Char} :
    isWord (c :: s) = true ↔ (c = '-' ∨ isNameChar c = true) ∧ ∀ d ∈ s, isNameChar d = true := by
  simp [isWord]

theorem head_of_isWord {w r u : List Char} {c : Char} (hw : isWord w = true)
    (h : w ++ r = c :: u) : c = '-' ∨ isNameChar c = true := by
  match w with
  | d :: s =>
    rw [List.cons_append, List.cons.injEq] at h
    rw [isWord_cons, h.1] at hw
    exact hw.1

theorem isWord_date : isWord "date".toList = true := by
  decide

theorem isWord_of_digits {year : List Char} (hne : year ≠ [])
    (hdigits : ∀ c ∈ year, c.isDigit = true) : isWord year = true := by
  have hname : ∀ c ∈ year, isNameChar c = true := by
    intro c hc
    simp [isNameChar, Char.isAlphanum, hdigits c hc]
  cases year with
  | nil => exact absurd rfl hne
  | cons c s =>
    rw [isWord_cons]
    exact ⟨Or.inr (hname c (by simp)), fun d hd => hname d (by simp [hd])⟩

theorem word_unique {w w' r r' : List Char} (hw : isWord w = true) (hw' : isWord w' = true)
    (hr : Breaks r) (hr' : Breaks r') (h : w ++ r = w' ++ r') : w = w' ∧ r = r' := by
  match w, w' with
  | c :: s, c' :: s' =>
    rw [isWord_cons] at hw hw'
    rw [List.cons_append, List.cons_append, List.cons.injEq] at h
    obtain ⟨rfl, hrest⟩ := run_unique hw.2 hw'.2 hr hr' h.2
    exact ⟨by rw [h.1], hrest⟩

/-- Whether a text is a date literal: a year in digits, a minus sign and more stand between its
brackets, and the closing bracket is its only one. -/
def IsDate (s : List Char) : Prop :=
  ∃ year rest, s = "date".toList ++ '(' :: ((year ++ '-' :: rest) ++ [')']) ∧ year ≠ [] ∧
    (∀ c ∈ year, c.isDigit = true) ∧ ')' ∉ rest

end Text

/-! ## Operator names -/

namespace Operator

theorem ofName?_name (op : Operator) : ofName? op.name = some op := by
  cases op <;> rfl

theorem name_injective {a b : Operator} (h : a.name = b.name) : a = b := by
  have hb := ofName?_name b
  rw [← h, ofName?_name] at hb
  exact Option.some.inj hb

theorem isWord_name (op : Operator) : Text.isWord op.name.toList = true := by
  cases op <;> decide

end Operator

/-! ## Texts of structures -/

theorem toList_joinWith_cons (separator x : String) (xs : List String) :
    (joinWith separator (x :: xs)).toList =
      x.toList ++ xs.flatMap fun y => separator.toList ++ y.toList := by
  induction xs generalizing x with
  | nil => simp [joinWith]
  | cons y xs ih =>
    have hjoin : joinWith separator (x :: y :: xs) =
        x ++ separator ++ joinWith separator (y :: xs) :=
      String.intercalate_cons_cons
    rw [hjoin, String.toList_append, String.toList_append, ih, List.flatMap_cons]
    simp only [List.append_assoc]

namespace Outline

open Text

/-- The characters of the text of a structure. -/
def chars (x : Outline) : List Char :=
  x.text.toList

/-- Some structures, each behind a separator. -/
def tail (sep : List Char) (xs : List Outline) : List Char :=
  xs.flatMap fun x => sep ++ x.chars

@[simp] theorem tail_nil (sep : List Char) : tail sep [] = [] := rfl

@[simp] theorem tail_cons (sep : List Char) (x : Outline) (xs : List Outline) :
    tail sep (x :: xs) = sep ++ (x.chars ++ tail sep xs) := by
  rw [tail, List.flatMap_cons, List.append_assoc]
  rfl

/-- Some structures with a separator between them. -/
def series (sep : List Char) : List Outline → List Char
  | [] => []
  | x :: xs => x.chars ++ tail sep xs

theorem toList_joinWith (sep : String) (xs : List Outline) :
    (joinWith sep (xs.map text)).toList = series sep.toList xs := by
  cases xs with
  | nil => rfl
  | cons x xs =>
    rw [List.map_cons, toList_joinWith_cons, List.flatMap_map]
    rfl

/-- An operator with spaces around it. -/
def gap (op : Operator) : List Char :=
  ' ' :: (op.name.toList ++ [' '])

theorem gap_append (op : Operator) (u : List Char) :
    gap op ++ u = ' ' :: (op.name.toList ++ ' ' :: u) := by
  simp [gap]

theorem chars_list (xs : List Outline) :
    (list xs).chars = '[' :: (series [','] xs ++ [']']) := by
  rw [chars, text_list, listText]
  simp [toList_joinWith]

section Operation

variable {op : Operator}

theorem chars_unary (h : op.shape = .unary) (x : Outline) :
    (operation op x).chars = '(' :: (op.name.toList ++ ' ' :: (x.chars ++ [')'])) := by
  rw [chars, text_unary h]
  simp [unaryText, chars]

theorem chars_binary (h : op.shape = .binary) (x y : Outline) :
    (operation op (list [x, y])).chars = '(' :: (x.chars ++ (tail (gap op) [y] ++ [')'])) := by
  rw [chars, text_binary h]
  simp [binaryText, chars, gap]

theorem chars_variadic (h : op.shape = .variadic) (x : Outline) (xs : List Outline) :
    (operation op (list (x :: xs))).chars = '(' :: (x.chars ++ (tail (gap op) xs ++ [')'])) := by
  rw [chars, text_variadic h, variadicText]
  simp only [String.toList_append, toList_joinWith]
  simp [series, gap]

theorem chars_collection (h : op.shape = .collection) (x : Outline) (xs : List Outline) :
    (operation op (list (x :: xs))).chars =
      '(' :: (x.chars ++ (gap op ++ '(' :: (series [',', ' '] xs ++ [')', ')']))) := by
  rw [chars, text_collection h, collectionText]
  simp [toList_joinWith, chars, gap]

theorem chars_function (h : op.shape = .function) (xs : List Outline) :
    (operation op (list xs)).chars = op.name.toList ++ '(' :: (series [',', ' '] xs ++ [')']) := by
  rw [chars, text_function h, functionText]
  simp [toList_joinWith]

end Operation

/-! ## The grammar -/

/-- The structures that can be read back from their text. -/
inductive Readable : Outline → Prop
  | word {s : String} : isWord s.toList = true → Readable (.leaf s)
  | quoted (s : String) : Readable (.leaf (quote s))
  | date {s : String} : IsDate s.toList → Readable (.leaf s)
  | list {xs : List Outline} : (∀ x ∈ xs, Readable x) → Readable (.list xs)
  | unary {op : Operator} {x : Outline} : op.shape = .unary → Readable x →
      Readable (.operation op x)
  | chain {op : Operator} {x y : Outline} {xs : List Outline} :
      (op.shape = .binary ∧ xs = []) ∨ op.shape = .variadic →
      (∀ z ∈ x :: y :: xs, Readable z) → Readable (.operation op (.list (x :: y :: xs)))
  | collection {op : Operator} {x : Outline} {xs : List Outline} : op.shape = .collection →
      (∀ z ∈ x :: xs, Readable z) → Readable (.operation op (.list (x :: xs)))
  | function {op : Operator} {xs : List Outline} : op.shape = .function →
      (∀ x ∈ xs, Readable x) → Readable (.operation op (.list xs))

theorem Readable.operands {op : Operator} {xs : List Outline} (hunary : op.shape ≠ .unary)
    (hvariadic : op.shape ≠ .variadic) (hadmits : op.shape.admits xs.length = true)
    (hxs : ∀ x ∈ xs, Readable x) : Readable (.operation op (.list xs)) := by
  rcases Shape.operands_cases hunary xs with
    hno | ⟨hop, x, y, rfl⟩ | hop | ⟨hop, x, y, rest, rfl⟩ | hop
  · rw [hno] at hadmits
    cases hadmits
  · exact .chain (Or.inl ⟨hop, rfl⟩) hxs
  · exact absurd hop hvariadic
  · exact .collection hop hxs
  · exact .function hop hxs

theorem chars_chain {op : Operator} {xs : List Outline}
    (h : (op.shape = .binary ∧ xs = []) ∨ op.shape = .variadic) (x y : Outline) :
    (operation op (list (x :: y :: xs))).chars =
      '(' :: (x.chars ++ (gap op ++ (y.chars ++ (tail (gap op) xs ++ [')'])))) := by
  rcases h with ⟨h, rfl⟩ | h
  · rw [chars_binary h]
    simp
  · rw [chars_variadic h]
    simp

/-- What can start with a name character or a minus sign: a word, a date literal or a function. -/
def WordForm (x : Outline) : Prop :=
  (∃ s : String, x = .leaf s ∧ isWord s.toList = true) ∨
    (∃ s : String, x = .leaf s ∧ IsDate s.toList) ∨
    ∃ op xs, x = .operation op (.list xs) ∧ op.shape = .function ∧ ∀ y ∈ xs, Readable y

/-- What can start with a bracket: a unary operator, or an operand before a binary, variadic or
collection operator. -/
def ParenForm (x : Outline) : Prop :=
  (∃ op y, x = .operation op y ∧ op.shape = .unary ∧ Readable y) ∨
    (∃ op y z xs, x = .operation op (.list (y :: z :: xs)) ∧
      ((op.shape = .binary ∧ xs = []) ∨ op.shape = .variadic) ∧
      ∀ w ∈ y :: z :: xs, Readable w) ∨
    ∃ op y xs, x = .operation op (.list (y :: xs)) ∧ op.shape = .collection ∧
      ∀ w ∈ y :: xs, Readable w

/-- The first character of a text tells its form. -/
theorem Readable.form {x : Outline} {r u : List Char} {c : Char} (hx : Readable x)
    (h : x.chars ++ r = c :: u) :
    ((c = '-' ∨ isNameChar c = true) ∧ WordForm x) ∨
      ((c = '\'' ∨ c = '"') ∧ ∃ s, x = .leaf (quote s)) ∨
      (c = '[' ∧ ∃ xs, x = .list xs ∧ ∀ y ∈ xs, Readable y) ∨ (c = '(' ∧ ParenForm x) := by
  cases hx with
  | word hw =>
    rw [chars, text_leaf] at h
    exact Or.inl ⟨head_of_isWord hw h, Or.inl ⟨_, rfl, hw⟩⟩
  | quoted s =>
    obtain ⟨q, hq, hbody⟩ := quoteChars_body s.toList
    rw [chars, text_leaf, quote, String.toList_ofList, hbody, List.cons_append,
      List.cons.injEq] at h
    exact Or.inr (Or.inl ⟨h.1 ▸ hq, s, rfl⟩)
  | date hd =>
    obtain ⟨year, rest, hs, -⟩ := id hd
    rw [chars, text_leaf, hs, List.append_assoc] at h
    exact Or.inl ⟨head_of_isWord isWord_date h, Or.inr (Or.inl ⟨_, rfl, hd⟩)⟩
  | list hxs =>
    rw [chars_list, List.cons_append, List.cons.injEq] at h
    exact Or.inr (Or.inr (Or.inl ⟨h.1.symm, _, rfl, hxs⟩))
  | unary hop hy =>
    rw [chars_unary hop, List.cons_append, List.cons.injEq] at h
    exact Or.inr (Or.inr (Or.inr ⟨h.1.symm, Or.inl ⟨_, _, rfl, hop, hy⟩⟩))
  | chain hop hxs =>
    rw [chars_chain hop, List.cons_append, List.cons.injEq] at h
    exact Or.inr (Or.inr (Or.inr ⟨h.1.symm, Or.inr (Or.inl ⟨_, _, _, _, rfl, hop, hxs⟩)⟩))
  | collection hop hxs =>
    rw [chars_collection hop, List.cons_append, List.cons.injEq] at h
    exact Or.inr (Or.inr (Or.inr ⟨h.1.symm, Or.inr (Or.inr ⟨_, _, _, rfl, hop, hxs⟩)⟩))
  | @function op xs hop hxs =>
    rw [chars_function hop, List.append_assoc] at h
    exact Or.inl ⟨head_of_isWord op.isWord_name h, Or.inr (Or.inr ⟨_, _, rfl, hop, hxs⟩)⟩

end Outline

end EntityQuery
