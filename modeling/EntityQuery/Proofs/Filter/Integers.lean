import EntityQuery.Proofs.Filter.Frame
import EntityQuery.Proofs.Filter.FromJson
import EntityQuery.Proofs.Value.Integers

/-!
# Integers in filters from JSON

An integer in a JSON filter is a leaf of its tree, so its text stands in the filter where the text
of any string would stand in its place. A signed word is written in its own digits. An integer
beyond is read as a float, the nearest one, and written as the shortest decimal of that: its own
digits come out exactly where the integer is this decimal.

Proof. The place is a `Json.Context`. What is read in it is a context of filter trees
(`exists_context`), and that is a frame for texts (`Predicate.exists_frame`).
-/

namespace EntityQuery

open Text

/-! ## Documents with a hole -/

/-- A JSON document with one hole. -/
inductive Json.Context where
  | hole
  | item (before : List Json) (inner : Json.Context) (after : List Json)
  | member (before : List (String × Json)) (name : String) (inner : Json.Context)
    (after : List (String × Json))

/-- Put a document into the hole. -/
def Json.Context.fill : Json.Context → Json → Json
  | hole, j => j
  | item before inner after, j => .array (before ++ inner.fill j :: after)
  | member before name inner after, j => .object (before ++ (name, inner.fill j) :: after)

namespace Predicate

variable {ι : Type}

theorem ofJsonItems_eq_mapM (js : List Json) :
    (ofJsonItems js : Except FilterFault (List (Predicate ι))) = js.mapM ofJson := by
  induction js with
  | nil => simp [ofJsonItems, pure, Except.pure]
  | cons j js ih => rw [ofJsonItems, List.mapM_cons, ih]

theorem exists_of_bind_eq_ok {α β : Type} {x : Except FilterFault α} {k : α → Except FilterFault β}
    {b : β} (h : x >>= k = .ok b) : ∃ a, x = .ok a ∧ k a = .ok b := by
  cases x with
  | error fault => cases h
  | ok a => exact ⟨a, rfl, h⟩

/-- Of a row of documents that are read, any one may be replaced. -/
theorem exists_items {before after : List Json} {j : Json} {q : Predicate ι}
    (h : ofJson (.array (before ++ j :: after)) = .ok q) :
    ∃ (ps : List (Predicate ι)) (p : Predicate ι) (qs : List (Predicate ι)), ofJson j = .ok p ∧
      ∀ j' p', ofJson j' = .ok p' →
        ofJson (.array (before ++ j' :: after)) = .ok (.list (ps ++ p' :: qs)) := by
  have hitems : ∃ items, (before ++ j :: after).mapM (ofJson (ι := ι)) = .ok items := by
    rw [ofJson, ofJsonItems_eq_mapM] at h
    cases hread : (before ++ j :: after).mapM (ofJson (ι := ι)) with
    | error fault =>
      rw [hread] at h
      cases h
    | ok items => exact ⟨items, rfl⟩
  obtain ⟨items, hitems⟩ := hitems
  rw [List.mapM_append, List.mapM_cons] at hitems
  obtain ⟨ps, hbefore, hrest⟩ := exists_of_bind_eq_ok hitems
  obtain ⟨rest, hrest, -⟩ := exists_of_bind_eq_ok hrest
  obtain ⟨p, hp, hrest⟩ := exists_of_bind_eq_ok hrest
  obtain ⟨qs, hafter, -⟩ := exists_of_bind_eq_ok hrest
  refine ⟨ps, p, qs, hp, fun j' p' h' => ?_⟩
  rw [ofJson, ofJsonItems_eq_mapM, List.mapM_append, List.mapM_cons, hbefore, h', hafter]
  rfl

/-- An object that is read has one member, named like an operator, and its value may be replaced. -/
theorem exists_member {before after : List (String × Json)} {name : String} {j : Json}
    {q : Predicate ι} (h : ofJson (.object (before ++ (name, j) :: after)) = .ok q) :
    ∃ (op : Operator) (p : Predicate ι), ofJson j = .ok p ∧
      ∀ (j' : Json) (p' : Predicate ι), ofJson j' = .ok p' →
        ofJson (.object (before ++ (name, j') :: after)) = .ok (.operation op p') := by
  rw [ofJson] at h
  cases hoffence : offence? (before ++ (name, j) :: after) with
  | some fault =>
    rw [ofJsonMembers_of_offence hoffence] at h
    cases h
  | none =>
    obtain ⟨op, operand, hmembers⟩ := offence?_eq_none.mp hoffence
    obtain ⟨rfl, hmember⟩ : before = [] ∧ (name, j) :: after = [(op.name, operand)] := by
      cases before with
      | nil => exact ⟨rfl, hmembers⟩
      | cons m ms => simp at hmembers
    obtain ⟨⟨rfl, rfl⟩, rfl⟩ : (name = op.name ∧ j = operand) ∧ after = [] := by simpa using hmember
    rw [List.nil_append, ofJsonMembers_name] at h
    obtain ⟨p, hp, -⟩ := exists_of_bind_eq_ok h
    refine ⟨op, p, hp, fun j' p' h' => ?_⟩
    rw [ofJson, List.nil_append, ofJsonMembers_name, h']
    rfl

/-- What is read around a document that is read. -/
theorem exists_context {c : Json.Context} {j : Json} {q : Predicate ι}
    (h : ofJson (c.fill j) = .ok q) :
    ∃ c' : Context ι, ∀ j' p', ofJson j' = .ok p' → ofJson (c.fill j') = .ok (c'.fill p') := by
  induction c generalizing q with
  | hole => exact ⟨.hole, fun j' p' h' => h'⟩
  | item before inner after ih =>
    obtain ⟨ps, p, qs, hp, hfill⟩ := exists_items h
    obtain ⟨c', hc'⟩ := ih hp
    exact ⟨.item ps c' qs, fun j' p' h' => hfill _ _ (hc' j' p' h')⟩
  | member before name inner after ih =>
    obtain ⟨op, p, hp, hfill⟩ := exists_member h
    obtain ⟨c', hc'⟩ := ih hp
    exact ⟨.operand op c', fun j' p' h' => hfill _ _ (hc' j' p' h')⟩

end Predicate

/-! ## Integers -/

namespace Json.Integer

/-- The text of an integer of a filter. -/
def filterText (n : Integer) : String :=
  match n.toInt64? with
  | some i => Value.intText i
  | none => (Binary64.ofInt n.val).numberText

/-- The digits of an integer. -/
def digitText (n : Integer) : String :=
  String.ofList (intDigits n.val)

/-- A signed word is written in its digits, and an integer beyond exactly if it is the shortest
decimal of the float that is nearest to it. -/
theorem filterText_eq_digitText_iff (n : Integer) :
    n.filterText = n.digitText ↔ n.val < 0x8000000000000000 ∨
      ∃ x, Binary64.ofInt n.val = .finite x ∧ x.decimal.IsNat n.val.natAbs := by
  by_cases hn : n.val < 0x8000000000000000
  · rw [filterText, toInt64?, if_pos hn, digitText]
    change Value.intText (Int64.ofInt n.val) = _ ↔ _
    rw [Value.intText, Value.toInt_ofInt_of_fits hn]
    exact ⟨fun _ => Or.inl hn, fun _ => rfl⟩
  · have hsafe : Value.safeInteger < n.val.natAbs := by
      have hlarge := Value.safeInteger_lt (Int.not_lt.mp hn)
      omega
    rw [filterText, toInt64?, if_neg hn, digitText, or_iff_right hn]
    exact Value.numberText_ofInt_iff hsafe

end Json.Integer

namespace Predicate

theorem exists_hasText_int (n : Json.Integer) :
    ∃ p : Predicate Empty, ofJson (.int n) = .ok p ∧ HasText p n.filterText := by
  unfold Json.Integer.filterText
  rw [ofJson]
  cases n.toInt64? with
  | some i => exact ⟨.int i, rfl, by simp, rfl, rfl⟩
  | none => exact ⟨.float (.ofInt n.val), rfl, by simp, rfl, rfl⟩

/-- **Where an integer of a JSON filter stands**, and as what: the text of the filter is that of the
integer between the two texts that stand around any string in its place. These are the digits of
every signed word, and of an integer beyond exactly if it is the shortest decimal of the float that
is nearest to it. -/
theorem compileJson_int {c : Json.Context} {n : Json.Integer} {text? : Option String}
    (h : compileJson (c.fill (.int n)) = .ok text?) :
    ∃ before after, (∀ word, compileJson (c.fill (.text word)) = .ok (some (before ++ word ++ after))) ∧
      text? = some (before ++ n.filterText ++ after) ∧
      (text? = some (before ++ n.digitText ++ after) ↔ n.val < 0x8000000000000000 ∨
        ∃ x, Binary64.ofInt n.val = .finite x ∧ x.decimal.IsNat n.val.natAbs) := by
  obtain ⟨q, hread, -⟩ := exists_of_bind_eq_ok h
  obtain ⟨c', hc'⟩ := exists_context hread
  obtain ⟨F, hF⟩ := exists_frame c'
  have hfill : ∀ j p word, ofJson j = .ok p → HasText p word →
      compileJson (c.fill j) = (F.text word).map some := by
    intro j p word hj hp
    rw [compileJson, hc' j p hj]
    exact hF p word hp
  obtain ⟨p, hp, htext⟩ := exists_hasText_int n
  rw [hfill _ p _ hp htext] at h
  cases F with
  | stopped fault => cases h
  | around before after =>
    obtain rfl : some (before ++ n.filterText ++ after) = text? := Except.ok.inj h
    refine ⟨before, after, fun word => ?_, rfl, ?_⟩
    · exact hfill (.text word) (.text word) word rfl ⟨by simp, rfl, rfl⟩
    · rw [← n.filterText_eq_digitText_iff, Option.some.injEq]
      constructor
      · intro heq
        rwa [String.append_left_inj, String.append_right_inj] at heq
      · intro heq
        rw [heq]

/-- The identifier of a comparison, as JSON: an integer beyond `2^53` has its digits in the filter. -/
theorem compileJson_identifier :
    let c : Json.Context := .member [] "eq" (.item [.text "Id"] .hole []) []
    let n : Json.Integer := ⟨9007199254740993, by decide, by decide⟩
    compileJson (c.fill (.int n)) = .ok (some "(Id eq 9007199254740993)") ∧
      ∃ before after, (∀ word, compileJson (c.fill (.text word)) =
          .ok (some (before ++ word ++ after))) ∧
        "(Id eq 9007199254740993)" = before ++ n.digitText ++ after := by
  intro c n
  have htext : n.filterText = "9007199254740993" := by decide +kernel
  have h : compileJson (c.fill (.int n)) = .ok (some "(Id eq 9007199254740993)") := by
    change Except.ok (some ("(Id eq " ++ n.filterText ++ ")")) = _
    rw [htext]
    rfl
  obtain ⟨before, after, hword, -, hdigits⟩ := compileJson_int h
  exact ⟨h, before, after, hword, Option.some.inj (hdigits.mpr (Or.inl (by decide)))⟩

/-- The last unsigned word is written as another integer. -/
theorem compileJson_changes_integer :
    let c : Json.Context := .member [] "eq" (.item [.text "Id"] .hole []) []
    let n : Json.Integer := ⟨18446744073709551615, by decide, by decide⟩
    n.digitText = "18446744073709551615" ∧
      (∀ word, compileJson (c.fill (.text word)) = .ok (some ("(Id eq " ++ word ++ ")"))) ∧
      compileJson (c.fill (.int n)) = .ok (some "(Id eq 18446744073709552000)") := by
  intro c n
  have htext : n.filterText = "18446744073709552000" := by decide +kernel
  refine ⟨by decide +kernel, fun word => ?_, ?_⟩
  · change Except.ok (some ("(Id eq " ++ word ++ ")")) = _
    rfl
  · change Except.ok (some ("(Id eq " ++ n.filterText ++ ")")) = _
    rw [htext]
    rfl

end Predicate

end EntityQuery
