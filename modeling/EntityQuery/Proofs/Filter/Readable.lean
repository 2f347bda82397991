import EntityQuery.Proofs.Filter.Faults
import EntityQuery.Proofs.Filter.Unambiguous
import EntityQuery.Proofs.Text.Digits

/-!
# Reading filters back from their text

`Predicate.Plain` gives the trees whose compiled text determines their structure. Their leaves write
words, date literals and quoted texts; texts that are not boxed stand in a filter as they are, so
they must be names.

Proof. A plain tree without faults has a readable structure once it is pruned (`Plain.readable`),
by induction on the tree: without faults each operator has the operands that its text needs, and
none of them is nothing. The text of a compiled tree is that of its pruned structure
(`text_of_compile`), and readable structures with the same text are the same.
-/

namespace EntityQuery

/-! ## Leaves -/

namespace Text

theorem isWord_intDigits (n : Int) : isWord (intDigits n) = true := by
  match n with
  | .ofNat m => exact isWord_of_digits (digitsOf_ne_nil m) fun _ => isDigit_of_mem_digitsOf
  | .negSucc m =>
    rw [intDigits, isWord_cons]
    refine ⟨Or.inl rfl, fun c hc => ?_⟩
    simp [isNameChar, Char.isAlphanum, isDigit_of_mem_digitsOf hc]

theorem isWord_of_name {s : String} (hne : s ≠ "") (hs : ∀ c ∈ s.toList, isNameChar c = true) :
    isWord s.toList = true := by
  cases hw : s.toList with
  | nil => exact absurd (String.toList_eq_nil_iff.mp hw) hne
  | cons c w =>
    rw [hw] at hs
    rw [isWord_cons]
    exact ⟨Or.inr (hs c (by simp)), fun d hd => hs d (by simp [hd])⟩

end Text

open Text

/-- The timestamp of a year of four digits starts with them, and it holds no bracket. -/
theorem Instant.isoChars_year {t : Instant} (h0 : 0 ≤ (dateOf t.seconds).year)
    (h1 : (dateOf t.seconds).year ≤ 9999) :
    ∃ rest, t.isoChars = fixedDigits 4 (dateOf t.seconds).year.toNat ++ '-' :: rest ∧
      ')' ∉ rest := by
  have hdigits : ∀ {width n : Nat}, ')' ∉ fixedDigits width n := fun h =>
    absurd (isDigit_of_mem_fixedDigits h) (by decide)
  have hyear : yearChars (dateOf t.seconds).year = fixedDigits 4 (dateOf t.seconds).year.toNat :=
    if_pos ⟨h0, h1⟩
  simp only [isoChars, hyear, List.append_assoc, List.cons_append]
  exact ⟨_, rfl, by simp [hdigits]⟩

theorem Value.toFilter_of_text? {v : Value} {s : String} (h : v.text? = some s) :
    v.toFilter = quote s := by
  cases v with
  | text t => rw [toFilter, Option.some.inj h]
  | json j =>
    cases j with
    | text t => rw [toFilter, Option.some.inj h]
    | _ => cases h
  | _ => cases h

theorem isDate_dateLiteral {t : Instant} (h0 : 0 ≤ (Instant.dateOf t.seconds).year)
    (h1 : (Instant.dateOf t.seconds).year ≤ 9999) : IsDate (Value.dateLiteral t).toList := by
  obtain ⟨rest, hiso, hrest⟩ := Instant.isoChars_year h0 h1
  have hopen : "date(".toList = "date".toList ++ ['('] := by decide
  rw [Value.toList_dateLiteral, hiso, hopen]
  refine ⟨fixedDigits 4 (Instant.dateOf t.seconds).year.toNat, rest, ?_, fixedDigits_ne_nil _ _,
    fun c hc => isDigit_of_mem_fixedDigits hc, hrest⟩
  simp only [List.append_assoc, List.cons_append, List.nil_append]

/-! ## Trees -/

namespace Predicate

/-- The trees that can be read back from their text. Texts are names unless they are boxed, years
have four digits, no list holds an undefined item, and at least two operands of each variadic
operator are present. -/
inductive Plain : Predicate Empty → Prop
  | undefined : Plain .undefined
  | null : Plain .null
  | bool (b : Bool) : Plain (.bool b)
  | int (n : Int64) : Plain (.int n)
  | date {t : Instant} : 0 ≤ (Instant.dateOf t.seconds).year →
      (Instant.dateOf t.seconds).year ≤ 9999 → Plain (.date t)
  | text {s : String} : s ≠ "" → (∀ c ∈ s.toList, isNameChar c = true) → Plain (.text s)
  | boxed {b : Box .value} {s : String} : Value.text? b.value = some s → Plain (.boxed ⟨.value, b⟩)
  | list {ps : List (Predicate Empty)} : (∀ p ∈ ps, Plain p) → .undefined ∉ ps → Plain (.list ps)
  | variadic {op : Operator} {ps : List (Predicate Empty)} : op.shape = .variadic →
      (∀ p ∈ ps, Plain p) → 2 ≤ (ps.filter fun p => !p.isAbsent).length →
      Plain (.operation op (.list ps))
  | operation {op : Operator} {p : Predicate Empty} : op.shape ≠ .variadic → Plain p →
      Plain (.operation op p)

theorem Plain.readable {p : Predicate Empty} (h : Plain p) (hfaults : p.faults = [])
    (hp : p ≠ .undefined) : p.pruned.outline.Readable := by
  induction h with
  | undefined => exact absurd rfl hp
  | null => exact .word (by decide)
  | bool b => exact .word (by cases b <;> decide)
  | int n => exact .word (by rw [Value.intText, String.toList_ofList]; exact isWord_intDigits _)
  | date h0 h1 => exact .date (isDate_dateLiteral h0 h1)
  | text hne hs => exact .word (isWord_of_name hne hs)
  | @boxed b s hs =>
    have hfilter : (Predicate.boxed ⟨.value, b⟩).pruned.outline = .leaf (quote s) := by
      have hquote : Value.toFilter b.value = quote s := Value.toFilter_of_text? hs
      rw [← hquote]
      rfl
    rw [hfilter]
    exact .quoted s
  | @list ps hps hundefined ih =>
    rw [pruned_list, outline_list, List.map_map]
    refine .list (List.forall_mem_map.mpr fun p hmem => ?_)
    exact ih p hmem (faults_of_mem hfaults hmem) fun h => hundefined (h ▸ hmem)
  | @variadic op ps hop hps htwo ih =>
    rw [faults_variadic hop] at hfaults
    have hkept : ∀ x ∈ (ps.filter fun p => !p.isAbsent).map (outline ∘ pruned), x.Readable := by
      refine List.forall_mem_map.mpr fun p hmem => ?_
      rw [List.mem_filter] at hmem
      refine ih p hmem.1 (faults_of_mem hfaults hmem.1) ?_
      rintro rfl
      exact absurd hmem.2 (by decide)
    obtain ⟨l, r, rest, hlist⟩ := Shape.subject_of_admits (decide_eq_true htwo)
    rw [hlist] at hkept
    rw [pruned_variadic hop, hlist, outline, outline_list, List.map_map]
    exact .chain (Or.inr hop) hkept
  | @operation op p hop h ih =>
    rw [pruned_operation hop, outline]
    by_cases hunary : op.shape = .unary
    · rw [faults_unary hunary, List.append_eq_nil_iff, Option.toList_eq_nil_iff,
        missing?_eq_none] at hfaults
      exact .unary hunary (ih hfaults.2 hfaults.1)
    · obtain ⟨ps, rfl, hadmits, hitems⟩ := operands_of_faults_eq_nil hunary hop hfaults
      have hlist : (Predicate.list ps).pruned.outline.Readable := ih hitems (by simp)
      rw [pruned_list, outline_list, List.map_map] at hlist ⊢
      cases hlist with
      | list hps => exact .operands hunary hop (by rw [List.length_map]; exact hadmits) hps

theorem Plain.between {op : Operator} {l r : Predicate Empty} (hop : op.shape ≠ .variadic)
    (hl : Plain l) (hr : Plain r) (hundefined : .undefined ∉ [l, r]) :
    Plain (.between op l r) := by
  refine .operation hop (.list ?_ hundefined)
  simp only [List.forall_mem_cons]
  exact ⟨hl, hr, by simp⟩

/-- **Compiled filters can be read back**: two plain trees with the same text have the same
structure once the absent operands of their variadic operators are deleted. -/
theorem Plain.outline_eq_of_compile_eq {a b : Predicate Empty} (ha : Plain a) (hb : Plain b)
    {s : String} (hca : a.compile = .ok (some s)) (hcb : b.compile = .ok (some s)) :
    a.pruned.outline = b.pruned.outline := by
  obtain ⟨ha', hfa, hta⟩ := text_of_compile hca
  obtain ⟨hb', hfb, htb⟩ := text_of_compile hcb
  refine (ha.readable hfa ha').eq_of_text_eq (hb.readable hfb hb') ?_
  rw [hta, htb]

/-- Absent operands leave no trace, and neither does the kind of a leaf. -/
theorem outline_eq_of_absent_operands :
    (apply .and [.null, between .eq (.text "Size") (.int 3), .undefined,
      isIn (.text "Name") [.boxed ⟨.value, .ofSeed (.text "it's (\"a\") or b") .keep⟩]]
      ).pruned.outline =
    (apply .and [between .eq (.text "Size") (.text "3"), .undefined,
      isIn (.text "Name") [.boxed ⟨.value, .ofSeed (.json (.text "it's (\"a\") or b")) .keep⟩]]
      ).pruned.outline := by
  have hsize : Plain (.text "Size") := .text (by decide) (List.all_eq_true.mp rfl)
  have hname : Plain (.text "Name") := .text (by decide) (List.all_eq_true.mp rfl)
  have hthree : Plain (.text "3") := .text (by decide) (List.all_eq_true.mp rfl)
  refine Plain.outline_eq_of_compile_eq (.variadic rfl ?_ (by decide))
    (.variadic rfl ?_ (by decide)) (s := "((Size eq 3) and (Name in ('it''s (\"a\") or b')))") rfl rfl
  · simp only [List.forall_mem_cons]
    exact ⟨.null, .between (by decide) hsize (.int 3) (by simp), .undefined,
      .between (by decide) hname (.boxed rfl) (by simp), by simp⟩
  · simp only [List.forall_mem_cons]
    exact ⟨.between (by decide) hsize hthree (by simp), .undefined,
      .between (by decide) hname (.boxed rfl) (by simp), by simp⟩

end Predicate

end EntityQuery
