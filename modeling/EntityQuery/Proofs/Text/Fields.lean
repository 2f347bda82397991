import EntityQuery.Proofs.Text.Digits

/-!
# Fields of digits

A written date is made of fields: runs of digits with one character between two of them. For each
reader of a field this module says which texts it takes, and what it makes of them. A field of fixed
width is also what is written for its value, since runs of digits of one length are known by their
values.
-/

namespace EntityQuery.Text

/-- A run of digits, at least `low` and at most `high` of them. -/
structure IsDigits (low high : Nat) (ds : List Char) : Prop where
  low_le : low ≤ ds.length
  le_high : ds.length ≤ high
  digits : ∀ c ∈ ds, c.isDigit = true

variable {low high : Nat} {ds es s rest : List Char}

theorem IsDigits.natOfDigits_lt (h : IsDigits low high ds) : natOfDigits ds < 10 ^ high :=
  Nat.lt_of_lt_of_le (Text.natOfDigits_lt h.digits) (Nat.pow_le_pow_right (by decide) h.le_high)

/-! ## Runs of digits and their values -/

theorem digit_eq_of_value_eq {c d : Char} (hc : c.isDigit = true) (hd : d.isDigit = true)
    (h : natOfDigits [c] = natOfDigits [d]) : c = d := by
  have hclow : 48 ≤ c.toNat := by simpa using (Char.isDigit_iff_toNat.mp hc).1
  have hdlow : 48 ≤ d.toNat := by simpa using (Char.isDigit_iff_toNat.mp hd).1
  change 0 * 10 + (c.toNat - 48) = 0 * 10 + (d.toNat - 48) at h
  apply Char.toNat_inj.mp
  omega

theorem eq_of_natOfDigits_eq (hds : ∀ c ∈ ds, c.isDigit = true) (hes : ∀ c ∈ es, c.isDigit = true)
    (hlen : ds.length = es.length) (h : natOfDigits ds = natOfDigits es) : ds = es := by
  induction ds generalizing es with
  | nil => exact (List.length_eq_zero_iff.mp hlen.symm).symm
  | cons c ds ih =>
    cases es with
    | nil => cases hlen
    | cons d es =>
      have hlen' : ds.length = es.length := Nat.succ.inj hlen
      rw [List.forall_mem_cons] at hds hes
      have hdslt := natOfDigits_lt hds.2
      have heslt := natOfDigits_lt hes.2
      rw [natOfDigits_cons c, natOfDigits_cons d, hlen'] at h
      rw [hlen'] at hdslt
      -- the first digit and the value of the others are quotient and remainder
      have hhead : natOfDigits [c] = natOfDigits [d] := by
        have hquotient := congrArg (· / 10 ^ es.length) h
        simpa only [Nat.mul_comm, Nat.mul_add_div (Nat.pow_pos (by decide : 0 < 10)),
          Nat.div_eq_of_lt hdslt, Nat.div_eq_of_lt heslt, Nat.add_zero] using hquotient
      have htail : natOfDigits ds = natOfDigits es := by
        rw [hhead] at h
        exact Nat.add_left_cancel h
      rw [digit_eq_of_value_eq hds.1 hes.1 hhead, ih hds.2 hes.2 hlen' htail]

/-- The value of a field is written as the field. -/
theorem fixedDigits_natOfDigits {n : Nat} (h : IsDigits n n ds) (hn : 0 < n) :
    fixedDigits n (natOfDigits ds) = ds := by
  have hlen : (fixedDigits n (natOfDigits ds)).length = n := length_fixedDigits hn h.natOfDigits_lt
  have hds : ds.length = n := Nat.le_antisymm h.le_high h.low_le
  apply eq_of_natOfDigits_eq
  · exact fun _ => isDigit_of_mem_fixedDigits
  · exact h.digits
  · rw [hlen, hds]
  · rw [natOfDigits_fixedDigits]

/-! ## What the readers take -/

theorem takeChar?_eq_some_iff {c : Char} : takeChar? c s = some rest ↔ s = c :: rest := by
  cases s with
  | nil => simp [takeChar?]
  | cons d s =>
    by_cases hd : d = c
    · simp [takeChar?, hd]
    · simp [takeChar?, hd]

theorem takeNumber?_append {n : Nat} (h : IsDigits n n ds) (rest : List Char) :
    takeNumber? n (ds ++ rest) = some (natOfDigits ds, rest) := by
  have htake := takeDigits?_append h.digits rest
  rw [Nat.le_antisymm h.le_high h.low_le] at htake
  rw [takeNumber?, htake]
  rfl

theorem takeNumber?_eq_some_iff {n k : Nat} :
    takeNumber? n s = some (k, rest) ↔ ∃ ds, IsDigits n n ds ∧ natOfDigits ds = k ∧ s = ds ++ rest := by
  constructor
  · intro h
    obtain ⟨⟨ds, rest'⟩, htake, heq⟩ := Option.map_eq_some_iff.mp h
    cases heq
    obtain ⟨hs, hlen, hds⟩ := eq_append_of_takeDigits? htake
    exact ⟨ds, ⟨Nat.le_of_eq hlen.symm, Nat.le_of_eq hlen, hds⟩, rfl, hs⟩
  · rintro ⟨ds, hds, rfl, rfl⟩
    exact takeNumber?_append hds rest

theorem spanDigits_eq_iff : spanDigits s = (ds, rest) ↔
    s = ds ++ rest ∧ (∀ c ∈ ds, c.isDigit = true) ∧ ∀ c ∈ rest.head?, c.isDigit = false := by
  constructor
  · intro h
    obtain ⟨rfl, rfl⟩ := Prod.mk.inj h
    refine ⟨List.takeWhile_append_dropWhile.symm, List.all_eq_true.mp List.all_takeWhile, ?_⟩
    intro c hc
    have hhead := List.head?_dropWhile_not Char.isDigit s
    rw [Option.mem_def] at hc
    rw [hc] at hhead
    simpa using hhead
  · rintro ⟨rfl, hds, hrest⟩
    exact spanDigits_append hds hrest

end EntityQuery.Text
