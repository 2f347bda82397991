import EntityQuery.Text.Digits
import Mathlib.Algebra.Group.Nat.Defs

/-!
# Reading digits back

Numbers are written with `digitsOf`, possibly padded, and read with `natOfDigits`. A field of fixed
width is read by its width, a numeral by the run of digits at its front, so each reader comes with
what it makes of digits in front of a rest.
-/

namespace EntityQuery.Text

/-! ## The value of digits -/

theorem natOfDigits_eq (ds : List Char) : natOfDigits ds = Nat.ofDigitChars 10 ds 0 := by
  have hstep : (fun (n : Nat) (c : Char) => n * 10 + (c.toNat - '0'.toNat)) =
      fun n c => 10 * n + (c.toNat - '0'.toNat) := by
    funext n c
    rw [Nat.mul_comm]
  rw [natOfDigits, Nat.ofDigitChars_eq_foldl, hstep]

theorem natOfDigits_digitsOf (n : Nat) : natOfDigits (digitsOf n) = n := by
  rw [natOfDigits_eq, digitsOf, Nat.ofDigitChars_ten_toDigits]

theorem natOfDigits_append (ds es : List Char) :
    natOfDigits (ds ++ es) = natOfDigits ds * 10 ^ es.length + natOfDigits es := by
  simp only [natOfDigits_eq]
  rw [Nat.ofDigitChars_append, Nat.ofDigitChars_eq_ofDigitChars_zero, Nat.mul_comm]

theorem natOfDigits_cons (c : Char) (ds : List Char) :
    natOfDigits (c :: ds) = natOfDigits [c] * 10 ^ ds.length + natOfDigits ds :=
  natOfDigits_append [c] ds

theorem natOfDigits_zeros (k : Nat) : natOfDigits (List.replicate k '0') = 0 := by
  rw [natOfDigits_eq, Nat.ofDigitChars_replicate_zero, Nat.mul_zero]

theorem natOfDigits_padLeft (width : Nat) (ds : List Char) :
    natOfDigits (padLeft width '0' ds) = natOfDigits ds := by
  rw [padLeft, natOfDigits_append, natOfDigits_zeros, Nat.zero_mul, Nat.zero_add]

/-- Leading zeros are worth nothing. -/
theorem natOfDigits_padLeft_append (width : Nat) (ds es : List Char) :
    natOfDigits (padLeft width '0' ds ++ es) = natOfDigits (ds ++ es) := by
  rw [natOfDigits_append, natOfDigits_padLeft, ← natOfDigits_append]

theorem natOfDigits_fixedDigits (width n : Nat) : natOfDigits (fixedDigits width n) = n := by
  rw [fixedDigits, natOfDigits_padLeft, natOfDigits_digitsOf]

theorem natOfDigits_append_zeros (ds : List Char) (k : Nat) :
    natOfDigits (ds ++ List.replicate k '0') = natOfDigits ds * 10 ^ k := by
  rw [natOfDigits_append, natOfDigits_zeros, List.length_replicate, Nat.add_zero]

theorem digitsOf_injective {m n : Nat} (h : digitsOf m = digitsOf n) : m = n := by
  rw [← natOfDigits_digitsOf m, h, natOfDigits_digitsOf]

/-- Zeros at the end of the digits are factors of ten. -/
theorem digitsOf_mul_pow {k : Nat} (hk : k ≠ 0) (p : Nat) :
    digitsOf (k * 10 ^ p) = digitsOf k ++ List.replicate p '0' := by
  induction p with
  | zero => simp
  | succ p ih =>
    have hle : 10 ≤ k * 10 ^ (p + 1) := by
      calc 10 = 1 * 10 ^ 1 := rfl
        _ ≤ k * 10 ^ (p + 1) :=
            Nat.mul_le_mul (Nat.pos_of_ne_zero hk) (Nat.pow_le_pow_right (by decide) (by omega))
    have hpow : k * 10 ^ (p + 1) = k * 10 ^ p * 10 := by rw [Nat.pow_succ, Nat.mul_assoc]
    have hlast : (k * 10 ^ (p + 1)) % 10 = 0 := by omega
    have hrest : (k * 10 ^ (p + 1)) / 10 = k * 10 ^ p := by omega
    have hdigits : digitsOf (k * 10 ^ (p + 1)) =
        digitsOf (k * 10 ^ (p + 1) / 10) ++ [Nat.digitChar (k * 10 ^ (p + 1) % 10)] :=
      Nat.toDigits_of_base_le (by decide) hle
    rw [hdigits, hrest, hlast, ih, List.append_assoc, List.replicate_succ']
    rfl

/-- The digits of a number fit its value. -/
theorem natOfDigits_lt {ds : List Char} (hds : ∀ c ∈ ds, c.isDigit = true) :
    natOfDigits ds < 10 ^ ds.length := by
  induction ds with
  | nil => decide
  | cons c ds ih =>
    have hrest := ih fun d hd => hds d (by simp [hd])
    have hhi : c.toNat ≤ 57 := by
      simpa using (Char.isDigit_iff_toNat.mp (hds c (by simp))).2
    have hc : natOfDigits [c] ≤ 9 := by
      change 0 * 10 + (c.toNat - 48) ≤ 9
      omega
    have hmul : natOfDigits [c] * 10 ^ ds.length ≤ 9 * 10 ^ ds.length := Nat.mul_le_mul_right _ hc
    rw [natOfDigits_cons, List.length_cons, Nat.pow_succ]
    omega

/-! ## Lengths -/

theorem isDigit_of_mem_digitsOf {n : Nat} {c : Char} (h : c ∈ digitsOf n) : c.isDigit = true :=
  Nat.isDigit_of_mem_toDigits (by decide) (by decide) h

theorem digitsOf_ne_nil (n : Nat) : digitsOf n ≠ [] :=
  Nat.toDigits_ne_nil

theorem head?_digitsOf {n : Nat} (hn : n ≠ 0) : (digitsOf n).head? ≠ some '0' := by
  induction n using Nat.strongRecOn with
  | _ n ih =>
    rcases Nat.lt_or_ge n 10 with hlt | hge
    · have hdigit : ∀ k < 10, k ≠ 0 → Nat.digitChar k ≠ '0' := by decide
      have hone : digitsOf n = [Nat.digitChar n] := Nat.toDigits_of_lt_base hlt
      rw [hone]
      exact fun h => hdigit n hlt hn (Option.some.inj h)
    · have hsplit : digitsOf n = digitsOf (n / 10) ++ [Nat.digitChar (n % 10)] :=
        Nat.toDigits_of_base_le (by decide) hge
      have hfirst := ih (n / 10) (by omega) (by omega)
      rw [hsplit]
      cases hdigits : digitsOf (n / 10) with
      | nil => exact absurd hdigits (digitsOf_ne_nil _)
      | cons c ds => rwa [hdigits] at hfirst

theorem length_padLeft (width : Nat) (pad : Char) (s : List Char) :
    (padLeft width pad s).length = max width s.length := by
  rw [padLeft, List.length_append, List.length_replicate]
  omega

/-- A text that is long enough is not padded. -/
theorem padLeft_of_le {width : Nat} {s : List Char} (h : width ≤ s.length) (pad : Char) :
    padLeft width pad s = s := by
  rw [padLeft, Nat.sub_eq_zero_of_le h, List.replicate_zero, List.nil_append]

theorem isDigit_of_mem_padLeft {width : Nat} {ds : List Char}
    (hds : ∀ c ∈ ds, c.isDigit = true) : ∀ c ∈ padLeft width '0' ds, c.isDigit = true := by
  intro c hc
  rw [padLeft, List.mem_append] at hc
  rcases hc with hc | hc
  · rw [List.eq_of_mem_replicate hc]
    decide
  · exact hds c hc

theorem isDigit_of_mem_fixedDigits {width n : Nat} {c : Char} (h : c ∈ fixedDigits width n) :
    c.isDigit = true :=
  isDigit_of_mem_padLeft (fun _ => isDigit_of_mem_digitsOf) c h

theorem fixedDigits_ne_nil (width n : Nat) : fixedDigits width n ≠ [] := by
  intro h
  rw [fixedDigits, padLeft, List.append_eq_nil_iff] at h
  exact digitsOf_ne_nil n h.2

theorem length_fixedDigits {width n : Nat} (hw : 0 < width) (hn : n < 10 ^ width) :
    (fixedDigits width n).length = width := by
  have hlen : (digitsOf n).length ≤ width := (Nat.length_toDigits_le_iff (by decide) hw).mpr hn
  rw [fixedDigits, length_padLeft]
  omega

/-! ## Integers -/

theorem intDigits_injective {m n : Int} (h : intDigits m = intDigits n) : m = n := by
  have hminus : ∀ {k : Nat} {s : List Char}, digitsOf k ≠ '-' :: s := by
    intro k s hk
    have hmem : '-' ∈ digitsOf k := by simp [hk]
    exact absurd (isDigit_of_mem_digitsOf hmem) (by decide)
  cases m with
  | ofNat k =>
    cases n with
    | ofNat l => exact congrArg Int.ofNat (digitsOf_injective h)
    | negSucc l => exact absurd h hminus
  | negSucc k =>
    cases n with
    | ofNat l => exact absurd h.symm hminus
    | negSucc l =>
      have hkl : k + 1 = l + 1 := digitsOf_injective (List.cons.inj h).2
      rw [Nat.succ.inj hkl]

/-! ## Digits in front of a rest -/

theorem takeChar?_self (c : Char) (s : List Char) : takeChar? c (c :: s) = some s :=
  if_pos rfl

theorem takeDigits?_append {ds : List Char} (hds : ∀ c ∈ ds, c.isDigit = true) (rest : List Char) :
    takeDigits? ds.length (ds ++ rest) = some (ds, rest) := by
  induction ds with
  | nil => rfl
  | cons c ds ih =>
    have hc : c.isDigit = true := hds c (by simp)
    have htail := ih fun d hd => hds d (by simp [hd])
    simp [takeDigits?, hc, htail]

/-- What a field of digits is read from. -/
theorem eq_append_of_takeDigits? {n : Nat} {s ds rest : List Char}
    (h : takeDigits? n s = some (ds, rest)) :
    s = ds ++ rest ∧ ds.length = n ∧ ∀ c ∈ ds, c.isDigit = true := by
  induction n generalizing s ds with
  | zero =>
    cases h
    exact ⟨rfl, rfl, by simp⟩
  | succ n ih =>
    cases s with
    | nil => cases h
    | cons c s =>
      rw [takeDigits?] at h
      split at h
      · rename_i hc
        obtain ⟨⟨es, rest'⟩, htake, heq⟩ := Option.map_eq_some_iff.mp h
        cases heq
        obtain ⟨rfl, hlen, hes⟩ := ih htake
        exact ⟨rfl, congrArg (· + 1) hlen, List.forall_mem_cons.mpr ⟨hc, hes⟩⟩
      · cases h

/-- A number read from a field fits the field. -/
theorem takeNumber?_lt {n k : Nat} {s rest : List Char} (h : takeNumber? n s = some (k, rest)) :
    k < 10 ^ n := by
  obtain ⟨⟨ds, rest'⟩, htake, heq⟩ := Option.map_eq_some_iff.mp h
  cases heq
  obtain ⟨-, hlen, hds⟩ := eq_append_of_takeDigits? htake
  rw [← hlen]
  exact natOfDigits_lt hds

/-- A number written in a field is read back from it, whatever stands behind the field. -/
theorem takeNumber?_fixedDigits {width n : Nat} (hw : 0 < width) (hn : n < 10 ^ width)
    (rest : List Char) : takeNumber? width (fixedDigits width n ++ rest) = some (n, rest) := by
  have hds : ∀ c ∈ fixedDigits width n, c.isDigit = true := fun _ => isDigit_of_mem_fixedDigits
  have htake := takeDigits?_append hds rest
  rw [length_fixedDigits hw hn] at htake
  rw [takeNumber?, htake]
  exact congrArg (fun m => some (m, rest)) (natOfDigits_fixedDigits width n)

theorem spanDigits_append {ds rest : List Char} (hds : ∀ c ∈ ds, c.isDigit = true)
    (hrest : ∀ c ∈ rest.head?, c.isDigit = false) : spanDigits (ds ++ rest) = (ds, rest) := by
  have hstop : rest.takeWhile Char.isDigit = [] ∧ rest.dropWhile Char.isDigit = rest := by
    cases rest with
    | nil => exact ⟨rfl, rfl⟩
    | cons c rest =>
      have hc : c.isDigit = false := hrest c rfl
      simp [hc]
  rw [spanDigits, List.takeWhile_append_of_pos hds, List.dropWhile_append_of_pos hds, hstop.1,
    hstop.2, List.append_nil]

end EntityQuery.Text
