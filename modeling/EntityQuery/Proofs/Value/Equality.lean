import EntityQuery.Proofs.Json.Equality
import EntityQuery.Proofs.Value.Literal

/-!
# Strict equality of values

Strict equality is symmetric, and it compares two numbers of different kinds by the binary64 numbers
nearest to them. So it is an equivalence up to two exceptions, which are pairs of different values
between which a third one stands that equals both. One is a JSON integer and a JSON float of the
same value: each equals the integer or float value that is the same number, but documents are
compared by their structure, which keeps the two kinds apart. The other are numbers of different
value that a comparison through binary64 does not tell apart. Whether all values of a list equal the
first one does not depend on their order unless such a pair is among them.

Proof. Equal values hold the same number or none (`sameNumber_of_strictEq`), and where they hold a
number, strict equality and having the same number differ only for pairs of one kind. So the chain
`a`, `b`, `c` gives `a` and `c` the same number, and only two integers or two documents are left to
be looked at.
-/

namespace EntityQuery

/-! ## Numeric equality -/

namespace Binary64

theorem equal_comm (x y : Binary64) : x.equal y = y.equal x := by
  cases x <;> cases y <;> simp [equal, Bool.beq_comm]

theorem equal_trans {x y z : Binary64} (h : x.equal y = true) (h' : y.equal z = true) :
    x.equal z = true := by
  cases x <;> cases y <;> cases z <;> simp_all [equal]

theorem equal_self {x : Binary64} (h : x ≠ .nan) : x.equal x = true := by
  cases x with
  | finite x => exact beq_self_eq_true _
  | infinite s => exact beq_self_eq_true _
  | nan => exact absurd rfl h

theorem ofInt_equal_self (n : Int) : (ofInt n).equal (ofInt n) = true :=
  equal_self (ofUnits_ne_nan _ _ _)

theorem units_eq_natAbs (x : Finite) : x.units = x.signedUnits.natAbs := by
  unfold Finite.signedUnits
  split <;> simp

/-- The integer of an integral number is that number. -/
theorem signedUnits_of_isInteger {x : Finite} (h : x.isInteger = true) :
    x.signedUnits = x.truncate * one := by
  unfold Finite.signedUnits Finite.truncate
  rw [← wholePart_mul_one h, Int.natCast_mul]
  split
  · exact (Int.neg_mul _ _).symm
  · rfl

/-- An integer that is a binary64 value equals it. -/
theorem ofInt_equal_of_signedUnits {n : Int} {x : Finite} (h : x.signedUnits = n * one) :
    (ofInt n).equal (.finite x) = true := by
  let y : Finite := ⟨decide (n < 0), x.word, x.word_lt⟩
  have hunits : x.units = n.natAbs * one := by
    rw [units_eq_natAbs, h, Int.natAbs_mul, Int.natAbs_natCast]
  have hround : ofInt n = .finite y := by
    have hexact := ofUnits_units y Nat.one_pos
    have hy : y.units = x.units := rfl
    rwa [hy, hunits, Nat.mul_one] at hexact
  have hsigned : y.signedUnits = n * one := by
    have hy : y.units = n.natAbs * one := hunits
    unfold Finite.signedUnits
    rw [hy, Int.natCast_mul]
    by_cases hn : n < 0
    · rw [if_pos (decide_eq_true hn), ← Int.neg_mul]
      congr 1
      omega
    · rw [if_neg (by simp [y, hn])]
      congr 1
      omega
  rw [hround, equal, hsigned, h]
  exact beq_self_eq_true _

end Binary64

namespace Value

/-! ## Numbers of values -/

/-- The number that a value holds, counted in units; only finite numbers have a count. -/
def units? : Value → Option Int
  | .int n => some (n.toInt * Binary64.one)
  | .float (.finite x) => some x.signedUnits
  | .json (.int n) => some (n.val * Binary64.one)
  | .json (.float x) => some x.signedUnits
  | _ => none

/-- Two values hold numbers with the same nearest binary64 number. -/
def SameNumber (a b : Value) : Prop :=
  ∃ x y, a.number? = some x ∧ b.number? = some y ∧ x.equal y = true

/-- Two numbers of different value that a comparison through binary64 takes for the same. -/
def RoundTogether (a b : Value) : Prop :=
  a.SameNumber b ∧ a.units? ≠ b.units?

/-- A JSON integer and a JSON float of the same value, in either order. -/
inductive KindsApart : Value → Value → Prop
  | intFloat {n : Json.Integer} {x : Binary64.Finite} (h : x.signedUnits = n.val * Binary64.one) :
    KindsApart (.json (.int n)) (.json (.float x))
  | floatInt {n : Json.Integer} {x : Binary64.Finite} (h : x.signedUnits = n.val * Binary64.one) :
    KindsApart (.json (.float x)) (.json (.int n))

/-- A document that a value holds has distinct names. -/
def WellFormed (v : Value) : Prop :=
  ∀ j, v = .json j → j.DistinctNames

theorem SameNumber.trans {a b c : Value} (h : a.SameNumber b) (h' : b.SameNumber c) :
    a.SameNumber c := by
  obtain ⟨x, y, ha, hb, hxy⟩ := h
  obtain ⟨y', z, hb', hc, hyz⟩ := h'
  rw [hb] at hb'
  obtain rfl := Option.some.inj hb'
  exact ⟨x, z, ha, hc, Binary64.equal_trans hxy hyz⟩

theorem sameNumber_json {j k : Json} (h : j.equal k = true) {x : Binary64}
    (hx : j.toBinary64? = some x) : SameNumber (.json j) (.json k) := by
  cases j with
  | int m =>
    cases k with
    | int n =>
      have hmn : m = n := by simpa [Json.equal] using h
      subst hmn
      exact ⟨_, _, rfl, rfl, Binary64.ofInt_equal_self _⟩
    | _ => simp [Json.equal] at h
  | float y =>
    cases k with
    | float z => exact ⟨_, _, rfl, rfl, by rwa [Json.equal] at h⟩
    | _ => simp [Json.equal] at h
  | _ => cases hx

/-- Equal values hold the same number, if the first holds a number. -/
theorem sameNumber_of_strictEq {a b : Value} (h : a.strictEq b = true) {x : Binary64}
    (hx : a.number? = some x) : a.SameNumber b := by
  unfold strictEq at h
  split at h
  · rename_i m n
    obtain rfl := eq_of_beq h
    exact ⟨_, _, rfl, rfl, Binary64.ofInt_equal_self _⟩
  · cases hx
  · cases hx
  · cases hx
  · cases hx
  · exact sameNumber_json h hx
  · rw [hx] at h
    split at h
    · rename_i y z hy hz
      cases hy
      exact ⟨_, _, hx, hz, h⟩
    · cases h

/-- Values with the same number are equal, unless they are of one kind. -/
theorem strictEq_of_sameNumber {a b : Value} (h : a.SameNumber b) :
    a.strictEq b = true ∨ (∃ m n, a = .int m ∧ b = .int n) ∨ ∃ j k, a = .json j ∧ b = .json k := by
  obtain ⟨x, y, ha, hb, hxy⟩ := h
  unfold strictEq
  split
  · exact Or.inr (Or.inl ⟨_, _, rfl, rfl⟩)
  · cases ha
  · cases ha
  · cases ha
  · cases ha
  · exact Or.inr (Or.inr ⟨_, _, rfl, rfl⟩)
  · rw [ha, hb]
    exact Or.inl hxy

/-- A value without a number equals nothing but itself, and documents without one. -/
theorem eq_of_strictEq {a b : Value} (h : a.strictEq b = true) (ha : a.number? = none) :
    a = b ∨ ∃ j k, a = .json j ∧ b = .json k ∧ j.equal k = true ∧ k.toBinary64? = none := by
  unfold strictEq at h
  split at h
  · cases ha
  · exact Or.inl (congrArg Value.date (eq_of_beq h))
  · exact Or.inl rfl
  · exact Or.inl (congrArg Value.bool (eq_of_beq h))
  · exact Or.inl (congrArg Value.text (eq_of_beq h))
  · rename_i j k
    refine Or.inr ⟨j, k, rfl, rfl, h, ?_⟩
    cases j with
    | int m => cases ha
    | float x => cases ha
    | _ =>
      cases k with
      | int n => simp [Json.equal] at h
      | float y => simp [Json.equal] at h
      | _ => rfl
  · rw [ha] at h
    cases h

/-! ## Symmetry and transitivity -/

theorem SameNumber.symm {a b : Value} (h : a.SameNumber b) : b.SameNumber a := by
  obtain ⟨x, y, ha, hb, hxy⟩ := h
  exact ⟨y, x, hb, ha, by rwa [Binary64.equal_comm]⟩

/-- **Strict equality is symmetric.** -/
theorem strictEq_symm {a b : Value} (ha : a.WellFormed) (hb : b.WellFormed)
    (h : a.strictEq b = true) : b.strictEq a = true := by
  cases hx : a.number? with
  | some x =>
    rcases strictEq_of_sameNumber (sameNumber_of_strictEq h hx).symm with
      heq | ⟨n, m, rfl, rfl⟩ | ⟨k, j, rfl, rfl⟩
    · exact heq
    · rwa [strictEq, Bool.beq_comm]
    · exact Json.equal_symm (ha _ rfl) (hb _ rfl) h
  | none =>
    rcases eq_of_strictEq h hx with rfl | ⟨j, k, rfl, rfl, heq, -⟩
    · exact h
    · exact Json.equal_symm (ha _ rfl) (hb _ rfl) heq

theorem mul_one_injective {m n : Int} (h : m * Binary64.one = n * Binary64.one) : m = n :=
  Int.eq_of_mul_eq_mul_right (Int.natCast_ne_zero.mpr (Nat.ne_of_gt Binary64.one_pos)) h

/-- Two integers with the same number are equal, or binary64 does not tell them apart. -/
theorem strictEq_int_or {m n : Int64} (h : SameNumber (.int m) (.int n)) :
    strictEq (.int m) (.int n) = true ∨ RoundTogether (.int m) (.int n) := by
  by_cases hmn : m = n
  · exact Or.inl (beq_iff_eq.mpr hmn)
  · refine Or.inr ⟨h, fun hunits => hmn ?_⟩
    have hmul := Option.some.inj hunits
    exact Int64.toInt.inj (mul_one_injective hmul)

/-- Two documents with the same number are equal, or of different kinds, or binary64 does not tell
them apart. -/
theorem strictEq_json_or {j k : Json} (h : SameNumber (.json j) (.json k)) :
    strictEq (.json j) (.json k) = true ∨ KindsApart (.json j) (.json k) ∨
      RoundTogether (.json j) (.json k) := by
  have h' := h
  obtain ⟨x, y, hj, hk, hxy⟩ := h'
  cases j with
  | int m =>
    cases k with
    | int n =>
      by_cases hmn : m = n
      · refine Or.inl ?_
        rw [strictEq, Json.equal, beq_iff_eq, hmn]
      · refine Or.inr (Or.inr ⟨h, fun hunits => hmn ?_⟩)
        obtain ⟨m, _, _⟩ := m
        obtain ⟨n, _, _⟩ := n
        simpa using mul_one_injective (Option.some.inj hunits)
    | float z =>
      by_cases hz : z.signedUnits = m.val * Binary64.one
      · exact Or.inr (Or.inl (.intFloat hz))
      · exact Or.inr (Or.inr ⟨h, fun hunits => hz (Option.some.inj hunits).symm⟩)
    | _ => cases hk
  | float z =>
    cases k with
    | int n =>
      by_cases hz : z.signedUnits = n.val * Binary64.one
      · exact Or.inr (Or.inl (.floatInt hz))
      · exact Or.inr (Or.inr ⟨h, fun hunits => hz (Option.some.inj hunits)⟩)
    | float z' =>
      cases hj
      cases hk
      exact Or.inl (by rwa [strictEq, Json.equal])
    | _ => cases hk
  | _ => cases hj

/-- **Strict equality is transitive**, up to pairs of JSON numbers of different kinds and pairs that
binary64 does not tell apart. -/
theorem strictEq_trans_or {a b c : Value} (h : a.strictEq b = true) (h' : b.strictEq c = true) :
    a.strictEq c = true ∨ KindsApart a c ∨ RoundTogether a c := by
  cases hx : a.number? with
  | some x =>
    have hab := sameNumber_of_strictEq h hx
    obtain ⟨-, y, -, hy, -⟩ := hab
    have hac := (sameNumber_of_strictEq h hx).trans (sameNumber_of_strictEq h' hy)
    rcases strictEq_of_sameNumber hac with heq | ⟨m, n, rfl, rfl⟩ | ⟨j, k, rfl, rfl⟩
    · exact Or.inl heq
    · exact (strictEq_int_or hac).imp_right Or.inr
    · exact strictEq_json_or hac
  | none =>
    rcases eq_of_strictEq h hx with rfl | ⟨j, k, rfl, rfl, heq, hk⟩
    · exact Or.inl h'
    · rcases eq_of_strictEq h' hk with rfl | ⟨k', l, hk', rfl, heq', -⟩
      · exact Or.inl h
      · cases hk'
        exact Or.inl (Json.equal_trans heq heq')

/-- A JSON integer and a JSON float of the same value differ, and a plain value equals both. -/
theorem KindsApart.between {a c : Value} (h : KindsApart a c) :
    a.strictEq c = false ∧ ∃ b, a.strictEq b = true ∧ b.strictEq c = true := by
  cases h with
  | @intFloat n x h =>
    refine ⟨by simp [strictEq, Json.equal], .float (.finite x), ?_, ?_⟩
    · exact Binary64.ofInt_equal_of_signedUnits h
    · exact beq_self_eq_true x.signedUnits
  | @floatInt n x h =>
    refine ⟨by simp [strictEq, Json.equal], .float (.finite x), ?_, ?_⟩
    · exact beq_self_eq_true x.signedUnits
    · exact (Binary64.equal_comm _ _).trans (Binary64.ofInt_equal_of_signedUnits h)

/-! ## Lists of values -/

/-- Values of which no two stand on the sides of an exception. -/
def Comparable (vs : List Value) : Prop :=
  ∀ a ∈ vs, ∀ c ∈ vs, ¬ KindsApart a c ∧ ¬ RoundTogether a c

theorem Comparable.strictEq_trans {vs : List Value} (h : Comparable vs) {a b c : Value}
    (ha : a ∈ vs) (hc : c ∈ vs) (hab : a.strictEq b = true) (hbc : b.strictEq c = true) :
    a.strictEq c = true := by
  have hpair := h a ha c hc
  exact (strictEq_trans_or hab hbc).resolve_right fun hor => hor.elim hpair.1 hpair.2

theorem Comparable.allEqual_of_perm {vs ws : List Value} (h : Comparable vs)
    (hvs : ∀ v ∈ vs, v.WellFormed) (hperm : vs.Perm ws) (hall : allEqual vs = true) :
    allEqual ws = true := by
  cases vs with
  | nil => rw [List.nil_perm.mp hperm, allEqual]
  | cons v vs =>
    cases ws with
    | nil => rfl
    | cons w ws =>
      rw [allEqual, List.all_eq_true] at hall ⊢
      intro u hu
      have hw : w ∈ v :: vs := hperm.mem_iff.mpr (List.mem_cons_self ..)
      have hu' : u ∈ v :: vs := hperm.mem_iff.mpr (List.mem_cons_of_mem w hu)
      by_cases hwv : w = v
      · -- the first value is the same, so the others are the same values
        subst hwv
        exact hall u (hperm.cons_inv.mem_iff.mpr hu)
      · have hvw := hall w ((List.mem_cons.mp hw).resolve_left hwv)
        have hwv' : w.strictEq v = true := strictEq_symm (hvs v (by simp)) (hvs w hw) hvw
        rcases List.mem_cons.mp hu' with rfl | humem
        · exact hwv'
        · exact h.strictEq_trans hw hu' hwv' (hall u humem)

/-- **When all values of a list are equal does not depend on their order**: strict equality is
symmetric, and transitive but for two exceptions. A JSON integer and a JSON float of the same value
are never equal, although a plain value equals both; and where binary64 does not tell two different
numbers apart, nothing is said. A list without such pairs gives the same answer in every order. -/
theorem allEqual_perm :
    (∀ a b : Value, a.WellFormed → b.WellFormed → a.strictEq b = b.strictEq a) ∧
      (∀ a b c : Value, a.strictEq b = true → b.strictEq c = true →
        a.strictEq c = true ∨ KindsApart a c ∨ RoundTogether a c) ∧
      (∀ a c : Value, KindsApart a c →
        a.strictEq c = false ∧ ∃ b, a.strictEq b = true ∧ b.strictEq c = true) ∧
      ∀ vs ws : List Value, vs.Perm ws → (∀ v ∈ vs, v.WellFormed) → Comparable vs →
        allEqual vs = allEqual ws := by
  refine ⟨fun a b ha hb => ?_, fun a b c => strictEq_trans_or, fun a c => KindsApart.between,
    fun vs ws hperm hvs h => ?_⟩
  · rw [Bool.eq_iff_iff]
    exact ⟨strictEq_symm ha hb, strictEq_symm hb ha⟩
  · have hws : ∀ v ∈ ws, v.WellFormed := fun v hv => hvs v (hperm.mem_iff.mpr hv)
    have h' : Comparable ws := fun a ha c hc =>
      h a (hperm.mem_iff.mpr ha) c (hperm.mem_iff.mpr hc)
    rw [Bool.eq_iff_iff]
    exact ⟨h.allEqual_of_perm hvs hperm, h'.allEqual_of_perm hws hperm.symm⟩

/-- The largest safe integer as a plain integer, as a float and in a document. -/
def safeForms : List Value :=
  [.int 9007199254740992, .float (.finite ⟨false, 0x4340000000000000, by decide⟩),
    .json (.int ⟨9007199254740992, by decide, by decide⟩)]

/-- The three forms are equal in every order. -/
theorem safeForms_perm :
    safeForms.Perm safeForms.reverse ∧ (∀ v ∈ safeForms, v.WellFormed) ∧ Comparable safeForms ∧
      allEqual safeForms = true ∧ allEqual safeForms.reverse = true := by
  have hperm : safeForms.Perm safeForms.reverse := (List.reverse_perm _).symm
  have hwell : ∀ v ∈ safeForms, v.WellFormed := by
    intro v hv j hj
    subst hj
    simp only [safeForms, List.mem_cons, List.not_mem_nil, or_false, reduceCtorEq, false_or] at hv
    cases hv
    exact .int _
  have hunits : ∀ v ∈ safeForms, v.units? = some (9007199254740992 * Binary64.one) := by
    simp only [safeForms, List.forall_mem_cons]
    exact ⟨rfl, by decide +kernel, rfl, by simp⟩
  have hcomparable : Comparable safeForms := by
    intro a ha c hc
    refine ⟨fun h => ?_, fun h => h.2 ((hunits a ha).trans (hunits c hc).symm)⟩
    cases h with
    | intFloat h => simp [safeForms] at hc
    | floatInt h => simp [safeForms] at ha
  have hall : allEqual safeForms = true := by decide +kernel
  exact ⟨hperm, hwell, hcomparable, hall,
    (allEqual_perm.2.2.2 _ _ hperm hwell hcomparable).symm.trans hall⟩

/-- One as a plain integer and as the two kinds of JSON numbers. -/
def ones : List Value :=
  [.int 1, .json (.int ⟨1, by decide, by decide⟩),
    .json (.float ⟨false, 0x3FF0000000000000, by decide⟩)]

/-- **The order matters for JSON numbers of different kinds**: both equal the plain number, and not
each other. -/
theorem ones_depend_on_order :
    ones.Perm ones.reverse ∧ allEqual ones = true ∧ allEqual ones.reverse = false := by
  refine ⟨(List.reverse_perm _).symm, ?_, ?_⟩
  · decide +kernel
  · decide +kernel

end Value

end EntityQuery
