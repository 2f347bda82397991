import EntityQuery.Json.Reader
import EntityQuery.Proofs.Record.Entries
import Mathlib.Data.List.Perm.Subperm

/-!
# Equality of JSON documents

Equality of documents does not look at the order of members, so it is stated through look-ups: an
object equals another if they have the same number of members and each member of the first is found
in the second with an equal value. That is symmetric only because the names of an object are
distinct, which every document that was read from a text keeps (`distinctNames_read?`).
-/

namespace EntityQuery.Json

/-! ## Documents with distinct names -/

/-- In every object of a document, at any depth, no name occurs twice. -/
inductive DistinctNames : Json → Prop
  | null : DistinctNames .null
  | bool (b : Bool) : DistinctNames (.bool b)
  | int (n : Integer) : DistinctNames (.int n)
  | float (x : Binary64.Finite) : DistinctNames (.float x)
  | text (s : String) : DistinctNames (.text s)
  | array {items : List Json} (h : ∀ j ∈ items, DistinctNames j) : DistinctNames (.array items)
  | object {members : List (String × Json)} (hnames : (members.map Prod.fst).Nodup)
    (h : ∀ m ∈ members, DistinctNames m.2) : DistinctNames (.object members)

/-! ## Members -/

theorem equalMembers_iff {ms ns : List (String × Json)} :
    equalMembers ms ns = true ↔
      ∀ m ∈ ms, ∃ w, ns.lookup m.1 = some w ∧ equal m.2 w = true := by
  induction ms with
  | nil => simp [equalMembers]
  | cons m ms ih =>
    obtain ⟨k, v⟩ := m
    rw [equalMembers, Bool.and_eq_true, ih, List.forall_mem_cons]
    refine and_congr_left fun _ => ?_
    cases ns.lookup k <;> simp

theorem equal_object_iff {ms ns : List (String × Json)} :
    equal (.object ms) (.object ns) = true ↔
      ms.length = ns.length ∧
        ∀ m ∈ ms, ∃ w, ns.lookup m.1 = some w ∧ equal m.2 w = true := by
  rw [equal, Bool.and_eq_true, beq_iff_eq, equalMembers_iff]

/-- Distinct names that all occur among equally many others are these others. -/
theorem names_subset {ms ns : List (String × Json)} (hms : (ms.map Prod.fst).Nodup)
    (hlen : ms.length = ns.length) (h : ∀ m ∈ ms, ∃ w, ns.lookup m.1 = some w) :
    ∀ k ∈ ns.map Prod.fst, k ∈ ms.map Prod.fst := by
  have hsub : ms.map Prod.fst ⊆ ns.map Prod.fst := by
    intro k hk
    obtain ⟨m, hm, rfl⟩ := List.mem_map.mp hk
    obtain ⟨w, hw⟩ := h m hm
    exact lookup_isSome_iff.mp (Option.isSome_iff_exists.mpr ⟨w, hw⟩)
  have hperm : (ms.map Prod.fst).Perm (ns.map Prod.fst) :=
    (List.subperm_of_subset hms hsub).perm_of_length_le (by simp [hlen])
  exact fun k hk => hperm.mem_iff.mpr hk

/-! ## Symmetry -/

/-- **Equality of documents is symmetric.** -/
theorem equal_symm {j : Json} (hj : j.DistinctNames) {k : Json} (hk : k.DistinctNames)
    (h : equal j k = true) : equal k j = true := by
  induction hj generalizing k with
  | null => cases k <;> simp_all [equal]
  | bool b => cases k <;> simp_all [equal]
  | int n => cases k <;> simp_all [equal]
  | float x => cases k <;> simp_all [equal]
  | text s => cases k <;> simp_all [equal]
  | @array items hitems ih =>
    cases hk with
    | @array items' hitems' =>
      rw [equal] at h ⊢
      clear hitems
      induction items generalizing items' with
      | nil =>
        cases items' with
        | nil => rfl
        | cons y ys => cases h
      | cons x xs ihxs =>
        cases items' with
        | nil => cases h
        | cons y ys =>
          rw [equalItems, Bool.and_eq_true] at h ⊢
          rw [List.forall_mem_cons] at ih hitems'
          exact ⟨ih.1 hitems'.1 h.1, ihxs ih.2 hitems'.2 h.2⟩
    | _ => simp [equal] at h
  | @object ms hms _ ih =>
    cases hk with
    | @object ns hns hmembers =>
      rw [equal_object_iff] at h ⊢
      obtain ⟨hlen, hfound⟩ := h
      refine ⟨hlen.symm, fun n hn => ?_⟩
      have hname : n.1 ∈ ms.map Prod.fst :=
        names_subset hms hlen (fun m hm => (hfound m hm).imp fun _ => And.left) n.1
          (List.mem_map_of_mem hn)
      obtain ⟨m, hm, hmn⟩ := List.mem_map.mp hname
      obtain ⟨w, hw, heq⟩ := hfound m hm
      -- names are distinct in the second object too, so the look-up has found this member
      rw [hmn, lookup_of_mem hns hn] at hw
      obtain rfl := Option.some.inj hw
      exact ⟨m.2, by rw [← hmn, lookup_of_mem hms hm], ih m hm (hmembers n hn) heq⟩
    | _ => simp [equal] at h

/-! ## Transitivity -/

mutual

/-- **Equality of documents is transitive.** -/
theorem equal_trans : ∀ {i j k : Json}, equal i j = true → equal j k = true → equal i k = true
  | .null, j, k, h, h' => by cases j <;> cases k <;> simp_all [equal]
  | .bool _, j, k, h, h' => by cases j <;> cases k <;> simp_all [equal]
  | .int _, j, k, h, h' => by cases j <;> cases k <;> simp_all [equal]
  | .float _, j, k, h, h' => by cases j <;> cases k <;> simp_all [equal]
  | .text _, j, k, h, h' => by cases j <;> cases k <;> simp_all [equal]
  | .array xs, j, k, h, h' => by
    cases j with
    | array ys =>
      cases k with
      | array zs =>
        rw [equal] at h h' ⊢
        exact equalItems_trans h h'
      | _ => simp [equal] at h'
    | _ => simp [equal] at h
  | .object ms, j, k, h, h' => by
    cases j with
    | object ns =>
      cases k with
      | object ps =>
        rw [equal_object_iff] at h h' ⊢
        refine ⟨h.1.trans h'.1, fun m hm => ?_⟩
        obtain ⟨w, hw, heq⟩ := h.2 m hm
        obtain ⟨u, hu, heq'⟩ := h'.2 (m.1, w) (mem_of_lookup_eq_some hw)
        exact ⟨u, hu, equal_trans_members ms m hm heq heq'⟩
      | _ => simp [equal] at h'
    | _ => simp [equal] at h

theorem equalItems_trans : ∀ {xs ys zs : List Json}, equalItems xs ys = true →
    equalItems ys zs = true → equalItems xs zs = true
  | [], ys, zs, h, h' => by cases ys <;> cases zs <;> simp_all [equalItems]
  | x :: xs, ys, zs, h, h' => by
    cases ys with
    | nil => cases h
    | cons y ys =>
      cases zs with
      | nil => cases h'
      | cons z zs =>
        rw [equalItems, Bool.and_eq_true] at h h' ⊢
        exact ⟨equal_trans h.1 h'.1, equalItems_trans h.2 h'.2⟩

theorem equal_trans_members : ∀ (ms : List (String × Json)), ∀ m ∈ ms, ∀ {j k : Json},
    equal m.2 j = true → equal j k = true → equal m.2 k = true
  | [] => by simp
  | (_, _) :: ms =>
    List.forall_mem_cons.mpr ⟨fun h h' => equal_trans h h', equal_trans_members ms⟩

end

/-! ## Documents that were read -/

theorem setMember_eq_setEntry (key : String) (value : Json) (ms : List (String × Json)) :
    setMember key value ms = setEntry key value ms := by
  induction ms with
  | nil => rfl
  | cons m ms ih =>
    obtain ⟨k, v⟩ := m
    rw [setMember, setEntry, ih]
    by_cases hk : k = key
    · rw [if_pos hk, if_pos hk, hk]
    · rw [if_neg hk, if_neg hk]

theorem mem_setMember {key : String} {value : Json} {ms : List (String × Json)} {m : String × Json}
    (h : m ∈ setMember key value ms) : m = (key, value) ∨ m ∈ ms := by
  induction ms with
  | nil => exact Or.inl (List.mem_singleton.mp h)
  | cons e ms ih =>
    obtain ⟨k, v⟩ := e
    unfold setMember at h
    split at h
    · exact (List.mem_cons.mp h).imp_right (List.mem_cons_of_mem _)
    · rcases List.mem_cons.mp h with h | h
      · exact Or.inr (List.mem_cons.mpr (Or.inl h))
      · exact (ih h).imp_right (List.mem_cons_of_mem _)

theorem distinctNames_setMember {key : String} {value : Json} {ms : List (String × Json)}
    (hvalue : value.DistinctNames) (hms : (Json.object ms).DistinctNames) :
    (Json.object (setMember key value ms)).DistinctNames := by
  cases hms with
  | object hnames hmembers =>
    refine .object ?_ fun m hm => ?_
    · rw [setMember_eq_setEntry]
      exact nodup_names_setEntry hnames
    · rcases mem_setMember hm with rfl | hm
      · exact hvalue
      · exact hmembers m hm

theorem distinctNames_numberOf {negative : Bool} {whole : List Char} {fraction : Option (List Char)}
    {exponent : Option Int} {j : Json} (h : numberOf negative whole fraction exponent = some j) :
    j.DistinctNames := by
  unfold numberOf at h
  dsimp only at h
  -- an integer, a finite float, or a float beyond the finite ones
  repeat' split at h
  all_goals first
    | cases h
      exact .int _
    | cases h
      exact .float _
    | cases h

theorem distinctNames_readNumber {s rest : List Char} {j : Json}
    (h : readNumber s = some (j, rest)) : j.DistinctNames := by
  have hend : ∀ {negative : Bool} {whole : List Char} {fraction : Option (List Char)}
      {t : List Char}, ((takeExponent? t).bind fun e =>
        (numberOf negative whole fraction e.1).bind fun j => some (j, e.2)) = some (j, rest) →
      j.DistinctNames := by
    intro negative whole fraction t ht
    obtain ⟨e, -, ht⟩ := Option.bind_eq_some_iff.mp ht
    obtain ⟨j', hj, ht⟩ := Option.bind_eq_some_iff.mp ht
    cases ht
    exact distinctNames_numberOf hj
  unfold readNumber at h
  simp only [Option.bind_eq_bind, Option.pure_def, Option.bind_none, Option.bind_some] at h
  -- the sign, the digits before the point, the point, the digits behind it
  repeat' split at h
  all_goals first
    | exact hend h
    | cases h

theorem distinctNames_readWord {word s rest : List Char} {value j : Json}
    (hvalue : value.DistinctNames) (h : readWord word value s = some (j, rest)) :
    j.DistinctNames := by
  unfold readWord at h
  split at h
  · cases h
    exact hvalue
  · cases h

/-- What the readers of values, items and members keep with some fuel. -/
def ReadsDistinct (fuel : Nat) : Prop :=
  (∀ depth s j rest, readValue fuel depth s = some (j, rest) → j.DistinctNames) ∧
    (∀ depth acc s j rest, (∀ x ∈ acc, DistinctNames x) →
      readItems fuel depth acc s = some (j, rest) → j.DistinctNames) ∧
    ∀ depth acc s j rest, (Json.object acc).DistinctNames →
      readMembers fuel depth acc s = some (j, rest) → j.DistinctNames

theorem readsDistinct (fuel : Nat) : ReadsDistinct fuel := by
  induction fuel with
  | zero =>
    refine ⟨fun _ _ _ _ h => ?_, fun _ _ _ _ _ _ h => ?_, fun _ _ _ _ _ _ h => ?_⟩
    · rw [readValue] at h; cases h
    · rw [readItems] at h; cases h
    · rw [readMembers] at h; cases h
  | succ fuel ih =>
    obtain ⟨hvalue, hitems, hmembers⟩ := ih
    refine ⟨fun depth s j rest h => ?_, fun depth acc s j rest hacc h => ?_,
      fun depth acc s j rest hacc h => ?_⟩
    · rw [readValue] at h
      split at h
      · -- a string
        split at h <;> cases h
        exact .text _
      · -- an array
        split at h
        · cases h
        · split at h
          · cases h
            exact .array (by simp)
          · exact hitems _ _ _ _ _ (by simp) h
      · -- an object
        split at h
        · cases h
        · split at h
          · cases h
            exact .object (by simp) (by simp)
          · exact hmembers _ _ _ _ _ (.object (by simp) (by simp)) h
      · exact distinctNames_readWord .null h
      · exact distinctNames_readWord (.bool true) h
      · exact distinctNames_readWord (.bool false) h
      · exact distinctNames_readNumber h
    · rw [readItems] at h
      split at h
      · cases h
      · rename_i x rest' hx
        have hcons : ∀ y ∈ x :: acc, DistinctNames y :=
          List.forall_mem_cons.mpr ⟨hvalue _ _ _ _ hx, hacc⟩
        split at h
        · exact hitems _ _ _ _ _ hcons h
        · cases h
          exact .array fun y hy => hcons y (List.mem_reverse.mp hy)
        · cases h
    · rw [readMembers] at h
      split at h
      · split at h
        · cases h
        · rename_i key rest' _
          split at h
          · split at h
            · cases h
            · rename_i x rest'' hx
              have hset : (Json.object (setMember key x acc)).DistinctNames :=
                distinctNames_setMember (hvalue _ _ _ _ hx) hacc
              split at h
              · exact hmembers _ _ _ _ _ hset h
              · cases h
                exact hset
              · cases h
          · cases h
      · cases h

/-- **A document that was read from a text has distinct names**, at every depth. -/
theorem distinctNames_read? {text : String} {j : Json} (h : read? text = some j) :
    j.DistinctNames := by
  simp only [read?, readWithin?] at h
  split at h
  · rename_i j' rest hread
    split at h
    · cases h
      exact (readsDistinct _).1 _ _ _ _ hread
    · cases h
  · cases h

end EntityQuery.Json
