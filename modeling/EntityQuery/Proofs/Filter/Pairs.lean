import EntityQuery.Proofs.Filter.Params
import EntityQuery.Proofs.Record.Entries

/-!
# The names of a request

The parameters of a request are built by calls, one after the other, and each call sets one of them:
after any calls a parameter is what the last call that sets it gave (`last_of_calls`). So each name
has one value, except that the filter and the expand expression stand apart from the other
parameters, which may have any names, theirs too.

`pairs_build` counts the names of the pairs. No name comes twice but the names of the filter and of
the expand expression, and those exactly if both the parameter of that name and the one that stands
apart have a value that is not empty. `repeatedFilter_pairs` is a request where they do.
-/

namespace EntityQuery

open Predicate

namespace QueryParams

variable {ι σ α : Type}

/-! ## Building parameters -/

/-- A call that sets a parameter of a request. -/
inductive Call (ι : Type) where
  | filter (f : FilterParam ι)
  | expand (value : String)
  | param (name value : String)

namespace Call

/-- The parameters after a call. -/
def apply (q : QueryParams ι) : Call ι → QueryParams ι
  | .filter f => q.setFilter f
  | .expand value => q.setExpand value
  | .param name value => q.setParam name value

/-- The filter that a call sets. -/
def filter? : Call ι → Option (FilterParam ι)
  | .filter f => some f
  | _ => none

/-- The expand expression that a call sets. -/
def expand? : Call ι → Option String
  | .expand value => some value
  | _ => none

/-- The value that a call sets another parameter to. -/
def param? (name : String) : Call ι → Option String
  | .param n value => if n = name then some value else none
  | _ => none

end Call

/-- The parameters after some calls on none. -/
def build (calls : List (Call ι)) : QueryParams ι :=
  calls.foldl Call.apply empty

/-- What the last call that sets something sets it to. -/
def lastOf (set? : Call ι → Option α) (calls : List (Call ι)) : Option α :=
  (calls.filterMap set?).getLast?

theorem lastOf_cons (set? : Call ι → Option α) (c : Call ι) (calls : List (Call ι)) :
    lastOf set? (c :: calls) = (lastOf set? calls).or (set? c) := by
  unfold lastOf
  cases hc : set? c with
  | none => rw [List.filterMap_cons_none hc, Option.or_none]
  | some a =>
    rw [List.filterMap_cons_some hc, List.getLast?_cons]
    cases (calls.filterMap set?).getLast? <;> rfl

/-- What each call either sets or keeps is in the end what the last call that sets it gave. -/
theorem last_of_calls (field : QueryParams ι → Option α) (set? : Call ι → Option α)
    (hstep : ∀ q c, field (Call.apply q c) = (set? c).or (field q)) (calls : List (Call ι))
    (q : QueryParams ι) : field (calls.foldl Call.apply q) = (lastOf set? calls).or (field q) := by
  induction calls generalizing q with
  | nil => rfl
  | cons c calls ih => rw [List.foldl_cons, ih, hstep, lastOf_cons, Option.or_assoc]

section Build

variable (calls : List (Call ι))

theorem filter_build : (build calls).filter = lastOf Call.filter? calls := by
  have hstep : ∀ (q : QueryParams ι) c, (Call.apply q c).filter = c.filter?.or q.filter := by
    intro q c
    cases c <;> rfl
  exact (last_of_calls _ _ hstep calls empty).trans Option.or_none

theorem expand_build : (build calls).expand = lastOf Call.expand? calls := by
  have hstep : ∀ (q : QueryParams ι) c, (Call.apply q c).expand = c.expand?.or q.expand := by
    intro q c
    cases c <;> rfl
  exact (last_of_calls _ _ hstep calls empty).trans Option.or_none

theorem extra_build (name : String) :
    (build calls).extra.get? name = lastOf (Call.param? name) calls := by
  have hstep : ∀ (q : QueryParams ι) c,
      (Call.apply q c).extra.get? name = (c.param? name).or (q.extra.get? name) := by
    intro q c
    cases c with
    | filter f => rfl
    | expand value => rfl
    | param n value =>
      show (q.extra.insert n value).get? name = _
      rw [Entries.get?_insert, Call.param?]
      by_cases hn : n = name
      · rw [if_pos hn, if_pos hn.symm]
        rfl
      · rw [if_neg hn, if_neg (Ne.symm hn)]
        rfl
  exact (last_of_calls (fun q => q.extra.get? name) _ hstep calls empty).trans Option.or_none

end Build

/-! ## Counting names -/

/-- Whether a value is sent: there is one, and it is not empty. -/
def isSent (value? : Option String) : Bool :=
  value?.any fun s => !s.isEmpty

/-- The names of some pairs. -/
def namesOf (request : List (String × String)) : List String :=
  request.map Prod.fst

theorem count_optional (field name : String) (value? : Option String) :
    (namesOf ((value?.map fun s => (field, s)).toList.filter fun e => !e.2.isEmpty)).count name =
      (field == name && isSent value?).toNat := by
  cases value? with
  | none => simp [namesOf, isSent]
  | some s =>
    cases hs : s.isEmpty
    · by_cases hname : field = name
      · simp [namesOf, isSent, hs, hname]
      · rw [beq_eq_false_iff_ne.mpr hname]
        simp [namesOf, hs, hname]
    · simp [namesOf, isSent, hs]

variable (q : QueryParams ι) (text? : Option String)

/-- A name is counted for the filter, for the expand expression and for the other parameter of that
name. -/
theorem count_pairsWith (name : String) : (namesOf (q.pairsWith text?)).count name =
    (filterName == name && isSent text?).toNat + (expandName == name && isSent q.expand).toNat +
      (isSent (q.extra.get? name)).toNat := by
  have hextra : (namesOf (q.extra.toList.filter fun e => !e.2.isEmpty)).count name =
      (isSent (q.extra.get? name)).toNat :=
    count_names_filter q.extra.nodup (fun s : String => !s.isEmpty) name
  rw [← count_optional, ← count_optional, ← hextra]
  simp only [pairsWith, namesOf, List.filter_append, List.map_append, List.count_append]

theorem value_ne_empty {e : String × String} (he : e ∈ q.pairsWith text?) : e.2 ≠ "" := by
  rw [pairsWith, List.mem_filter] at he
  simpa using he.2

theorem toNat_add_toNat_le_one : ∀ {a b : Bool}, a.toNat + b.toNat ≤ 1 ↔ ¬ (a = true ∧ b = true) := by
  decide

/-- The names are distinct unless another parameter takes the name of one that stands apart. -/
theorem nodup_pairsWith_iff : (namesOf (q.pairsWith text?)).Nodup ↔
    ¬ (isSent text? = true ∧ isSent (q.extra.get? filterName) = true) ∧
      ¬ (isSent q.expand = true ∧ isSent (q.extra.get? expandName) = true) := by
  have hfilter : (namesOf (q.pairsWith text?)).count filterName =
      (isSent text?).toNat + (isSent (q.extra.get? filterName)).toNat := by
    rw [count_pairsWith, show (expandName == filterName) = false from by decide, beq_self_eq_true,
      Bool.true_and, Bool.false_and]
    rfl
  have hexpand : (namesOf (q.pairsWith text?)).count expandName =
      (isSent q.expand).toNat + (isSent (q.extra.get? expandName)).toNat := by
    rw [count_pairsWith, show (filterName == expandName) = false from by decide, beq_self_eq_true,
      Bool.true_and, Bool.false_and]
    show 0 + _ + _ = _
    rw [Nat.zero_add]
  rw [List.nodup_iff_count, ← toNat_add_toNat_le_one, ← toNat_add_toNat_le_one, ← hfilter, ← hexpand]
  constructor
  · intro h
    exact ⟨h filterName, h expandName⟩
  · rintro ⟨hfilter, hexpand⟩ name
    by_cases hf : filterName = name
    · exact hf ▸ hfilter
    by_cases he : expandName = name
    · exact he ▸ hexpand
    rw [count_pairsWith, beq_eq_false_iff_ne.mpr hf, beq_eq_false_iff_ne.mpr he, Bool.false_and,
      Bool.false_and]
    show 0 + 0 + _ ≤ 1
    rw [Nat.zero_add]
    exact Bool.toNat_le _

/-! ## The pairs of built parameters -/

/-- **How often a name is sent**, after any calls that build the parameters, as long as the filter,
which is the last one that was set, compiles. The pairs come out, and none has an empty value. A
name is counted once for the filter if it is its name, once for the expand expression if it is its
name, and once for the last value that another parameter of that name was set to, each if there is
one that is not empty. So the names are distinct exactly if no other parameter with a value takes
the name of a filter or of an expand expression with a text. -/
theorem pairs_build (thunks : Thunks ι σ) (depth : Nat) (calls : List (Call ι)) {s s' : σ}
    {text? : Option String}
    (h : (build calls).filterText (run thunks depth) s = some (.ok text?, s')) :
    (build calls).filter = lastOf Call.filter? calls ∧
    ∃ request, (build calls).pairs (run thunks depth) s = some (.ok request, s') ∧
      (∀ e ∈ request, e.2 ≠ "") ∧
      (∀ name, (namesOf request).count name =
        (filterName == name && isSent text?).toNat +
          (expandName == name && isSent (lastOf Call.expand? calls)).toNat +
          (isSent (lastOf (Call.param? name) calls)).toNat) ∧
      ((namesOf request).Nodup ↔
        ¬ (isSent text? = true ∧ isSent (lastOf (Call.param? filterName) calls) = true) ∧
          ¬ (isSent (lastOf Call.expand? calls) = true ∧
            isSent (lastOf (Call.param? expandName) calls) = true)) := by
  have hpairs : (build calls).pairs (run thunks depth) s =
      some (.ok ((build calls).pairsWith text?), s') := by
    rw [pairs_eq, Run.bind_apply, h]
    rfl
  refine ⟨filter_build calls, _, hpairs, fun e => value_ne_empty _ _, ?_, ?_⟩
  · intro name
    rw [count_pairsWith, expand_build, extra_build]
  · rw [nodup_pairsWith_iff, expand_build, extra_build, extra_build]

/-- Calls that set everything twice, the last time to something. -/
def secondThoughts : List (Call Bool) :=
  [.filter (.text "Id eq 1"), .param "$top" "", .expand "",
    .filter (.tree (between .gt (.text "Id") (.thunk false))), .param "$top" "10",
    .expand "Doctor($select=Name)"]

/-- Each name comes once. -/
theorem secondThoughts_names :
    (build secondThoughts).filterText (run counting 1) 5 = some (.ok (some "(Id gt 5)"), 6) ∧
      ∃ request, (build secondThoughts).pairs (run counting 1) 5 = some (.ok request, 6) ∧
        (namesOf request).count "$top" = 1 ∧ (namesOf request).Nodup := by
  have h : (build secondThoughts).filterText (run counting 1) 5 =
      some (.ok (some "(Id gt 5)"), 6) := rfl
  obtain ⟨-, request, hpairs, -, hcount, hnodup⟩ := pairs_build counting 1 secondThoughts h
  exact ⟨h, request, hpairs, (hcount "$top").trans (by decide), hnodup.mpr (by decide)⟩

/-- Calls that set the filter and another parameter of that name. -/
def repeatedFilter : List (Call Bool) :=
  [.filter (.text "Id eq 1"), .param "$filter" "Id eq 1"]

/-- **A name can come twice.** -/
theorem repeatedFilter_pairs :
    (build repeatedFilter).filterText (run counting 1) 5 = some (.ok (some "Id eq 1"), 5) ∧
      (build repeatedFilter).pairs (run counting 1) 5 =
        some (.ok [("$filter", "Id eq 1"), ("$filter", "Id eq 1")], 5) ∧
      ¬ (namesOf [("$filter", "Id eq 1"), ("$filter", "Id eq 1")]).Nodup :=
  ⟨rfl, rfl, by decide⟩

end QueryParams

end EntityQuery
