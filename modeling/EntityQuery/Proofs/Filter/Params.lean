import EntityQuery.Filter.Params
import EntityQuery.Proofs.Filter.Calls

/-!
# Applying the filter of a request

Applying the filter of some parameters and writing them as pairs both begin with the text of the
filter (`filterText`), and do nothing else that depends on thunks. What applying makes of that text
is settled: the filter is gone or a text that is not empty. Settled parameters give their pairs as
they are, and the pairs are those of the text, since an empty text makes no pair anyway.
-/

namespace EntityQuery

open Predicate

namespace QueryParams

variable {ι σ : Type}

/-- Whether the filter is ready to be sent: there is none, or it is a text that is not empty. -/
def Settled (q : QueryParams ι) : Prop :=
  q.filter = none ∨ ∃ text, text ≠ "" ∧ q.filter = some (.text text)

/-- The text of the filter, compiled if it is a tree. -/
def filterText (compile : Predicate ι → Run σ (Option String)) (q : QueryParams ι) :
    Run σ (Option String) :=
  match q.filter with
  | some (.tree p) => compile p
  | some (.text s) => pure (some s)
  | none => pure none

/-- A text in place of the filter, unless it is empty. -/
def settle (q : QueryParams ι) (text? : Option String) : QueryParams ι :=
  { q with filter := (text?.filter fun s => !s.isEmpty).map .text }

section Settle

variable (compile : Predicate ι → Run σ (Option String)) (q : QueryParams ι)

theorem applyFilter_eq : q.applyFilter compile = q.filterText compile >>= fun text? =>
    pure (q.settle text?) := by
  obtain ⟨filter, expand, extra⟩ := q
  cases filter with
  | none => rfl
  | some f =>
    cases f with
    | tree p => rfl
    | text s =>
      by_cases hs : s = "" <;> simp [applyFilter, filterText, settle, Option.filter, hs]

theorem pairs_eq : q.pairs compile = q.filterText compile >>= fun text? =>
    pure (q.pairsWith text?) := by
  obtain ⟨filter, expand, extra⟩ := q
  cases filter with
  | none => rfl
  | some f => cases f <;> rfl

variable (text? : Option String)

theorem settled_settle : (q.settle text?).Settled := by
  cases text? with
  | none => exact Or.inl rfl
  | some s =>
    by_cases hs : s = ""
    · exact Or.inl (by simp [settle, hs])
    · exact Or.inr ⟨s, hs, by simp [settle, hs]⟩

theorem filterText_settle :
    (q.settle text?).filterText compile = pure (text?.filter fun s => !s.isEmpty) := by
  unfold filterText settle
  cases text?.filter fun s => !s.isEmpty <;> rfl

theorem settle_settle :
    (q.settle text?).settle (text?.filter fun s => !s.isEmpty) = q.settle text? := by
  simp [settle, Option.filter_filter]

/-- An empty text makes no pair. -/
theorem pairsWith_settle :
    (q.settle text?).pairsWith (text?.filter fun s => !s.isEmpty) = q.pairsWith text? := by
  cases text? with
  | none => rfl
  | some s => by_cases hs : s = "" <;> simp [pairsWith, settle, Option.filter, hs]

end Settle

/-- **Applying the filter never changes the request.** It stops at a fault, or has no outcome,
exactly when writing the pairs does. Otherwise it settles the filter and leaves the rest, and the
pairs come out as before, without a thunk being called any more: they do so at every depth, also at
none, whatever the thunks are, and leave every state as it is. So does applying the filter again. -/
theorem applyFilter_keeps_request (thunks : Thunks ι σ) (depth : Nat) (q : QueryParams ι) (s : σ) :
    (∀ fault s', q.applyFilter (run thunks depth) s = some (.error fault, s') ↔
      q.pairs (run thunks depth) s = some (.error fault, s')) ∧
    (q.applyFilter (run thunks depth) s = none ↔ q.pairs (run thunks depth) s = none) ∧
    ∀ q' s', q.applyFilter (run thunks depth) s = some (.ok q', s') →
      q'.Settled ∧ q'.expand = q.expand ∧ q'.extra = q.extra ∧
      ∃ request, q.pairs (run thunks depth) s = some (.ok request, s') ∧
        ∀ {τ : Type} (thunks' : Thunks ι τ) (depth' : Nat) (t : τ),
          q'.pairs (run thunks' depth') t = some (.ok request, t) ∧
          q'.applyFilter (run thunks' depth') t = some (.ok q', t) := by
  rw [applyFilter_eq, pairs_eq, Run.bind_apply, Run.bind_apply]
  cases q.filterText (run thunks depth) s with
  | none => simp
  | some y =>
    obtain ⟨r, s'⟩ := y
    cases r with
    | error fault => simp
    | ok text? =>
      refine ⟨fun fault t => ⟨fun h => (by cases h), fun h => (by cases h)⟩,
        ⟨fun h => (by cases h), fun h => (by cases h)⟩, fun q' t h => ?_⟩
      cases h
      refine ⟨q.settled_settle text?, rfl, rfl, q.pairsWith text?, rfl, fun thunks' depth' t => ?_⟩
      rw [applyFilter_eq, pairs_eq, filterText_settle, pure_bind, pure_bind, pairsWith_settle,
        settle_settle]
      exact ⟨rfl, rfl⟩

/-- A request whose filter reads a counter. -/
def countingRequest : QueryParams Bool :=
  (empty.setFilter (.tree (between .gt (.text "Id") (.thunk false)))).setParam "$top" "10"

/-- The applied request keeps the number that the counter had, and leaves no record of a call. -/
theorem countingRequest_kept :
    ∃ q', countingRequest.applyFilter (run counting 1) 5 = some (.ok q', 6) ∧
      q'.pairs (run (recorded counting) 1) (6, []) =
        some (.ok [("$filter", "(Id gt 5)"), ("$top", "10")], (6, [])) := by
  obtain ⟨-, -, hkeeps⟩ := applyFilter_keeps_request counting 1 countingRequest 5
  obtain ⟨-, -, -, request, hpairs, hagain⟩ := hkeeps (countingRequest.settle "(Id gt 5)") 6 rfl
  have hrequest : countingRequest.pairs (run counting 1) 5 =
      some (.ok [("$filter", "(Id gt 5)"), ("$top", "10")], 6) := rfl
  rw [hpairs] at hrequest
  cases hrequest
  exact ⟨_, rfl, (hagain (recorded counting) 1 (6, [])).1⟩

end QueryParams

end EntityQuery
