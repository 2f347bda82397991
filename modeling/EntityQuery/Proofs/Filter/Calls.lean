import EntityQuery.Proofs.Filter.Steps

/-!
# When thunks are called

A compilation calls thunks and nothing else has an effect, so what it does can be seen on thunks
that write down their calls (`Predicate.recorded`). Without a fault each thunk that occurs in the
tree is called once, from left to right, and so are the thunks of each tree that a thunk yields,
before what stands behind that thunk (`Invokes`). A fault ends a compilation between two calls:
`Trace` goes through the steps of a tree and stops at the first fault, and since the fault of an
operand as a whole is the first step of its operator, no thunk below is called then.

Proof. `Tracks` says that a computation, run on recorded thunks, does the same and records the calls
of a trace through its steps. Traces are put together as the steps are (`Trace.append`,
`Trace.stop`), so the relation is kept by the traversal, and at a thunk it is the relation between
the compilations of the tree that the thunk yields, one level deeper.
-/

namespace EntityQuery

namespace Predicate

variable {ι σ : Type}

/-- Thunks that also write down the order in which they are called. -/
def recorded (thunks : Thunks ι σ) : Thunks ι (σ × List ι) := fun name s =>
  ((thunks name s.1).1, ((thunks name s.1).2, s.2 ++ [name]))

/-! ## Traces -/

/-- Doing some steps in order, from one state to another, with the calls made: a call is followed by
the steps of the tree that it yields, and the first fault ends it all. -/
inductive Trace (thunks : Thunks ι σ) :
    List (Step ι) → σ → List ι → Option FilterFault → σ → Prop
  | done (s : σ) : Trace thunks [] s [] none s
  | fault (fault : FilterFault) (rest : List (Step ι)) (s : σ) :
    Trace thunks (.fault fault :: rest) s [] (some fault) s
  | call {name : ι} {needed : Option Operator} {rest : List (Step ι)} {s s' : σ} {called : List ι}
      {fault? : Option FilterFault} :
    Trace thunks ((thunks name s).1.steps needed ++ rest) (thunks name s).2 called fault? s' →
      Trace thunks (.call name needed :: rest) s (name :: called) fault? s'

/-- Calling some thunks in order, from one state to another, with all calls made: a call is followed
by those of the thunks that occur in the tree that it yields. -/
inductive Invokes (thunks : Thunks ι σ) : List ι → σ → List ι → σ → Prop
  | done (s : σ) : Invokes thunks [] s [] s
  | call {name : ι} {rest : List ι} {s s' : σ} {called : List ι} :
    Invokes thunks ((thunks name s).1.occurrences ++ rest) (thunks name s).2 called s' →
      Invokes thunks (name :: rest) s (name :: called) s'

section Trace

variable {thunks : Thunks ι σ} {as bs : List (Step ι)} {s t s' : σ} {called later : List ι}

theorem Trace.stop {fault : FilterFault} (h : Trace thunks as s called (some fault) s') :
    Trace thunks (as ++ bs) s called (some fault) s' := by
  generalize hfault : some fault = fault? at h
  induction h with
  | done => cases hfault
  | fault fault rest s =>
    cases hfault
    exact .fault fault (rest ++ bs) s
  | call _ ih =>
    have hrest := ih hfault
    rw [List.append_assoc] at hrest
    exact .call hrest

theorem Trace.append {fault? : Option FilterFault} (h : Trace thunks as s called none t)
    (hrest : Trace thunks bs t later fault? s') :
    Trace thunks (as ++ bs) s (called ++ later) fault? s' := by
  generalize hnone : (none : Option FilterFault) = end? at h
  induction h with
  | done => exact hrest
  | fault => cases hnone
  | call _ ih =>
    have htrace := ih hrest hnone
    rw [List.append_assoc] at htrace
    exact .call htrace

/-- Without a fault every thunk among the steps is called. -/
theorem Trace.invokes (h : Trace thunks as s called none s') :
    Invokes thunks (as.filterMap Step.name?) s called s' := by
  generalize hnone : (none : Option FilterFault) = end? at h
  induction h with
  | done s => exact .done s
  | fault => cases hnone
  | @call name needed rest s s' called fault? _ ih =>
    refine .call ?_
    rw [← filterMap_steps needed, ← List.filterMap_append]
    exact ih hnone

end Trace

/-! ## Compilations -/

/-- The fault that a computation stopped at. -/
def faultOf? {α : Type} : Except FilterFault α → Option FilterFault
  | .ok _ => none
  | .error fault => some fault

/-- A computation does the same on recorded thunks, and records the calls of a trace. -/
def Tracks (thunks : Thunks ι σ) (α : Type) (steps : List (Step ι)) (x : Run σ α)
    (y : Run (σ × List ι) α) : Prop :=
  ∀ s r s', x s = some (r, s') → ∃ called,
    (∀ log, y (s, log) = some (r, (s', log ++ called))) ∧
      Trace thunks steps s called (faultOf? r) s'

theorem parallel_tracks (thunks : Thunks ι σ) : Parallel (Tracks thunks) where
  pure {α} a s r s' h := by
    cases h
    exact ⟨[], fun log => by rw [List.append_nil]; rfl, .done s⟩
  throw {α} fault rest s r s' h := by
    cases h
    exact ⟨[], fun log => by rw [List.append_nil]; rfl, .fault fault rest s⟩
  bind {α β as bs x y k l} hx hk s r s' h := by
    rcases Run.bind_eq_some.mp h with ⟨fault, hfault, rfl⟩ | ⟨a, t, ha, hrest⟩
    · obtain ⟨called, hlog, htrace⟩ := hx s _ s' hfault
      exact ⟨called, fun log => Run.bind_eq_some.mpr (Or.inl ⟨fault, hlog log, rfl⟩), htrace.stop⟩
    · obtain ⟨called, hlog, htrace⟩ := hx s _ t ha
      obtain ⟨later, hlater, htrace'⟩ := hk a t r s' hrest
      refine ⟨called ++ later, fun log => ?_, htrace.append htrace'⟩
      rw [← List.append_assoc]
      exact Run.bind_eq_some.mpr (Or.inr ⟨a, (t, log ++ called), hlog log, hlater _⟩)

theorem related_tracks (thunks : Thunks ι σ) (depth : Nat) (p : Predicate ι) :
    Related (Tracks thunks) (callThunk thunks depth) (callThunk (recorded thunks) depth) p := by
  induction depth generalizing p with
  | zero =>
    refine (parallel_tracks thunks).related (fun name => ⟨?_, ?_⟩) p
    · intro s r s' h
      cases h
    · intro op s r s' h
      rw [render, callThunk_zero_bind] at h
      cases h
  | succ depth ih =>
    refine (parallel_tracks thunks).related (fun name => ⟨?_, ?_⟩) p
    · intro s r s' h
      obtain ⟨called, hlog, htrace⟩ := (ih (thunks name s).1).tree (thunks name s).2 r s' h
      refine ⟨name :: called, fun log => ?_, .call (by rwa [List.append_nil])⟩
      rw [List.append_cons]
      exact hlog (log ++ [name])
    · intro op s r s' h
      rw [render, callThunk_bind] at h
      obtain ⟨called, hlog, htrace⟩ := (ih (thunks name s).1).needed op (thunks name s).2 r s' h
      refine ⟨name :: called, fun log => ?_, .call (by rwa [List.append_nil])⟩
      rw [render, callThunk_bind, List.append_cons]
      exact hlog (log ++ [name])

/-! ## Compilations in a row -/

/-- Compile trees one after the other, each from the state that the one before left, whether or not
that one stopped at a fault. -/
def runAll (thunks : Thunks ι σ) (depth : Nat) :
    List (Predicate ι) → σ → Option (List (Except FilterFault (Option String)) × σ)
  | [], s => some ([], s)
  | p :: ps, s => do
    let (r, t) ← run thunks depth p s
    let (rs, s') ← runAll thunks depth ps t
    return (r :: rs, s')

theorem runAll_cons {thunks : Thunks ι σ} {depth : Nat} {p : Predicate ι} {ps : List (Predicate ι)}
    {s s' : σ} {rs : List (Except FilterFault (Option String))} :
    runAll thunks depth (p :: ps) s = some (rs, s') ↔ ∃ r t rest, run thunks depth p s = some (r, t) ∧
      runAll thunks depth ps t = some (rest, s') ∧ rs = r :: rest := by
  simp only [runAll, bind, pure, Option.bind_eq_some_iff, Option.some.injEq, Prod.mk.injEq]
  constructor
  · rintro ⟨⟨r, t⟩, hrun, ⟨rest, _⟩, hrest, rfl, rfl⟩
    exact ⟨r, t, rest, hrun, hrest, rfl⟩
  · rintro ⟨r, t, rest, hrun, hrest, rfl⟩
    exact ⟨(r, t), hrun, (rest, s'), hrest, rfl, rfl⟩

/-- The calls of compilations in a row: each makes its own, from the state that the one before left.
One that succeeds calls every thunk of its tree, one that fails those in front of the fault. -/
inductive History (thunks : Thunks ι σ) :
    List (Predicate ι) → σ → List (Except FilterFault (Option String)) → List ι → σ → Prop
  | nil (s : σ) : History thunks [] s [] [] s
  | ok {p : Predicate ι} {ps : List (Predicate ι)} {s t s' : σ} {text? : Option String}
      {rs : List (Except FilterFault (Option String))} {called later : List ι} :
    Invokes thunks p.occurrences s called t → History thunks ps t rs later s' →
      History thunks (p :: ps) s (.ok text? :: rs) (called ++ later) s'
  | error {p : Predicate ι} {ps : List (Predicate ι)} {s t s' : σ} {fault : FilterFault}
      {rs : List (Except FilterFault (Option String))} {called later : List ι} :
    Trace thunks (p.steps none) s called (some fault) t → History thunks ps t rs later s' →
      History thunks (p :: ps) s (.error fault :: rs) (called ++ later) s'

/-- **When thunks are called**: compilations in a row do the same on thunks that record their calls,
and the record is that of a history. -/
theorem runAll_history {thunks : Thunks ι σ} {depth : Nat} {ps : List (Predicate ι)} {s s' : σ}
    {rs : List (Except FilterFault (Option String))} (h : runAll thunks depth ps s = some (rs, s')) :
    ∃ called, (∀ log, runAll (recorded thunks) depth ps (s, log) = some (rs, (s', log ++ called))) ∧
      History thunks ps s rs called s' := by
  induction ps generalizing s rs with
  | nil =>
    cases h
    exact ⟨[], fun log => by rw [List.append_nil]; rfl, .nil _⟩
  | cons p ps ih =>
    obtain ⟨r, t, rest, hrun, hrest, rfl⟩ := runAll_cons.mp h
    obtain ⟨called, hlog, htrace⟩ := (related_tracks thunks depth p).tree s r t hrun
    obtain ⟨later, hlater, hhistory⟩ := ih hrest
    refine ⟨called ++ later, fun log => ?_, ?_⟩
    · rw [← List.append_assoc]
      exact runAll_cons.mpr ⟨r, _, rest, hlog log, hlater _, rfl⟩
    · cases r with
      | error fault => exact .error htrace hhistory
      | ok text? =>
        have hinvokes := htrace.invokes
        rw [filterMap_steps] at hinvokes
        exact .ok hinvokes hhistory

/-- Two thunks over a counter. The first yields its number, the second a tree with the first. -/
def counting : Thunks Bool Nat
  | false, n => (.int (.ofNat n), n + 1)
  | true, n => (.operation .not (.thunk false), n + 1)

/-- A tree compiled twice with two others in between: one stops behind its second call, the other
before its first. -/
theorem counting_history :
    let p : Predicate Bool := between .eq (.thunk true) (.thunk false)
    let q : Predicate Bool := apply .and
      [.thunk false, between .eq (.thunk false) .undefined, .thunk true]
    let rs : List (Except FilterFault (Option String)) :=
      [.ok (some "((not 1) eq 2)"), .error (.missingOperand .eq), .error (.operandShape .eq),
        .ok (some "((not 6) eq 7)")]
    runAll counting 2 [p, q, .operation .eq (.thunk true), p] 0 = some (rs, 8) ∧
      History counting [p, q, .operation .eq (.thunk true), p] 0 rs
        [true, false, false, false, false, true, false, false] 8 := by
  intro p q rs
  have h : runAll counting 2 [p, q, .operation .eq (.thunk true), p] 0 = some (rs, 8) := rfl
  obtain ⟨called, hlog, hhistory⟩ := runAll_history h
  have hrecord : runAll (recorded counting) 2 [p, q, .operation .eq (.thunk true), p] (0, []) =
      some (rs, (8, [true, false, false, false, false, true, false, false])) := rfl
  rw [hlog, List.nil_append] at hrecord
  obtain rfl := congrArg Prod.snd (congrArg Prod.snd (Option.some.inj hrecord))
  exact ⟨h, hhistory⟩

end Predicate

end EntityQuery
