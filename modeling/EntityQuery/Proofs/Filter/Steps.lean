import EntityQuery.Proofs.Filter.Faults

/-!
# Compiling trees with thunks, step by step

`Predicate.steps` lists what a walk of a tree meets, from left to right: the thunks, each with the
operator that needs a text from it, and the faults that show before any thunk is called. The list
goes on behind a fault, so every thunk of the tree stands in it once (`filterMap_steps`).

`Parallel R` says that a relation between two computations, indexed by the steps that they take, is
kept by everything the traversal is put together from. Such a relation holds between two
compilations of a tree if it holds between what they do at a thunk (`Parallel.related`), so a fact
about compilation needs to be shown for thunks only; `run_mono` is the first of them.
-/

namespace EntityQuery

/-! ## Runs -/

namespace Run

variable {σ α β : Type}

theorem bind_apply (x : Run σ α) (k : α → Run σ β) (s : σ) :
    (x >>= k) s = (x s).bind fun y =>
      match y with
      | (.ok a, t) => k a t
      | (.error fault, t) => some (.error fault, t) := by
  change (StateT.bind x _) s = _
  unfold StateT.bind
  cases x s with
  | none => rfl
  | some y =>
    obtain ⟨y, t⟩ := y
    cases y <;> rfl

/-- What a run of two computations in a row may give: the first one stops at a fault, or the second
one goes on from the state that the first one left. -/
theorem bind_eq_some {x : Run σ α} {k : α → Run σ β} {s s' : σ} {r : Except FilterFault β} :
    (x >>= k) s = some (r, s') ↔
      (∃ fault, x s = some (.error fault, s') ∧ r = .error fault) ∨
        ∃ a t, x s = some (.ok a, t) ∧ k a t = some (r, s') := by
  rw [bind_apply]
  cases x s with
  | none => simp
  | some y =>
    obtain ⟨y, t⟩ := y
    cases y with
    | error fault =>
      simp only [Option.bind_some, Option.some.injEq, Prod.mk.injEq, reduceCtorEq, false_and,
        exists_false, or_false, Except.error.injEq]
      constructor
      · rintro ⟨rfl, rfl⟩
        exact ⟨fault, ⟨rfl, rfl⟩, rfl⟩
      · rintro ⟨_, ⟨rfl, rfl⟩, rfl⟩
        exact ⟨rfl, rfl⟩
    | ok a =>
      simp only [Option.bind_some, Option.some.injEq, Prod.mk.injEq, reduceCtorEq, false_and,
        exists_false, false_or, Except.ok.injEq]
      constructor
      · intro h
        exact ⟨a, t, ⟨rfl, rfl⟩, h⟩
      · rintro ⟨_, _, ⟨rfl, rfl⟩, h⟩
        exact h

/-- A computation has every outcome of another one. -/
def Refines (x y : Run σ α) : Prop :=
  ∀ s o, x s = some o → y s = some o

theorem Refines.rfl {x : Run σ α} : Refines x x :=
  fun _ _ h => h

theorem Refines.bind {x y : Run σ α} {k l : α → Run σ β} (hx : Refines x y)
    (hk : ∀ a, Refines (k a) (l a)) : Refines (x >>= k) (y >>= l) := by
  rintro s ⟨r, s'⟩ h
  rw [bind_eq_some] at h ⊢
  rcases h with ⟨fault, hfault, hr⟩ | ⟨a, t, ha, hrest⟩
  · exact Or.inl ⟨fault, hx s _ hfault, hr⟩
  · exact Or.inr ⟨a, t, hx s _ ha, hk a t _ hrest⟩

end Run

/-! ## Steps -/

/-- What a walk of a tree meets. -/
inductive Step (ι : Type) where
  /-- A thunk, and the operator that needs a text from it. -/
  | call (name : ι) (needed : Option Operator)
  | fault (fault : FilterFault)

/-- The thunk of a step. -/
def Step.name? {ι : Type} : Step ι → Option ι
  | .call name _ => some name
  | .fault _ => none

namespace Predicate

variable {ι σ τ : Type}

mutual

/-- The steps of a tree from which an operator may need a text. -/
def steps (needed : Option Operator) : Predicate ι → List (Step ι)
  | .undefined => (needed.map fun op => Step.fault (.missingOperand op)).toList
  | .thunk name => [.call name needed]
  | .list items => itemSteps none items
  | .operation op operand =>
    ((operandFault? op operand).map Step.fault).toList ++
      match op.shape, operand with
      | .unary, p => steps (some op) p
      | _, .list items => itemSteps op.needs items
      | _, p => steps none p
  | _ => []

/-- The steps of some trees in a row. -/
def itemSteps (needed : Option Operator) : List (Predicate ι) → List (Step ι)
  | [] => []
  | p :: ps => steps needed p ++ itemSteps needed ps

end

mutual

/-- The thunks that occur in a tree, from left to right. -/
def occurrences : Predicate ι → List ι
  | .thunk name => [name]
  | .list items => itemOccurrences items
  | .operation _ operand => occurrences operand
  | _ => []

/-- The thunks that occur in some trees. -/
def itemOccurrences : List (Predicate ι) → List ι
  | [] => []
  | p :: ps => occurrences p ++ itemOccurrences ps

end

section Shapes

variable {op : Operator}

/-- Whether a text is needed makes no difference to the steps of an operator. -/
theorem steps_operation (needed : Option Operator) (p : Predicate ι) :
    (operation op p).steps needed = (operation op p).steps none := by
  rw [steps.eq_def needed, steps.eq_def none]

theorem steps_unary (h : op.shape = .unary) (needed : Option Operator) (p : Predicate ι) :
    (operation op p).steps needed = p.steps (some op) := by
  simp [steps, operandFault?, h]

theorem steps_of_admits (hunary : op.shape ≠ .unary) {ps : List (Predicate ι)}
    (h : op.shape.admits ps.length = true) (needed : Option Operator) :
    (operation op (list ps)).steps needed = itemSteps op.needs ps := by
  cases hs : op.shape <;> simp_all [steps, operandFault?]

/-- The operands that are left out take no steps. -/
theorem itemSteps_kept (ps : List (Predicate ι)) :
    itemSteps op.needs (kept op ps) = itemSteps op.needs ps := by
  unfold kept
  by_cases hop : op.shape = .variadic
  · rw [if_pos hop, Operator.needs, if_pos hop]
    induction ps with
    | nil => rfl
    | cons p ps ih =>
      by_cases hp : p.isAbsent = true
      · have hnil : p.steps none = [] := by
          cases p <;> simp_all [isAbsent, steps]
        rw [List.filter_cons_of_neg (by simp [hp]), ih, itemSteps, hnil, List.nil_append]
      · rw [List.filter_cons_of_pos (by simp [hp]), itemSteps, itemSteps, ih]
  · rw [if_neg hop]

theorem steps_of_not_admits {ps : List (Predicate ι)} (h : op.shape.admits ps.length = false)
    (needed : Option Operator) :
    (operation op (list ps)).steps needed =
      .fault (.operandArity op ps.length) :: itemSteps op.needs ps := by
  rw [steps.eq_def]
  simp only [operandFault?_of_not_admits h]
  cases hs : op.shape with
  | unary => exact absurd hs (Shape.ne_unary_of_not_admits h)
  | _ => rfl

theorem steps_of_not_list (h : op.shape ≠ .unary) {p : Predicate ι} (hp : ∀ ps, p ≠ .list ps)
    (needed : Option Operator) :
    (operation op p).steps needed = .fault (.operandShape op) :: p.steps none := by
  cases hs : op.shape <;> cases p <;> simp_all [steps, operandFault?]

end Shapes

mutual

/-- **Every thunk of a tree stands in its steps**, once for each of its occurrences and in order. -/
theorem filterMap_steps (needed : Option Operator) :
    ∀ p : Predicate ι, (p.steps needed).filterMap Step.name? = p.occurrences
  | .undefined => by cases needed <;> rfl
  | .null | .text _ | .int _ | .float _ | .bool _ | .date _ | .boxed _ | .thunk _ => rfl
  | .list items => by
    rw [steps, occurrences, filterMap_itemSteps]
  | .operation op operand => by
    have hoperand := fun needed => filterMap_steps needed operand
    by_cases h : op.shape = .unary
    · rw [steps_unary h, hoperand, occurrences]
    · match operand with
      | .list items =>
        have hitems := filterMap_itemSteps op.needs items
        cases hadmits : op.shape.admits items.length with
        | true => rw [steps_of_admits h hadmits, hitems, occurrences, occurrences]
        | false =>
          rw [steps_of_not_admits hadmits, occurrences, occurrences, ← hitems]
          rfl
      | .undefined | .null | .text _ | .int _ | .float _ | .bool _ | .date _ | .boxed _
      | .thunk _ | .operation _ _ =>
        rw [steps_of_not_list h (by simp), occurrences, ← hoperand none]
        rfl

theorem filterMap_itemSteps (needed : Option Operator) :
    ∀ ps : List (Predicate ι), (itemSteps needed ps).filterMap Step.name? = itemOccurrences ps
  | [] => rfl
  | p :: ps => by
    rw [itemSteps, itemOccurrences, List.filterMap_append, filterMap_steps needed p,
      filterMap_itemSteps needed ps]

end

/-! ## Compiling twice -/

/-- A relation between two computations that take the same steps, kept by the ways in which the
traversal puts computations together. -/
structure Parallel (R : (α : Type) → List (Step ι) → Run σ α → Run τ α → Prop) : Prop where
  pure {α : Type} (a : α) : R α [] (pure a) (pure a)
  throw {α : Type} (fault : FilterFault) (rest : List (Step ι)) :
    R α (.fault fault :: rest) (throw fault) (throw fault)
  bind {α β : Type} {as bs : List (Step ι)} {x : Run σ α} {y : Run τ α} {k : α → Run σ β}
    {l : α → Run τ β} : R α as x y → (∀ a, R β bs (k a) (l a)) → R β (as ++ bs) (x >>= k) (y >>= l)

section Related

variable {R : (α : Type) → List (Step ι) → Run σ α → Run τ α → Prop}

theorem Parallel.map (hR : Parallel R) {α β : Type} {as : List (Step ι)} {x : Run σ α}
    {y : Run τ α} (h : R α as x y) (f : α → β) :
    R β as (x >>= fun a => Pure.pure (f a)) (y >>= fun a => Pure.pure (f a)) := by
  have hbind := hR.bind h fun a => hR.pure (f a)
  rwa [List.append_nil] at hbind

variable {call : ι → Run σ (Option String)} {call' : ι → Run τ (Option String)}

/-- The two compilations of a tree are related, also where an operator needs a text from it. -/
structure Related (R : (α : Type) → List (Step ι) → Run σ α → Run τ α → Prop)
    (call : ι → Run σ (Option String)) (call' : ι → Run τ (Option String))
    (p : Predicate ι) : Prop where
  tree : R (Option String) (p.steps none) (render call p) (render call' p)
  needed (op : Operator) : R String (p.steps (some op)) (render call p >>= requireText op)
    (render call' p >>= requireText op)

theorem bind_requireText {x : Run σ (Option String)} {t : Run σ String}
    (h : x = t >>= fun s => Pure.pure (some s)) (op : Operator) :
    x >>= requireText op = t := by
  rw [h, bind_assoc]
  simp only [pure_bind, requireText, bind_pure]

/-- Trees other than thunks and nothing always have a text. -/
theorem Parallel.related_of_text (hR : Parallel R) {p : Predicate ι} {t : Run σ String}
    {t' : Run τ String} (hsteps : ∀ op, p.steps (some op) = p.steps none)
    (h : render call p = t >>= fun s => Pure.pure (some s))
    (h' : render call' p = t' >>= fun s => Pure.pure (some s))
    (ht : R String (p.steps none) t t') : Related R call call' p where
  tree := by
    rw [h, h']
    exact hR.map ht some
  needed op := by
    rw [bind_requireText h, bind_requireText h', hsteps]
    exact ht

/-- The texts that are taken from related trees are related. -/
theorem Related.text (hR : Parallel R) {p : Predicate ι} (h : Related R call call' p) :
    ∀ needed, R String (p.steps needed) (textOf call needed p) (textOf call' needed p)
  | none => hR.map h.tree fun x => x.getD ""
  | some op => h.needed op

section Lists

variable {ps : List (Predicate ι)} (hR : Parallel R) (hps : ∀ p ∈ ps, Related R call call' p)
include hR hps

theorem related_texts (needed : Option Operator) :
    R (List String) (itemSteps needed ps) (ps.mapM (textOf call needed))
      (ps.mapM (textOf call' needed)) := by
  induction ps with
  | nil => exact hR.pure []
  | cons p ps ih =>
    have hrest := ih fun q hq => hps q (by simp [hq])
    rw [List.mapM_cons, List.mapM_cons]
    exact hR.bind ((hps p (by simp)).text hR needed) fun x => hR.map hrest _

theorem related_list : Related R call call' (.list ps) := by
  have hsteps : ∀ needed, (list ps).steps needed = itemSteps none ps := fun needed => by
    rw [steps]
  refine hR.related_of_text (fun op => ?_) ?_ ?_ (hsteps none ▸
    hR.map (related_texts hR hps none) listText)
  · rw [hsteps, hsteps]
  all_goals
    rw [render_list]
    simp only [bind_assoc, pure_bind]

end Lists

/-! ### Operators -/

section Operations

variable {op : Operator} {ps : List (Predicate ι)} (hR : Parallel R)
include hR

theorem related_of_throw {p : Predicate ι} {fault : FilterFault} {rest : List (Step ι)}
    (hsteps : ∀ needed, p.steps needed = .fault fault :: rest)
    (h : render call p = throw fault) (h' : render call' p = throw fault) :
    Related R call call' p where
  tree := by
    rw [hsteps, h, h']
    exact hR.throw fault rest
  needed op := by
    have hthrow : ∀ {υ : Type},
        ((throw fault : Run υ (Option String)) >>= requireText op) = throw fault := rfl
    rw [hsteps, h, h', hthrow, hthrow]
    exact hR.throw fault rest

theorem related_unary (h : op.shape = .unary) {p : Predicate ι} (hp : Related R call call' p) :
    Related R call call' (.operation op p) := by
  refine hR.related_of_text (fun _ => steps_operation _ _) ?_ ?_ ((steps_unary h none p).symm ▸
    hR.map (hp.text hR (some op)) (unaryText op)) <;>
  · rw [render_operand _ h]
    simp only [bind_assoc, pure_bind]

theorem related_operation (h : op.shape ≠ .unary) (hps : ∀ p ∈ ps, Related R call call' p) :
    Related R call call' (.operation op (.list ps)) := by
  cases hadmits : op.shape.admits ps.length with
  | false =>
    exact related_of_throw hR (steps_of_not_admits hadmits) (render_of_not_admits _ hadmits)
      (render_of_not_admits _ hadmits)
  | true =>
    have hkept : ∀ p ∈ kept op ps, Related R call call' p := fun p hp => hps p (mem_of_mem_kept hp)
    have htexts := related_texts hR hkept op.needs
    rw [itemSteps_kept, ← steps_of_admits h hadmits none] at htexts
    refine hR.related_of_text (fun _ => steps_operation _ _) ?_ ?_
      (hR.map htexts (operationText op)) <;>
    · rw [render_operands _ h hadmits]
      simp only [bind_assoc, pure_bind]

end Operations

/-! ### All trees -/

theorem related_leaf (hR : Parallel R) {p : Predicate ι} {s : String}
    (hsteps : ∀ needed, p.steps needed = []) (h : render call p = Pure.pure (some s))
    (h' : render call' p = Pure.pure (some s)) : Related R call call' p := by
  have hrun : render call p = (Pure.pure s : Run σ String) >>= fun s => Pure.pure (some s) := by
    rw [h, pure_bind]
  have hrun' : render call' p = (Pure.pure s : Run τ String) >>= fun s => Pure.pure (some s) := by
    rw [h', pure_bind]
  refine hR.related_of_text (fun op => ?_) hrun hrun' ?_
  · rw [hsteps, hsteps]
  · rw [hsteps]
    exact hR.pure s

mutual

/-- **Two compilations of a tree are related** if what they do at thunks is. -/
theorem Parallel.related (hR : Parallel R) (hcall : ∀ name, Related R call call' (.thunk name)) :
    ∀ p : Predicate ι, Related R call call' p
  | .thunk name => hcall name
  | .undefined => ⟨hR.pure none, fun op => hR.throw (.missingOperand op) []⟩
  | .null | .text _ | .int _ | .float _ | .bool _ | .date _ | .boxed _ =>
    related_leaf hR (fun _ => rfl) rfl rfl
  | .list items => related_list hR (hR.related_all hcall items)
  | .operation op operand => by
    have hoperand := hR.related hcall operand
    by_cases h : op.shape = .unary
    · exact related_unary hR h hoperand
    · match operand with
      | .list items => exact related_operation hR h (hR.related_all hcall items)
      | .undefined | .null | .text _ | .int _ | .float _ | .bool _ | .date _ | .boxed _
      | .thunk _ | .operation _ _ =>
        exact related_of_throw hR (steps_of_not_list h (by simp))
          (render_of_not_list _ h (by simp)) (render_of_not_list _ h (by simp))

theorem Parallel.related_all (hR : Parallel R)
    (hcall : ∀ name, Related R call call' (.thunk name)) :
    ∀ (ps : List (Predicate ι)), ∀ p ∈ ps, Related R call call' p
  | [] => by simp
  | p :: ps => by
    intro q hq
    rcases List.mem_cons.mp hq with hq | hq
    · rw [hq]
      exact hR.related hcall p
    · exact hR.related_all hcall ps q hq

end

end Related

/-! ## Depth -/

theorem callThunk_bind (thunks : Thunks ι σ) (depth : Nat) (name : ι) {α : Type}
    (k : Option String → Run σ α) (s : σ) :
    (callThunk thunks (depth + 1) name >>= k) s =
      (render (callThunk thunks depth) (thunks name s).1 >>= k) (thunks name s).2 := by
  rw [Run.bind_apply, Run.bind_apply]
  rfl

theorem callThunk_zero_bind (thunks : Thunks ι σ) (name : ι) {α : Type}
    (k : Option String → Run σ α) (s : σ) : (callThunk thunks 0 name >>= k) s = none := by
  rw [Run.bind_apply]
  rfl

/-- A computation that has every outcome of another one. -/
def Extends (α : Type) (_ : List (Step ι)) (x y : Run σ α) : Prop :=
  ∀ s o, x s = some o → y s = some o

theorem parallel_extends : Parallel (Extends (ι := ι) (σ := σ)) where
  pure _ _ _ h := h
  throw _ _ _ _ h := h
  bind hx hk := Run.Refines.bind hx hk

theorem related_extends (thunks : Thunks ι σ) (depth : Nat) (p : Predicate ι) :
    Related Extends (callThunk thunks depth) (callThunk thunks (depth + 1)) p := by
  induction depth generalizing p with
  | zero =>
    refine parallel_extends.related (fun name => ⟨?_, ?_⟩) p
    · intro s o h
      cases h
    · intro op s o h
      rw [render, callThunk_zero_bind] at h
      cases h
  | succ depth ih =>
    refine parallel_extends.related (fun name => ⟨?_, ?_⟩) p
    · intro s o h
      exact (ih (thunks name s).1).tree (thunks name s).2 o h
    · intro op s o h
      rw [render, callThunk_bind] at h ⊢
      exact (ih (thunks name s).1).needed op (thunks name s).2 o h

/-- **An outcome does not depend on the depth** that is allowed for thunks. -/
theorem run_mono {thunks : Thunks ι σ} {depth depth' : Nat} (hdepth : depth ≤ depth')
    {p : Predicate ι} {s : σ} {o : Except FilterFault (Option String) × σ}
    (h : run thunks depth p s = some o) : run thunks depth' p s = some o := by
  induction hdepth with
  | refl => exact h
  | step _ ih => exact (related_extends thunks _ p).tree s o ih

end Predicate

end EntityQuery
