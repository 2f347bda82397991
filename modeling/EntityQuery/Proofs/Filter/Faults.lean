import EntityQuery.Proofs.Filter.Outline
import EntityQuery.Proofs.Filter.Render

/-!
# The faults of a filter tree

`Predicate.faults` lists every fault of a tree, in the order in which a walk from the root meets
them: the fault of an operand as a whole comes before those of the operands in it, and these come
from left to right. Compilation reports the first of them, and gives the text of the pruned tree
when there is none (`compile_eq`).

Proof. `outcome faults a` is what a computation gives that stops at the first of some faults, and
computations in a row meet the faults of each before those of the next (`outcome_bind`,
`outcome_mapM`). `Agrees p` says that the traversal of `p` has the outcome of its faults. A text that
is taken from such a tree has the faults of `faultsFor` in its way, so a row of operands that an
operator takes has those of each, and every tree agrees by induction.
-/

namespace EntityQuery

namespace Predicate

/-! ## The walk -/

/-- The fault of an operand as a whole: unless its operator is unary it must be a list, of a length
that the operator takes. -/
def operandFault? {ι : Type} (op : Operator) (operand : Predicate ι) : Option FilterFault :=
  if op.shape = .unary then none
  else
    match operand with
    | .list items =>
      if op.shape.admits items.length then none else some (.operandArity op items.length)
    | _ => some (.operandShape op)

/-- The fault of an operand that is nothing where something must stand. -/
def missing? {ι : Type} (op : Operator) : Predicate ι → Option FilterFault
  | .undefined => some (.missingOperand op)
  | _ => none

mutual

/-- The faults of a tree in the order of the walk. -/
def faults : Predicate Empty → List FilterFault
  | .list items => itemFaults items
  | .operation op operand =>
    (operandFault? op operand).toList ++
      match op.shape, operand with
      | .unary, p => (missing? op p).toList ++ faults p
      | .variadic, .list items => itemFaults items
      | _, .list items => operandFaults op items
      | _, _ => []
  | _ => []

/-- The faults inside items that may be nothing: those of a list, or of a variadic operator. -/
def itemFaults : List (Predicate Empty) → List FilterFault
  | [] => []
  | p :: ps => faults p ++ itemFaults ps

/-- The faults of operands that must not be nothing. -/
def operandFaults (op : Operator) : List (Predicate Empty) → List FilterFault
  | [] => []
  | p :: ps => (missing? op p).toList ++ faults p ++ operandFaults op ps

end

/-- The text of a tree; nothing has none. -/
def text? (p : Predicate Empty) : Option String :=
  match p with
  | .undefined => none
  | _ => some p.pruned.outline.text

theorem getD_text? (p : Predicate Empty) : p.text?.getD "" = p.pruned.outline.text := by
  cases p <;> rfl

theorem text?_of_ne_undefined {p : Predicate Empty} (h : p ≠ .undefined) :
    p.text? = some p.pruned.outline.text := by
  cases p with
  | undefined => exact absurd rfl h
  | _ => rfl

theorem missing?_eq_none {op : Operator} {p : Predicate Empty} :
    missing? op p = none ↔ p ≠ .undefined := by
  cases p <;> simp [missing?]

theorem faults_of_isAbsent {p : Predicate Empty} (h : p.isAbsent = true) : p.faults = [] := by
  cases p with
  | undefined | null => rfl
  | _ => simp [isAbsent] at h

/-! ### Operators, by shape -/

theorem operandFault?_of_not_admits {ι : Type} {op : Operator} {ps : List (Predicate ι)}
    (h : op.shape.admits ps.length = false) :
    operandFault? op (list ps) = some (.operandArity op ps.length) := by
  rw [operandFault?, if_neg (Shape.ne_unary_of_not_admits h), h, if_neg Bool.false_ne_true]

section Shapes

variable {op : Operator} {ps : List (Predicate Empty)}

theorem faults_unary (h : op.shape = .unary) (p : Predicate Empty) :
    (operation op p).faults = (missing? op p).toList ++ p.faults := by
  simp [faults, operandFault?, h]

theorem faults_of_not_list (h : op.shape ≠ .unary) {p : Predicate Empty}
    (hp : ∀ ps, p ≠ .list ps) : (operation op p).faults = [.operandShape op] := by
  cases hs : op.shape <;> cases p <;> simp_all [faults, operandFault?]

theorem faults_of_not_admits (h : op.shape.admits ps.length = false) :
    ∃ rest, (operation op (list ps)).faults = .operandArity op ps.length :: rest := by
  rw [faults.eq_def]
  simp only [operandFault?_of_not_admits h]
  exact ⟨_, rfl⟩

theorem faults_variadic (h : op.shape = .variadic) :
    (operation op (list ps)).faults = itemFaults ps := by
  simp [faults, operandFault?, h, Shape.admits]

theorem faults_operands (hunary : op.shape ≠ .unary) (hvariadic : op.shape ≠ .variadic)
    (h : op.shape.admits ps.length = true) :
    (operation op (list ps)).faults = operandFaults op ps := by
  cases hs : op.shape <;> simp_all [faults, operandFault?]

end Shapes

/-! ## Outcomes -/

/-- What a computation gives that stops at the first of some faults. -/
def outcome {α : Type} (faults : List FilterFault) (a : α) : Except FilterFault α :=
  match faults with
  | [] => .ok a
  | fault :: _ => .error fault

theorem outcome_eq_ok {α : Type} {fs : List FilterFault} {a b : α} :
    outcome fs a = .ok b ↔ fs = [] ∧ a = b := by
  cases fs <;> simp [outcome]

theorem outcome_eq_error {α : Type} {fs : List FilterFault} {a : α} {fault : FilterFault} :
    outcome fs a = .error fault ↔ fs.head? = some fault := by
  cases fs <;> simp [outcome]

/-- Of two computations in a row, the faults of the second stand behind those of the first. -/
theorem outcome_bind {α β : Type} (fs gs : List FilterFault) (a : α) (b : β)
    {k : α → Except FilterFault β} (h : k a = outcome gs b) :
    outcome fs a >>= k = outcome (fs ++ gs) b := by
  cases fs with
  | nil => exact h
  | cons f fs => rfl

theorem outcome_bind_pure {α β : Type} (fs : List FilterFault) (a : α) (f : α → β) :
    (outcome fs a >>= fun x => pure (f x)) = outcome fs (f a) := by
  cases fs <;> rfl

/-- Computations in a row meet the faults of each in front of those of the next. -/
theorem outcome_mapM {α β : Type} {f : α → Except FilterFault β} {fs : α → List FilterFault}
    {g : α → β} {xs : List α} (h : ∀ x ∈ xs, f x = outcome (fs x) (g x)) :
    xs.mapM f = outcome (xs.flatMap fs) (xs.map g) := by
  induction xs with
  | nil => rfl
  | cons x xs ih =>
    rw [List.mapM_cons, h x (by simp), ih fun y hy => h y (by simp [hy])]
    refine outcome_bind _ _ _ _ ?_
    rw [outcome_bind_pure]
    rfl

/-- The traversal of a tree stops at the first of its faults. -/
def Agrees (p : Predicate Empty) : Prop :=
  (render Empty.elim p : Except FilterFault (Option String)) = outcome p.faults p.text?

/-! ### Operands -/

/-- The faults that are met where a text is taken from a tree: an operand that must not be nothing
is found missing before the faults inside it, of which it has none then. -/
def faultsFor (needed : Option Operator) (p : Predicate Empty) : List FilterFault :=
  (needed.bind fun op => missing? op p).toList ++ p.faults

theorem itemFaults_eq_flatMap (ps : List (Predicate Empty)) :
    itemFaults ps = ps.flatMap (faultsFor none) := by
  induction ps with
  | nil => rfl
  | cons p ps ih =>
    rw [itemFaults, List.flatMap_cons, ih]
    rfl

theorem operandFaults_eq_flatMap (op : Operator) (ps : List (Predicate Empty)) :
    operandFaults op ps = ps.flatMap (faultsFor (some op)) := by
  induction ps with
  | nil => rfl
  | cons p ps ih =>
    rw [operandFaults, List.flatMap_cons, ih]
    rfl

theorem Agrees.textOf {p : Predicate Empty} (h : Agrees p) (needed : Option Operator) :
    (Predicate.textOf Empty.elim needed p : Except FilterFault String) =
      outcome (faultsFor needed p) p.pruned.outline.text := by
  rw [Predicate.textOf, h]
  cases needed with
  | none =>
    change (outcome p.faults p.text? >>= fun x => pure (x.getD "")) = _
    rw [outcome_bind_pure, getD_text?]
    rfl
  | some op =>
    by_cases hp : p = .undefined
    · rw [hp]
      rfl
    · have hfaults : faultsFor (some op) p = p.faults := by
        rw [faultsFor, Option.bind_some, missing?_eq_none.mpr hp]
        rfl
      rw [hfaults, text?_of_ne_undefined hp]
      cases p.faults <;> rfl

section Operations

variable {op : Operator} {ps : List (Predicate Empty)}

/-- The operands that are left out have no faults. -/
theorem flatMap_faultsFor_kept (ps : List (Predicate Empty)) :
    (kept op ps).flatMap (faultsFor op.needs) = ps.flatMap (faultsFor op.needs) := by
  unfold kept
  by_cases hop : op.shape = .variadic
  · rw [if_pos hop, Operator.needs, if_pos hop]
    induction ps with
    | nil => rfl
    | cons p ps ih =>
      by_cases hp : p.isAbsent = true
      · have hnil : faultsFor none p = [] := faults_of_isAbsent hp
        rw [List.filter_cons_of_neg (by simp [hp]), ih, List.flatMap_cons, hnil, List.nil_append]
      · rw [List.filter_cons_of_pos (by simp [hp]), List.flatMap_cons, List.flatMap_cons, ih]
  · rw [if_neg hop]

theorem faults_operation (hunary : op.shape ≠ .unary) (hadmits : op.shape.admits ps.length = true) :
    (operation op (list ps)).faults = ps.flatMap (faultsFor op.needs) := by
  by_cases hop : op.shape = .variadic
  · rw [faults_variadic hop, itemFaults_eq_flatMap, Operator.needs, if_pos hop]
  · rw [faults_operands hunary hop hadmits, operandFaults_eq_flatMap, Operator.needs, if_neg hop]

theorem admits_kept (h : op.shape.admits ps.length = true) :
    op.shape.admits (kept op ps).length = true := by
  unfold kept
  split
  · rename_i hop
    rw [hop]
    rfl
  · exact h

theorem pruned_operands (ps : List (Predicate Empty)) :
    (operation op (list ps)).pruned = operation op (list ((kept op ps).map pruned)) := by
  unfold kept
  split
  · rename_i hop
    exact pruned_variadic hop ps
  · rename_i hop
    rw [pruned_operation hop, pruned_list]

theorem text_operands (hunary : op.shape ≠ .unary) {xs : List Outline}
    (hadmits : op.shape.admits xs.length = true) :
    (Outline.operation op (.list xs)).text = operationText op (xs.map Outline.text) := by
  rcases Shape.operands_cases hunary xs with hnot | ⟨hs, x, y, rfl⟩ | hs | ⟨hs, x, y, rest, rfl⟩ | hs
  · rw [hnot] at hadmits
    cases hadmits
  · rw [Outline.text_binary hs]
    exact (operationText_binary hs _ _).symm
  · rw [Outline.text_variadic hs, operationText_variadic hs]
  · rw [Outline.text_collection hs]
    exact (operationText_collection hs _ _).symm
  · rw [Outline.text_function hs, operationText_function hs]

theorem agrees_of_not_list (h : op.shape ≠ .unary) {p : Predicate Empty}
    (hp : ∀ ps, p ≠ .list ps) : Agrees (.operation op p) := by
  rw [Agrees, faults_of_not_list h hp, render_of_not_list _ h hp]
  rfl

theorem agrees_of_not_admits (h : op.shape.admits ps.length = false) :
    Agrees (.operation op (.list ps)) := by
  obtain ⟨rest, hfaults⟩ := faults_of_not_admits h
  rw [Agrees, render_of_not_admits _ h, hfaults]
  rfl

theorem agrees_unary (h : op.shape = .unary) {p : Predicate Empty} (hp : Agrees p) :
    Agrees (.operation op p) := by
  have htext : (operation op p).text? = some (unaryText op p.pruned.outline.text) := by
    simp [text?, pruned_operation, outline, Outline.text_unary, h]
  rw [Agrees, render_operand _ h, hp.textOf, outcome_bind_pure, faults_unary h, htext]
  rfl

theorem agrees_list (hps : ∀ p ∈ ps, Agrees p) : Agrees (.list ps) := by
  have htext : (list ps).text? = some (listText (ps.map fun p => p.pruned.outline.text)) := by
    simp [text?, Function.comp_def]
  rw [Agrees, render_list, outcome_mapM fun p hp => (hps p hp).textOf none, outcome_bind_pure,
    faults, itemFaults_eq_flatMap, htext]

theorem agrees_operands (h : op.shape ≠ .unary) (hps : ∀ p ∈ ps, Agrees p) :
    Agrees (.operation op (.list ps)) := by
  cases hadmits : op.shape.admits ps.length with
  | false => exact agrees_of_not_admits hadmits
  | true =>
    have hkept : op.shape.admits ((kept op ps).map fun p => p.pruned.outline).length = true := by
      rw [List.length_map]
      exact admits_kept hadmits
    have htext : (operation op (list ps)).text? =
        some (operationText op ((kept op ps).map fun p => p.pruned.outline.text)) := by
      rw [text?, pruned_operands, outline, outline_list, List.map_map, Function.comp_def,
        text_operands h hkept, List.map_map, Function.comp_def]
      simp
    rw [Agrees, render_operands _ h hadmits,
      outcome_mapM fun p hp => (hps p (mem_of_mem_kept hp)).textOf op.needs, outcome_bind_pure,
      flatMap_faultsFor_kept, faults_operation h hadmits, htext]

end Operations

/-! ### All trees -/

mutual

theorem agrees : ∀ p : Predicate Empty, Agrees p
  | .undefined | .null | .text _ | .int _ | .float _ | .bool _ | .date _ | .boxed _ => rfl
  | .list items => agrees_list (agrees_items items)
  | .operation op operand => by
    have hoperand := agrees operand
    by_cases h : op.shape = .unary
    · exact agrees_unary h hoperand
    · match operand with
      | .list items => exact agrees_operands h (agrees_items items)
      | .undefined | .null | .text _ | .int _ | .float _ | .bool _ | .date _ | .boxed _
      | .operation _ _ => exact agrees_of_not_list h (by simp)

theorem agrees_items : ∀ (ps : List (Predicate Empty)), ∀ p ∈ ps, Agrees p
  | [] => by simp
  | p :: ps => by
    intro q hq
    rcases List.mem_cons.mp hq with hq | hq
    · rw [hq]
      exact agrees p
    · exact agrees_items ps q hq

end

/-- Compilation stops at the first fault of a tree, and gives its text when it has none. -/
theorem compile_eq (p : Predicate Empty) : p.compile = outcome p.faults p.text? :=
  agrees p

/-! ## Trees without faults -/

section Faultless

variable {op : Operator} {p : Predicate Empty} {ps : List (Predicate Empty)}

theorem mem_itemFaults {fault : FilterFault} :
    fault ∈ itemFaults ps ↔ ∃ p ∈ ps, fault ∈ p.faults := by
  induction ps with
  | nil => simp [itemFaults]
  | cons p ps ih => simp [itemFaults, ih]

theorem faults_of_mem (h : itemFaults ps = []) (hp : p ∈ ps) : p.faults = [] := by
  refine List.eq_nil_iff_forall_not_mem.mpr fun fault hfault => ?_
  have hmem : fault ∈ itemFaults ps := mem_itemFaults.mpr ⟨p, hp, hfault⟩
  rw [h] at hmem
  cases hmem

theorem itemFaults_of_operandFaults (h : operandFaults op ps = []) : itemFaults ps = [] := by
  induction ps with
  | nil => rfl
  | cons p ps ih =>
    rw [operandFaults, List.append_eq_nil_iff, List.append_eq_nil_iff] at h
    obtain ⟨⟨-, hfaults⟩, hrest⟩ := h
    rw [itemFaults, hfaults, ih hrest]
    rfl

theorem operands_of_faults_eq_nil (hunary : op.shape ≠ .unary) (hvariadic : op.shape ≠ .variadic)
    (h : (operation op p).faults = []) :
    ∃ ps, p = .list ps ∧ op.shape.admits ps.length = true ∧ itemFaults ps = [] := by
  by_cases hp : ∃ ps, p = .list ps
  · obtain ⟨ps, rfl⟩ := hp
    cases hadmits : op.shape.admits ps.length with
    | false =>
      obtain ⟨rest, hfaults⟩ := faults_of_not_admits hadmits
      rw [hfaults] at h
      cases h
    | true =>
      rw [faults_operands hunary hvariadic hadmits] at h
      exact ⟨ps, rfl, hadmits, itemFaults_of_operandFaults h⟩
  · rw [faults_of_not_list hunary fun ps hps => hp ⟨ps, hps⟩] at h
    cases h

end Faultless

theorem text_of_compile {s : String} {p : Predicate Empty} (h : p.compile = .ok (some s)) :
    p ≠ .undefined ∧ p.faults = [] ∧ p.pruned.outline.text = s := by
  rw [compile_eq] at h
  cases hfaults : p.faults with
  | cons fault rest =>
    rw [hfaults] at h
    cases h
  | nil =>
    rw [hfaults] at h
    have htext : p.text? = some s := Except.ok.inj h
    refine ⟨?_, rfl, ?_⟩
    · rintro rfl
      cases htext
    · rw [← getD_text?, htext]
      rfl

/-- **What compilation accepts and which fault it reports**: nothing for nothing, a text exactly for
the other trees without faults, and otherwise the first fault of the walk. -/
theorem compile_first_fault (p : Predicate Empty) :
    (p.compile = .ok none ↔ p = .undefined) ∧
      ((∃ text, p.compile = .ok (some text)) ↔ p ≠ .undefined ∧ p.faults = []) ∧
      ∀ fault, p.compile = .error fault ↔ p.faults.head? = some fault := by
  rw [compile_eq]
  cases hfaults : p.faults with
  | nil =>
    refine ⟨?_, ?_, ?_⟩
    · cases p <;> simp [outcome, text?]
    · cases p <;> simp [outcome, text?]
    · simp [outcome]
  | cons fault rest =>
    have hp : p ≠ .undefined := by
      rintro rfl
      cases hfaults
    simp [outcome, hp]

-- a fault inside the left operand is met before the right one is seen to be missing
example : (between .eq (.operation .not .undefined) .undefined).compile =
    .error (.missingOperand .not) := by
  rfl

end Predicate

end EntityQuery
