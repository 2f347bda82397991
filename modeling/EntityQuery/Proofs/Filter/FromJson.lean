import EntityQuery.Proofs.Filter.Faults
import EntityQuery.Proofs.Filter.Grammar

/-!
# Reading filters from JSON

A JSON document is a filter when each of its objects, at any depth, has one member that is named
like an operator. `Json.objects` lists the objects of a document, each before those inside it, and
`offence?` says what is wrong with one of them.

Proof. Reading stops at the first offence of the document and gives a tree in which nothing is
undefined when there is none (`ofJson_eq_outcome`), by induction on the document. Such a tree
compiles to a text unless it has a fault, and no operand is missing in it, so compilation adds the
faults of the tree behind the offences of the document (`compileJson_eq_outcome`).
-/

namespace EntityQuery

/-! ## Objects of a document -/

namespace Json

mutual

/-- The objects of a document in the order in which they open. -/
def objects : Json → List (List (String × Json))
  | .array items => itemObjects items
  | .object members => members :: memberObjects members
  | _ => []

/-- The objects in the items of an array. -/
def itemObjects : List Json → List (List (String × Json))
  | [] => []
  | j :: js => objects j ++ itemObjects js

/-- The objects in the members of an object. -/
def memberObjects : List (String × Json) → List (List (String × Json))
  | [] => []
  | (_, j) :: ms => objects j ++ memberObjects ms

end

end Json

namespace Predicate

/-- What is wrong with an object as an operation: it must have one member, named like an
operator. -/
def offence? : List (String × Json) → Option FilterFault
  | [(name, _)] =>
    if name ∈ Operator.all.map Operator.name then none else some (.unknownOperator name)
  | members => some (.malformed members.length)

/-- The offences of a document, in the order of its objects. -/
def offences (j : Json) : List FilterFault :=
  j.objects.filterMap offence?

theorem offence?_eq_none {members : List (String × Json)} :
    offence? members = none ↔ ∃ (op : Operator) (operand : Json), members = [(op.name, operand)] := by
  constructor
  · intro h
    match members, h with
    | [(name, operand)], h =>
      by_cases hname : name ∈ Operator.all.map Operator.name
      · obtain ⟨op, -, rfl⟩ := List.mem_map.mp hname
        exact ⟨op, operand, rfl⟩
      · rw [offence?, if_neg hname] at h
        cases h
  · rintro ⟨op, operand, rfl⟩
    exact if_pos (List.mem_map_of_mem op.mem_all)

theorem offence?_ne_missing (members : List (String × Json)) (op : Operator) :
    offence? members ≠ some (.missingOperand op) := by
  intro h
  unfold offence? at h
  split at h
  · split at h <;> cases h
  · cases h

theorem missing_notMem_offences (j : Json) (op : Operator) : .missingOperand op ∉ offences j := by
  intro h
  obtain ⟨members, -, hmembers⟩ := List.mem_filterMap.mp h
  exact offence?_ne_missing members op hmembers

/-! ## Trees without undefined parts -/

section Defined

variable {ι : Type}

/-- The trees in which nothing is undefined, nor may come out undefined as a thunk may. -/
inductive Defined : Predicate ι → Prop
  | null : Defined .null
  | text (s : String) : Defined (.text s)
  | int (n : Int64) : Defined (.int n)
  | float (x : Binary64) : Defined (.float x)
  | bool (b : Bool) : Defined (.bool b)
  | date (t : Instant) : Defined (.date t)
  | boxed (b : AnyBox) : Defined (.boxed b)
  | list {ps : List (Predicate ι)} : (∀ p ∈ ps, Defined p) → Defined (.list ps)
  | operation (op : Operator) {p : Predicate ι} : Defined p → Defined (.operation op p)

theorem Defined.ne_undefined {p : Predicate ι} (h : p.Defined) : p ≠ .undefined := by
  rintro rfl
  cases h

end Defined

theorem text?_ne_none {p : Predicate Empty} (h : p ≠ .undefined) : p.text? ≠ none := by
  rw [text?_of_ne_undefined h]
  exact Option.some_ne_none _

theorem operandFaults_eq_itemFaults (op : Operator) {ps : List (Predicate Empty)}
    (h : ∀ p ∈ ps, p ≠ .undefined) : operandFaults op ps = itemFaults ps := by
  induction ps with
  | nil => rfl
  | cons p ps ih =>
    have hp : missing? op p = none := missing?_eq_none.mpr (h p (by simp))
    rw [operandFaults, itemFaults, hp, ih fun q hq => h q (by simp [hq])]
    rfl

theorem operandFault?_ne_missing (op op' : Operator) (p : Predicate Empty) :
    operandFault? op p ≠ some (.missingOperand op') := by
  intro h
  unfold operandFault? at h
  split at h
  · cases h
  · split at h
    · split at h <;> cases h
    · cases h

/-- No operand is missing where nothing is undefined: an operator adds a fault of its own at most
to those of its operand. -/
theorem Defined.missing_notMem_faults {p : Predicate Empty} (h : p.Defined) (op : Operator) :
    .missingOperand op ∉ p.faults := by
  induction h with
  | null | text | int | float | bool | date | boxed => simp [faults]
  | @list ps _ ih =>
    intro hmem
    rw [faults, mem_itemFaults] at hmem
    obtain ⟨p, hp, hfault⟩ := hmem
    exact ih p hp hfault
  | @operation op' p hp ih =>
    intro hmem
    rw [faults.eq_def] at hmem
    rcases List.mem_append.mp hmem with hmem | hmem
    · exact operandFault?_ne_missing op' op p (Option.mem_toList.mp hmem)
    · have hnone : missing? op' p = none := missing?_eq_none.mpr hp.ne_undefined
      split at hmem
      · rw [hnone] at hmem
        exact ih hmem
      · rw [faults] at ih
        exact ih hmem
      · cases hp with
        | list hps =>
          rw [operandFaults_eq_itemFaults op' fun q hq => (hps q hq).ne_undefined] at hmem
          rw [faults] at ih
          exact ih hmem
      · cases hmem

/-! ## Reading -/

theorem parse_name (op : Operator) : Operator.parse op.name = .ok op := by
  rw [Operator.parse, Operator.ofName?_name]

theorem parse_of_notMem {name : String} (h : name ∉ Operator.all.map Operator.name) :
    Operator.parse name = .error (.unknownOperator name) := by
  have hnone : Operator.ofName? name = none := by
    refine List.find?_eq_none.mpr fun op hop hname => h ?_
    exact List.mem_map.mpr ⟨op, hop, beq_iff_eq.mp hname⟩
  rw [Operator.parse, hnone]

section Reading

variable {ι : Type}

theorem ofJsonMembers_name (op : Operator) (operand : Json) :
    (ofJsonMembers [(op.name, operand)] : Except FilterFault (Predicate ι)) =
      ofJson operand >>= fun p => pure (.operation op p) := by
  rw [ofJsonMembers, parse_name]
  rfl

/-- An object that offends is refused before its members are read. -/
theorem ofJsonMembers_of_offence {members : List (String × Json)} {fault : FilterFault}
    (h : offence? members = some fault) :
    (ofJsonMembers members : Except FilterFault (Predicate ι)) = .error fault := by
  match members, h with
  | [], h => rw [← Option.some.inj h]; rfl
  | [(name, operand)], h =>
    by_cases hname : name ∈ Operator.all.map Operator.name
    · rw [offence?, if_pos hname] at h
      cases h
    · rw [offence?, if_neg hname] at h
      rw [ofJsonMembers, parse_of_notMem hname, ← Option.some.inj h]
      rfl
  | (name, operand) :: m :: rest, h => rw [← Option.some.inj h]; rfl

/-- Reading gives a tree without undefined parts unless some of the offences stop it. -/
def Reads (ι : Type) (j : Json) : Prop :=
  ∃ p : Predicate ι, p.Defined ∧ ofJson j = outcome (offences j) p

theorem reads_object {members : List (String × Json)}
    (h : ∀ m ∈ members, Reads ι m.2) : Reads ι (.object members) := by
  cases hoffence : offence? members with
  | some fault =>
    refine ⟨.null, .null, ?_⟩
    rw [ofJson, ofJsonMembers_of_offence hoffence, offences, Json.objects,
      List.filterMap_cons_some hoffence]
    rfl
  | none =>
    obtain ⟨op, operand, rfl⟩ := offence?_eq_none.mp hoffence
    obtain ⟨p, hp, hread⟩ := h (op.name, operand) (by simp)
    refine ⟨.operation op p, .operation op hp, ?_⟩
    have hobjects : offences (.object [(op.name, operand)]) = offences operand := by
      simp [offences, Json.objects, Json.memberObjects, List.filterMap_cons_none hoffence]
    rw [ofJson, ofJsonMembers_name, hread, outcome_bind_pure, hobjects]

mutual

theorem reads : ∀ j : Json, Reads ι j
  | .null => ⟨.null, .null, rfl⟩
  | .bool b => ⟨.bool b, .bool b, rfl⟩
  | .int n => by
    cases hn : n.toInt64? with
    | some i => exact ⟨.int i, .int i, by rw [ofJson, hn]; rfl⟩
    | none => exact ⟨.float (.ofInt n.val), .float _, by rw [ofJson, hn]; rfl⟩
  | .float x => ⟨.float (.finite x), .float _, rfl⟩
  | .text s => ⟨.text s, .text s, rfl⟩
  | .array items => by
    obtain ⟨ps, hps, hread⟩ := reads_items items
    refine ⟨.list ps, .list hps, ?_⟩
    rw [ofJson, hread, offences, Json.objects]
    exact outcome_bind_pure _ _ _
  | .object members => reads_object (reads_members members)

theorem reads_items : ∀ js : List Json, ∃ ps : List (Predicate ι), (∀ p ∈ ps, p.Defined) ∧
    ofJsonItems js = outcome ((Json.itemObjects js).filterMap offence?) ps
  | [] => ⟨[], by simp, rfl⟩
  | j :: js => by
    obtain ⟨p, hp, hread⟩ := reads j
    obtain ⟨ps, hps, hreads⟩ := reads_items js
    refine ⟨p :: ps, List.forall_mem_cons.mpr ⟨hp, hps⟩, ?_⟩
    rw [ofJsonItems, hread, hreads, Json.itemObjects, List.filterMap_append]
    exact outcome_bind _ _ _ _ (outcome_bind_pure _ _ _)

theorem reads_members : ∀ (ms : List (String × Json)), ∀ m ∈ ms, Reads ι m.2
  | [] => by simp
  | (_, j) :: ms => List.forall_mem_cons.mpr ⟨reads j, reads_members ms⟩

end

theorem ofJson_eq_outcome (ι : Type) (j : Json) :
    ∃ p : Predicate ι, p.Defined ∧ ofJson j = outcome (offences j) p :=
  reads j

end Reading

/-- Compilation meets the faults of the tree behind the offences of its document. -/
theorem compileJson_eq_outcome (j : Json) :
    ∃ p : Predicate Empty, p.Defined ∧ compileJson j = outcome (offences j ++ p.faults) p.text? := by
  obtain ⟨p, hp, hread⟩ := ofJson_eq_outcome Empty j
  refine ⟨p, hp, ?_⟩
  rw [compileJson, hread]
  exact outcome_bind _ _ _ _ (compile_eq p)

/-- **Which JSON documents are filters**: those whose objects all have one member that is named like
an operator. Of the others the first object in the order of the document that is none of these is
reported, by reading and by compilation. Compilation always gives a text or a fault, and never finds
an operand missing. -/
theorem ofJson_first_offence (ι : Type) (j : Json) :
    ((∃ p : Predicate ι, ofJson j = .ok p) ↔
        ∀ members ∈ j.objects, ∃ (op : Operator) (operand : Json), members = [(op.name, operand)]) ∧
      (∀ fault, (ofJson j : Except FilterFault (Predicate ι)) = .error fault ↔
        j.objects.findSome? offence? = some fault) ∧
      (∀ fault, j.objects.findSome? offence? = some fault → compileJson j = .error fault) ∧
      compileJson j ≠ .ok none ∧ ∀ op, compileJson j ≠ .error (.missingOperand op) := by
  obtain ⟨p, -, hread⟩ := ofJson_eq_outcome ι j
  obtain ⟨q, hq, hcompile⟩ := compileJson_eq_outcome j
  have hhead : (offences j).head? = j.objects.findSome? offence? := List.head?_filterMap
  refine ⟨?_, ?_, ?_, ?_, ?_⟩
  · have hnil : offences j = [] ↔ ∀ members ∈ j.objects, offence? members = none :=
      List.filterMap_eq_nil_iff
    simp only [offence?_eq_none] at hnil
    rw [hread, ← hnil]
    simp [outcome_eq_ok]
  · intro fault
    rw [hread, outcome_eq_error, hhead]
  · intro fault hfault
    rw [hcompile, outcome_eq_error, List.head?_append, hhead, hfault]
    rfl
  · intro h
    rw [hcompile, outcome_eq_ok] at h
    exact text?_ne_none hq.ne_undefined h.2
  · intro op h
    rw [hcompile, outcome_eq_error] at h
    rcases List.mem_append.mp (List.mem_of_head? h) with hmem | hmem
    · exact missing_notMem_offences j op hmem
    · exact hq.missing_notMem_faults op hmem

-- the number of operands is wrong too, and a later object has no member
example : compileJson (.object [("eq",
    .array [.null, .object [("equals", .object [])], .object []])]) =
      .error (.unknownOperator "equals") := by
  rfl

end Predicate

end EntityQuery
