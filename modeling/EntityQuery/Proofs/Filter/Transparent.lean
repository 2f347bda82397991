import EntityQuery.Proofs.Filter.Context
import EntityQuery.Proofs.Filter.Steps

/-!
# Constant thunks

A thunk that always yields the same tree may stand for that tree. Compilation sees the difference in
two places only, where it looks at an operand before it compiles it: an operator that is not unary
wants a list and never calls a thunk to see whether it yields one, and a variadic operator leaves
out null and nothing, but not a thunk that yields them.

Proof. One compilation refines another one if the other has all its outcomes. A tree in a context is
refined by another tree there if it is so by itself and compilation sees no difference
(`refines_fill`), by induction on the context: the traversal takes a text from each operand in a
row, so it is enough to look at the one with the hole. A thunk is refined by its tree, and the tree
by the thunk one level deeper.
-/

namespace EntityQuery

open Run

namespace Predicate

variable {ι σ : Type}

/-! ## Refinement in a context -/

section Lists

variable {α β : Type} {f g : α → Run σ β}

theorem refines_mapM (h : ∀ a, Refines (f a) (g a)) (xs : List α) :
    Refines (xs.mapM f) (xs.mapM g) := by
  induction xs with
  | nil => exact .rfl
  | cons x xs ih =>
    rw [List.mapM_cons, List.mapM_cons]
    exact (h x).bind fun b => ih.bind fun bs => .rfl

theorem refines_mapM_append_cons (h : ∀ a, Refines (f a) (g a)) (before after : List α) {a b : α}
    (hab : Refines (f a) (g b)) :
    Refines ((before ++ a :: after).mapM f) ((before ++ b :: after).mapM g) := by
  rw [List.mapM_append, List.mapM_append, List.mapM_cons, List.mapM_cons]
  refine (refines_mapM h before).bind fun _ => Refines.bind ?_ fun _ => .rfl
  exact hab.bind fun _ => (refines_mapM h after).bind fun _ => .rfl

end Lists

section Fill

variable {call call' : ι → Run σ (Option String)} {p p' : Predicate ι}

theorem refines_textOf (h : Refines (render call p) (render call' p')) (needed : Option Operator) :
    Refines (textOf call needed p) (textOf call' needed p') :=
  h.bind fun _ => .rfl

theorem refines_unary {op : Operator} (hop : op.shape = .unary)
    (h : Refines (render call p) (render call' p')) :
    Refines (render call (.operation op p)) (render call' (.operation op p')) := by
  rw [render_operand call hop, render_operand call' hop]
  exact (refines_textOf h (some op)).bind fun _ => .rfl

theorem refines_of_not_list {op : Operator} (hop : op.shape ≠ .unary)
    (hp : ∀ ps, p ≠ .list ps) (hp' : ∀ ps, p' ≠ .list ps) :
    Refines (render call (.operation op p)) (render call' (.operation op p')) := by
  rw [render_of_not_list call hop hp, render_of_not_list call' hop hp']
  exact .rfl

variable (hcall : ∀ p, Refines (render call p) (render call' p))
  (before after : List (Predicate ι))
include hcall

theorem refines_list (h : Refines (render call p) (render call' p')) :
    Refines (render call (.list (before ++ p :: after)))
      (render call' (.list (before ++ p' :: after))) := by
  have htexts := refines_mapM_append_cons (fun q => refines_textOf (hcall q) none) before after
    (refines_textOf h none)
  rw [render_list, render_list]
  exact htexts.bind fun _ => .rfl

/-- Of an operand only the text matters that its operator takes from it, unless it is left out. -/
theorem refines_operands {op : Operator} (hop : op.shape ≠ .unary)
    (habsent : op.shape = .variadic → p.isAbsent = false ∧ p'.isAbsent = false)
    (h : Refines (textOf call op.needs p) (textOf call' op.needs p')) :
    Refines (render call (.operation op (.list (before ++ p :: after))))
      (render call' (.operation op (.list (before ++ p' :: after)))) := by
  have hlength : (before ++ p' :: after).length = (before ++ p :: after).length := by simp
  cases hadmits : op.shape.admits (before ++ p :: after).length with
  | false =>
    rw [render_of_not_admits call hadmits, render_of_not_admits call' (hlength ▸ hadmits), hlength]
    exact .rfl
  | true =>
    rw [render_operands call hop hadmits, render_operands call' hop (hlength ▸ hadmits),
      kept_append_cons before after fun hs => (habsent hs).1,
      kept_append_cons before after fun hs => (habsent hs).2]
    refine Refines.bind ?_ fun _ => .rfl
    exact refines_mapM_append_cons (fun q => refines_textOf (hcall q) op.needs) _ _ h

/-- **Compilation in a context** depends on the tree in the hole through its own compilation,
through whether it is a list where it is a whole operand, and through whether it is absent where a
variadic operator takes it. -/
theorem refines_fill (h : Refines (render call p) (render call' p')) :
    ∀ c : Context ι, (c.BareOperand → (∀ ps, p ≠ .list ps) ∧ ∀ ps, p' ≠ .list ps) →
      (c.VariadicOperand → p.isAbsent = false ∧ p'.isAbsent = false) →
      Refines (render call (c.fill p)) (render call' (c.fill p'))
  | .hole, _, _ => h
  | .item before c after, hbare, habsent =>
    refines_list hcall before after
      (refines_fill h c (fun hc => hbare (hc.item before after))
        fun hc => habsent (hc.item before after))
  | .operand op .hole, hbare, _ => by
    by_cases hop : op.shape = .unary
    · exact refines_unary hop h
    · obtain ⟨hp, hp'⟩ := hbare ⟨.hole, op, hop, rfl⟩
      exact refines_of_not_list hop hp hp'
  | .operand op (.item before c after), hbare, habsent => by
    have hbare' := fun hc : (Context.item before c after).BareOperand => hbare (hc.operand op)
    have habsent' := fun hc : (Context.item before c after).VariadicOperand =>
      habsent (hc.operand op)
    have hinner := refines_fill h c (fun hc => hbare' (hc.item before after))
      fun hc => habsent' (hc.item before after)
    by_cases hop : op.shape = .unary
    · exact refines_unary hop (refines_list hcall before after hinner)
    · refine refines_operands hcall before after hop (fun hs => ?_) (refines_textOf hinner _)
      have hhole : c = .hole → p.isAbsent = false ∧ p'.isAbsent = false := by
        rintro rfl
        exact habsent ⟨.hole, op, before, after, hs, rfl⟩
      exact ⟨Context.isAbsent_fill fun hc => (hhole hc).1, Context.isAbsent_fill fun hc => (hhole hc).2⟩
  | .operand op (.operand op' c), hbare, habsent => by
    have hinner := refines_fill h (.operand op' c) (fun hc => hbare (hc.operand op))
      fun hc => habsent (hc.operand op)
    by_cases hop : op.shape = .unary
    · exact refines_unary hop hinner
    · exact refines_of_not_list hop (by simp [Context.fill]) (by simp [Context.fill])

end Fill

/-! ## A thunk and its tree -/

/-- An outcome of compilation with enough depth for thunks. -/
def Outcome (thunks : Thunks ι σ) (p : Predicate ι) (s : σ)
    (o : Except FilterFault (Option String) × σ) : Prop :=
  ∃ depth, run thunks depth p s = some o

section Constant

variable {thunks : Thunks ι σ} {p p' q : Predicate ι} {t : ι}

/-- A depth more is enough to compile a tree in place of another one. -/
def Replaces (thunks : Thunks ι σ) (p p' : Predicate ι) : Prop :=
  ∀ depth, Refines (run thunks depth p) (run thunks (depth + 1) p')

theorem Replaces.fill (h : Replaces thunks p p') {c : Context ι}
    (hbare : c.BareOperand → (∀ ps, p ≠ .list ps) ∧ ∀ ps, p' ≠ .list ps)
    (habsent : c.VariadicOperand → p.isAbsent = false ∧ p'.isAbsent = false) :
    Replaces thunks (c.fill p) (c.fill p') :=
  fun depth => refines_fill (fun q => (related_extends thunks depth q).tree) (h depth) c hbare habsent

theorem outcome_congr (h : Replaces thunks p p') (h' : Replaces thunks p' p) (s : σ)
    (o : Except FilterFault (Option String) × σ) : Outcome thunks p s o ↔ Outcome thunks p' s o :=
  ⟨fun ⟨depth, hrun⟩ => ⟨depth + 1, h depth s o hrun⟩,
    fun ⟨depth, hrun⟩ => ⟨depth + 1, h' depth s o hrun⟩⟩

/-- The text that is taken from an absent tree where nothing needs one. -/
theorem textOf_absent {m : Type → Type} [Monad m] [LawfulMonad m] [MonadExcept FilterFault m]
    (call : ι → m (Option String)) {word : String}
    (hword : q = .null ∧ word = "null" ∨ q = .undefined ∧ word = "") :
    textOf call none q = textOf call none (.text word) := by
  rcases hword with ⟨rfl, rfl⟩ | ⟨rfl, rfl⟩ <;> simp [textOf, render, takeText]

variable (ht : ∀ s, thunks t s = (q, s))
include ht

/-- A constant thunk gives what its tree gives, one level deeper. -/
theorem run_thunk (depth : Nat) : run thunks (depth + 1) (.thunk t) = run thunks depth q := by
  funext s
  change render (callThunk thunks depth) (thunks t s).1 (thunks t s).2 = _
  rw [ht]
  rfl

theorem replaces_thunk : Replaces thunks (.thunk t) q := by
  intro depth s o h
  cases depth with
  | zero => cases h
  | succ depth =>
    rw [run_thunk ht] at h
    exact run_mono (by omega) h

theorem replaces_by_thunk : Replaces thunks q (.thunk t) := by
  intro depth
  rw [run_thunk ht]
  exact .rfl

/-- A variadic operator takes the text of a thunk, whatever it yields. -/
theorem replaces_operand {op : Operator} (hop : op.shape = .variadic) {word : String}
    (hword : q = .null ∧ word = "null" ∨ q = .undefined ∧ word = "")
    (before after : List (Predicate ι)) :
    Replaces thunks (.operation op (.list (before ++ .thunk t :: after)))
        (.operation op (.list (before ++ .text word :: after))) ∧
      Replaces thunks (.operation op (.list (before ++ .text word :: after)))
        (.operation op (.list (before ++ .thunk t :: after))) := by
  have hunary : op.shape ≠ .unary := by simp [hop]
  have hneeds : op.needs = none := if_pos hop
  constructor
  · intro depth
    have hcall := fun p => (related_extends thunks depth p).tree
    refine refines_operands hcall before after hunary (fun _ => ⟨rfl, rfl⟩) ?_
    rw [hneeds, ← textOf_absent _ hword]
    exact refines_textOf (replaces_thunk ht depth) none
  · intro depth
    have hcall := fun p => (related_extends thunks depth p).tree
    refine refines_operands hcall before after hunary (fun _ => ⟨rfl, rfl⟩) ?_
    rw [hneeds, ← textOf_absent _ hword]
    exact refines_textOf (replaces_by_thunk ht depth) none

/-- **A constant thunk may stand for its tree** in every context but two. As the whole operand of an
operator that is not unary it is the wrong shape of operand, whatever it yields; and a variadic
operator keeps a thunk that yields null or nothing, as the word for it. -/
theorem outcome_thunk_iff :
    (∀ c : Context ι, ¬ (c.BareOperand ∧ ∃ ps, q = .list ps) →
      ¬ (c.VariadicOperand ∧ q.isAbsent = true) →
      ∀ s o, Outcome thunks (c.fill (.thunk t)) s o ↔ Outcome thunks (c.fill q) s o) ∧
    (∀ op : Operator, op.shape ≠ .unary → ∀ depth s,
      run thunks depth (.operation op (.thunk t)) s = some (.error (.operandShape op), s)) ∧
    (∀ (c : Context ι) (word : String), c.VariadicOperand →
      (q = .null ∧ word = "null" ∨ q = .undefined ∧ word = "") →
      ∀ s o, Outcome thunks (c.fill (.thunk t)) s o ↔ Outcome thunks (c.fill (.text word)) s o) := by
  refine ⟨?_, ?_, ?_⟩
  · intro c hlist habsent
    have hbare : c.BareOperand → ∀ ps, q ≠ .list ps :=
      fun hc ps hq => hlist ⟨hc, ps, hq⟩
    have hpresent : c.VariadicOperand → q.isAbsent = false :=
      fun hc => Bool.eq_false_iff.mpr fun hq => habsent ⟨hc, hq⟩
    refine outcome_congr ((replaces_thunk ht).fill ?_ ?_) ((replaces_by_thunk ht).fill ?_ ?_)
    · exact fun hc => ⟨by simp, hbare hc⟩
    · exact fun hc => ⟨rfl, hpresent hc⟩
    · exact fun hc => ⟨hbare hc, by simp⟩
    · exact fun hc => ⟨hpresent hc, rfl⟩
  · intro op hop depth s
    rw [run, render_of_not_list _ hop (by simp)]
    rfl
  · rintro c word ⟨outer, op, before, after, hop, rfl⟩ hword
    obtain ⟨hto, hfrom⟩ := replaces_operand ht hop hword before after
    rw [Context.fill_comp, Context.fill_comp]
    refine outcome_congr (hto.fill ?_ ?_) (hfrom.fill ?_ ?_)
    · exact fun _ => ⟨by simp, by simp⟩
    · exact fun _ => ⟨rfl, rfl⟩
    · exact fun _ => ⟨by simp, by simp⟩
    · exact fun _ => ⟨rfl, rfl⟩

end Constant

/-- A thunk that yields null is compared like null, is no list of operands, and is no absent operand
of a conjunction. -/
theorem yieldsNull_outcomes :
    let yieldsNull : Thunks Unit Nat := fun _ s => (.null, s)
    Outcome yieldsNull (between .eq (.text "Name") (.thunk ())) 5
        (.ok (some "(Name eq null)"), 5) ∧
      run yieldsNull 0 (.operation .eq (.thunk ())) 5 = some (.error (.operandShape .eq), 5) ∧
      Outcome yieldsNull (.operation .not (apply .and [.text "Name", .thunk ()])) 5
        (.ok (some "(not (Name and null))"), 5) := by
  intro yieldsNull
  have ht : ∀ s, yieldsNull () s = (.null, s) := fun s => rfl
  obtain ⟨hsame, hshape, hvariadic⟩ := outcome_thunk_iff ht
  refine ⟨?_, hshape .eq (by decide) 0 5, ?_⟩
  · refine (hsame (.operand .eq (.item [.text "Name"] .hole [])) ?_ ?_ 5 _).mpr ⟨0, rfl⟩
    · rintro ⟨-, ps, hps⟩
      cases hps
    · rintro ⟨⟨outer, op, before, after, hop, hc⟩, -⟩
      match outer, hc with
      | .hole, hc =>
        cases hc
        cases hop
      | .operand _ (.item _ .hole _), hc => simp [Context.comp] at hc
  · refine (hvariadic (.operand .not (.operand .and (.item [.text "Name"] .hole []))) "null" ?_
      (Or.inl ⟨rfl, rfl⟩) 5 _).mpr ⟨0, rfl⟩
    exact ⟨.operand .not .hole, .and, [.text "Name"], [], rfl, rfl⟩

end Predicate

end EntityQuery
