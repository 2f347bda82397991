import EntityQuery.Proofs.Filter.Context

/-!
# Where the text of an operand stands

The text of a tree in a context stands in the text of the whole between two fixed texts, which
depend on the context alone, unless compilation stops at a fault, and then it does so whatever the
text is (`exists_frame`). So a context can be seen as a `Frame` for texts.

Proof. By induction on the context. In a list of operands the texts before and after the one with
the hole are fixed, or one of them is the fault, and every way of writing an operation leaves the
text of each operand in one piece (`Splices`).
-/

namespace EntityQuery

/-! ## Texts in a row -/

/-- A way of putting texts together leaves each of them in one piece, at a place that depends on the
others alone. -/
def Splices (join : List String → String) : Prop :=
  ∀ xs ys, ∃ before after, ∀ y, join (xs ++ y :: ys) = before ++ y ++ after

theorem splices_joinWith (separator : String) : Splices (joinWith separator) := by
  intro xs ys
  have hafter : ∃ after, ∀ y, joinWith separator (y :: ys) = y ++ after := by
    cases ys with
    | nil => exact ⟨"", fun y => by simp [joinWith]⟩
    | cons z zs =>
      exact ⟨separator ++ joinWith separator (z :: zs), fun y => by
        simp [joinWith, String.append_assoc]⟩
  obtain ⟨after, hafter⟩ := hafter
  by_cases hxs : xs = []
  · exact ⟨"", after, fun y => by rw [hxs, List.nil_append, hafter, String.empty_append]⟩
  · refine ⟨joinWith separator xs ++ separator, after, fun y => ?_⟩
    rw [joinWith, String.intercalate_append_of_ne_nil hxs (by simp)]
    change _ ++ joinWith separator (y :: ys) = _
    rw [hafter, joinWith]
    simp only [String.append_assoc]

theorem Splices.enclosed {join : List String → String} (h : Splices join) (opening closing : String) :
    Splices fun xs => opening ++ join xs ++ closing := by
  intro xs ys
  obtain ⟨before, after, hjoin⟩ := h xs ys
  exact ⟨opening ++ before, after ++ closing, fun y => by simp [hjoin, String.append_assoc]⟩

theorem splices_listText : Splices listText :=
  (splices_joinWith ",").enclosed "[" "]"

theorem splices_operationText (op : Operator) : Splices (operationText op) := by
  have hcollection : ∀ x : String, Splices fun ys => collectionText op x ys :=
    fun x => (splices_joinWith ", ").enclosed ("(" ++ x ++ " " ++ op.name ++ " (") "))"
  have hfunction : Splices (functionText op) :=
    (splices_joinWith ", ").enclosed (op.name ++ "(") ")"
  have hvariadic : Splices (variadicText op) :=
    (splices_joinWith (" " ++ op.name ++ " ")).enclosed "(" ")"
  intro xs ys
  cases hs : op.shape with
  | collection =>
    cases xs with
    | nil =>
      refine ⟨"(", " " ++ op.name ++ " (" ++ joinWith ", " ys ++ "))", fun y => ?_⟩
      simp [operationText, hs, collectionText, String.append_assoc]
    | cons x xs =>
      obtain ⟨before, after, hjoin⟩ := hcollection x xs ys
      exact ⟨before, after, fun y => by simpa [operationText, hs] using hjoin y⟩
  | function =>
    obtain ⟨before, after, hjoin⟩ := hfunction xs ys
    exact ⟨before, after, fun y => by simpa [operationText, hs] using hjoin y⟩
  | unary | binary | variadic =>
    obtain ⟨before, after, hjoin⟩ := hvariadic xs ys
    exact ⟨before, after, fun y => by simpa [operationText, hs] using hjoin y⟩

namespace Predicate

/-! ## Frames -/

/-- What becomes of the text of a tree in a context. -/
inductive Frame where
  | stopped (fault : FilterFault)
  | around (before after : String)

/-- The whole around a text. -/
def Frame.text : Frame → String → Except FilterFault String
  | .stopped fault, _ => .error fault
  | .around before after, word => .ok (before ++ word ++ after)

/-- A tree that is used for its text everywhere. -/
structure HasText (p : Predicate Empty) (word : String) : Prop where
  not_list : ∀ ps, p ≠ .list ps
  isAbsent_eq : p.isAbsent = false
  compile_eq : p.compile = .ok (some word)

theorem textOf_of_compile {p : Predicate Empty} {x : Except FilterFault String}
    (h : p.compile = x.map some) (needed : Option Operator) : textOf Empty.elim needed p = x := by
  change (p.compile >>= takeText needed) = x
  rw [h]
  cases x <;> cases needed <;> rfl

theorem exists_frame_unary {op : Operator} (hop : op.shape = .unary) (F : Frame) :
    ∃ F' : Frame, ∀ p word, compile p = (F.text word).map some →
      compile (.operation op p) = (F'.text word).map some := by
  have hcompile : ∀ p word, compile p = (F.text word).map some →
      compile (.operation op p) = F.text word >>= fun x => pure (some (unaryText op x)) := by
    intro p word h
    rw [compile, render_operand _ hop, textOf_of_compile h]
  cases F with
  | stopped fault => exact ⟨.stopped fault, fun p word h => hcompile p word h⟩
  | around before after =>
    refine ⟨.around ("(" ++ op.name ++ " " ++ before) (after ++ ")"), fun p word h => ?_⟩
    rw [hcompile p word h]
    simp [Frame.text, unaryText, Except.map, bind, Except.bind, pure, Except.pure,
      String.append_assoc]

/-- In a row of trees that are put together, the texts of the others are fixed, or one of them is
the fault. -/
theorem exists_frame_mapM {join : List String → String} (hjoin : Splices join) (F : Frame)
    (f : Predicate Empty → Except FilterFault String) (before after : List (Predicate Empty)) :
    ∃ F' : Frame, ∀ p word, f p = F.text word →
      ((before ++ p :: after).mapM f >>= fun texts => pure (some (join texts))) =
        (F'.text word).map some := by
  cases hbefore : before.mapM f with
  | error fault =>
    refine ⟨.stopped fault, fun p word _ => ?_⟩
    rw [List.mapM_append, hbefore]
    rfl
  | ok xs =>
    cases F with
    | stopped fault =>
      refine ⟨.stopped fault, fun p word h => ?_⟩
      rw [List.mapM_append, hbefore, List.mapM_cons, h]
      rfl
    | around opening closing =>
      cases hafter : after.mapM f with
      | error fault =>
        refine ⟨.stopped fault, fun p word h => ?_⟩
        rw [List.mapM_append, hbefore, List.mapM_cons, h, hafter]
        rfl
      | ok ys =>
        obtain ⟨l, r, hsplice⟩ := hjoin xs ys
        refine ⟨.around (l ++ opening) (closing ++ r), fun p word h => ?_⟩
        rw [List.mapM_append, hbefore, List.mapM_cons, h, hafter]
        change Except.ok (some (join (xs ++ (opening ++ word ++ closing) :: ys))) = _
        rw [hsplice]
        simp [Frame.text, Except.map, String.append_assoc]

theorem exists_frame_list (F : Frame) (before after : List (Predicate Empty)) :
    ∃ F' : Frame, ∀ p word, compile p = (F.text word).map some →
      compile (.list (before ++ p :: after)) = (F'.text word).map some := by
  obtain ⟨F', hF'⟩ := exists_frame_mapM splices_listText F (textOf Empty.elim none) before after
  refine ⟨F', fun p word h => ?_⟩
  rw [compile, render_list]
  exact hF' p word (textOf_of_compile h none)

theorem exists_frame_operands {op : Operator} (hop : op.shape ≠ .unary) (F : Frame)
    (before after : List (Predicate Empty)) :
    ∃ F' : Frame, ∀ p word, p.isAbsent = false → compile p = (F.text word).map some →
      compile (.operation op (.list (before ++ p :: after))) = (F'.text word).map some := by
  have hlength : ∀ p, (before ++ p :: after).length = before.length + (after.length + 1) := by simp
  cases hadmits : op.shape.admits (before.length + (after.length + 1)) with
  | false =>
    refine ⟨.stopped (.operandArity op (before.length + (after.length + 1))), fun p word _ _ => ?_⟩
    rw [compile, render_of_not_admits _ (by rw [hlength, hadmits]), hlength]
    rfl
  | true =>
    obtain ⟨F', hF'⟩ := exists_frame_mapM (splices_operationText op) F (textOf Empty.elim op.needs)
      (kept op before) (kept op after)
    refine ⟨F', fun p word habsent h => ?_⟩
    rw [compile, render_operands _ hop (by rw [hlength, hadmits]),
      kept_append_cons before after fun _ => habsent]
    exact hF' p word (textOf_of_compile h op.needs)

theorem exists_frame_of_not_list {op : Operator} (hop : op.shape ≠ .unary) :
    ∃ F' : Frame, ∀ (p : Predicate Empty) word, (∀ ps, p ≠ .list ps) →
      compile (.operation op p) = (F'.text word).map some := by
  refine ⟨.stopped (.operandShape op), fun p word hp => ?_⟩
  rw [compile, render_of_not_list _ hop hp]
  rfl

/-- **A context is a frame** for the texts of the trees in it. -/
theorem exists_frame : ∀ c : Context Empty, ∃ F : Frame, ∀ p word, HasText p word →
    (c.fill p).compile = (F.text word).map some
  | .hole => ⟨.around "" "", fun p word h => by
      rw [Context.fill, h.compile_eq]
      simp [Frame.text, Except.map]⟩
  | .item before c after => by
    obtain ⟨F, hF⟩ := exists_frame c
    obtain ⟨F', hF'⟩ := exists_frame_list F before after
    exact ⟨F', fun p word h => hF' _ word (hF p word h)⟩
  | .operand op .hole => by
    obtain ⟨F, hF⟩ := exists_frame .hole
    by_cases hop : op.shape = .unary
    · obtain ⟨F', hF'⟩ := exists_frame_unary hop F
      exact ⟨F', fun p word h => hF' p word (hF p word h)⟩
    · obtain ⟨F', hF'⟩ := exists_frame_of_not_list hop
      exact ⟨F', fun p word h => hF' p word h.not_list⟩
  | .operand op (.item before c after) => by
    obtain ⟨F, hF⟩ := exists_frame c
    by_cases hop : op.shape = .unary
    · obtain ⟨F', hF'⟩ := exists_frame_list F before after
      obtain ⟨F'', hF''⟩ := exists_frame_unary hop F'
      exact ⟨F'', fun p word h => hF'' _ word (hF' _ word (hF p word h))⟩
    · obtain ⟨F', hF'⟩ := exists_frame_operands hop F before after
      refine ⟨F', fun p word h => hF' _ word ?_ (hF p word h)⟩
      exact Context.isAbsent_fill fun _ => h.isAbsent_eq
  | .operand op (.operand op' c) => by
    obtain ⟨F, hF⟩ := exists_frame (.operand op' c)
    by_cases hop : op.shape = .unary
    · obtain ⟨F', hF'⟩ := exists_frame_unary hop F
      exact ⟨F', fun p word h => hF' _ word (hF p word h)⟩
    · obtain ⟨F', hF'⟩ := exists_frame_of_not_list hop
      exact ⟨F', fun p word _ => hF' _ word (by simp [Context.fill])⟩

end Predicate

end EntityQuery
