import EntityQuery.Text.Template
import Mathlib.Data.List.Infix

/-!
# Filling a template

A template is plain text with references in it. Filling it writes what stands for each reference and
leaves the plain text as it is (`expandText_text`), in one pass: a value may hold references of its
own, and these stay.

Proof. The pass goes through plain text character by character, since none of its places opens a
reference (`expandReferences_plain`). That needs a look at the end of the text: a dollar sign there
would open a reference in front of a brace, but what follows plain text in a template is the dollar
sign of the next reference. A reference ends at its first closing brace, and the pass goes on behind
it (`expandReferences_reference`).
-/

namespace EntityQuery.Text

/-! ## Templates -/

/-- Text in which no reference is opened. -/
def IsPlain (s : String) : Prop :=
  ¬ ['$', '\x7b'] <:+: s.toList

instance (s : String) : Decidable (IsPlain s) :=
  inferInstanceAs (Decidable (¬ _))

/-- A reference in a template, with the plain text behind it. -/
structure Reference where
  name : String
  behind : String
  name_ne_empty : name ≠ ""
  brace_notMem_name : '\x7d' ∉ name.toList
  plain_behind : IsPlain behind

/-- A reference as it is written. -/
def Reference.text (r : Reference) : String :=
  "$\x7b" ++ r.name ++ "\x7d"

/-- Plain text, and then references with plain text behind each of them. -/
structure Template where
  front : String
  references : List Reference
  plain_front : IsPlain front

namespace Template

/-- A template with some text for each reference. -/
def fill (t : Template) (text : Reference → String) : String :=
  t.front ++ String.join (t.references.map fun r => text r ++ r.behind)

/-- A template as it is written. -/
def text (t : Template) : String :=
  t.fill Reference.text

end Template

/-! ## One pass -/

variable {value? : String → Option String} {c : Char} {s name rest : List Char}

theorem expandReferences_cons (h : c = '$' → s.head? ≠ some '\x7b') :
    expandReferences value? (c :: s) = c :: expandReferences value? s := by
  rw [expandReferences]
  intro s' hc hs
  subst hs
  exact h hc rfl

/-- Plain text is kept, as long as no brace follows it. -/
theorem expandReferences_plain (hs : ¬ ['$', '\x7b'] <:+: s) (hrest : rest.head? ≠ some '\x7b') :
    expandReferences value? (s ++ rest) = s ++ expandReferences value? rest := by
  induction s with
  | nil => rfl
  | cons c s ih =>
    rw [List.infix_cons_iff, not_or] at hs
    have hopen : c = '$' → (s ++ rest).head? ≠ some '\x7b' := by
      intro hc hbrace
      cases s with
      | nil => exact hrest hbrace
      | cons d s =>
        obtain rfl : d = '\x7b' := Option.some.inj hbrace
        apply hs.1
        rw [hc]
        exact ⟨s, rfl⟩
    rw [List.cons_append, expandReferences_cons hopen, ih hs.2, List.cons_append]

theorem beforeBrace_append (h : '\x7d' ∉ name) (rest : List Char) :
    beforeBrace (name ++ '\x7d' :: rest) = name := by
  have hname : ∀ c ∈ name, (c != '\x7d') = true := by
    intro c hc
    exact bne_iff_ne.mpr (ne_of_mem_of_not_mem hc h)
  rw [beforeBrace, List.takeWhile_append_of_pos hname, List.takeWhile_cons_of_neg (by simp),
    List.append_nil]

/-- A reference gives the value of its name, or itself, and the pass goes on behind it. -/
theorem expandReferences_reference (hne : name ≠ []) (hbrace : '\x7d' ∉ name) (rest : List Char) :
    expandReferences value? (reference name ++ rest) =
      ((value? (String.ofList name)).map String.toList).getD (reference name) ++
        expandReferences value? rest := by
  have htext : reference name ++ rest = '$' :: '\x7b' :: (name ++ '\x7d' :: rest) := by
    simp [reference]
  have hfound : ¬ (name = [] ∨ name.length = (name ++ '\x7d' :: rest).length) := by
    simp [hne]
  have hdrop : (name ++ '\x7d' :: rest).drop (name.length + 1) = rest := by
    simp
  rw [htext, expandReferences, beforeBrace_append hbrace, if_neg hfound, hdrop]
  cases value? (String.ofList name) <;> rfl

/-! ## Whole templates -/

theorem Reference.toList_text (r : Reference) : r.text.toList = reference r.name.toList := by
  simp [text, reference]

theorem Template.toList_fill (t : Template) (text : Reference → String) :
    (t.fill text).toList =
      t.front.toList ++ t.references.flatMap fun r => (text r).toList ++ r.behind.toList := by
  simp only [fill, String.toList_append, String.toList_join, List.flatMap_map]

/-- No brace opens a row of references. -/
theorem head?_references (rs : List Reference) :
    (rs.flatMap fun r => r.text.toList ++ r.behind.toList).head? ≠ some '\x7b' := by
  cases rs with
  | nil => simp
  | cons r rs => simp [Reference.toList_text, reference]

/-- One step: a reference, and the plain text up to the next one. -/
theorem expandReferences_step (r : Reference) (hrest : rest.head? ≠ some '\x7b') :
    expandReferences value? (r.text.toList ++ r.behind.toList ++ rest) =
      ((value? r.name).getD r.text).toList ++ r.behind.toList ++ expandReferences value? rest := by
  have hname : r.name.toList ≠ [] := by simpa using r.name_ne_empty
  rw [List.append_assoc, r.toList_text, expandReferences_reference hname r.brace_notMem_name,
    expandReferences_plain r.plain_behind hrest, String.ofList_toList, ← r.toList_text,
    Option.getD_map, List.append_assoc]

/-- A run: a row of references. -/
theorem expandReferences_references (rs : List Reference) :
    expandReferences value? (rs.flatMap fun r => r.text.toList ++ r.behind.toList) =
      rs.flatMap fun r => ((value? r.name).getD r.text).toList ++ r.behind.toList := by
  induction rs with
  | nil => rw [List.flatMap_nil, List.flatMap_nil, expandReferences]
  | cons r rs ih =>
    rw [List.flatMap_cons, expandReferences_step r (head?_references rs), ih, List.flatMap_cons]

/-- **A template is filled in one pass**: for each reference stands the value of its name as it is,
or the reference itself where the name has no value, and the plain text is kept. -/
theorem expandText_text (value? : String → Option String) (t : Template) :
    expandText value? t.text = t.fill fun r => (value? r.name).getD r.text := by
  apply String.toList_inj.mp
  rw [expandText, String.toList_ofList, Template.text, Template.toList_fill, Template.toList_fill,
    expandReferences_plain t.plain_front (head?_references _), expandReferences_references]

/-- A setting with two references, the first of them behind a dollar sign. -/
def setting : Template where
  front := "endpoint = $"
  references := [⟨"ROOT", "/", by decide, by decide, by decide⟩,
    ⟨"PATH", "", by decide, by decide, by decide⟩]
  plain_front := by decide

/-- A value that looks like a reference stays, and so does a reference without a value. -/
theorem setting_expanded :
    setting.text = "endpoint = $$\x7bROOT\x7d/$\x7bPATH\x7d" ∧
      expandText (fun name => if name = "ROOT" then some "$\x7bHOST\x7d" else none) setting.text =
        "endpoint = $$\x7bHOST\x7d/$\x7bPATH\x7d" := by
  refine ⟨by decide, ?_⟩
  rw [expandText_text]
  decide

end EntityQuery.Text
