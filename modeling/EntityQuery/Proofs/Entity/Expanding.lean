import EntityQuery.Proofs.Entity.Accepted
import EntityQuery.Proofs.Filter.Grammar
import Mathlib.Data.List.Forall2
import Mathlib.Data.List.Nodup

/-!
# Expand expressions

An expand expression is a list of entries, each of which asks for the related record of a navigation
property and for one property of that record. As long as names hold none of the characters that
stand between them, its text has one reading (`eq_of_expandText_eq`).

A schema writes one entry for each property that a directive selects and that has a navigation
property, and looks at that property alone. So each entry asks for what its property names, and two
properties that share a navigation property ask for its record twice. `expandExpression_spec` says
so for every accepted definition: where the selected properties name the texts of their related
records, the expression is well formed exactly if their navigation properties are distinct.
`handover_not_wellFormed` is a definition where two properties share one.
-/

namespace EntityQuery

/-! ## Entries and their text -/

/-- An entry of an expand expression: the navigation property of a related record, and the property
of that record to select. -/
structure ExpandEntry where
  nav : String
  select : String

/-- Whether a character may stand in a name of an expand expression: all but those between names. -/
def isPlainChar (c : Char) : Bool :=
  !([',', '(', ')', '$', '='].contains c)

/-- Whether a text can be told from what stands around names. It may be empty. -/
def isPlain (s : String) : Bool :=
  s.toList.all isPlainChar

/-- A plain text ends at the first character that is none of its own. -/
theorem plain_unique {s s' : String} {c : Char} {u u' : List Char} (hs : isPlain s = true)
    (hs' : isPlain s' = true) (hc : isPlainChar c = false)
    (h : s.toList ++ c :: u = s'.toList ++ c :: u') : s = s' ∧ u = u' := by
  obtain ⟨hrun, hrest⟩ := Text.run_unique (List.all_eq_true.mp hs) (List.all_eq_true.mp hs')
    (by simpa using hc) (by simpa using hc) h
  exact ⟨String.toList_inj.mp hrun, (List.cons.inj hrest).2⟩

/-- A name: some characters, none of which stands between names. -/
structure IsName (s : String) : Prop where
  nonempty : s ≠ ""
  plain : isPlain s = true

instance (s : String) : Decidable (IsName s) :=
  decidable_of_iff (s ≠ "" ∧ isPlain s = true)
    ⟨fun h => ⟨h.1, h.2⟩, fun h => ⟨h.nonempty, h.plain⟩⟩

namespace ExpandEntry

/-- The text of an entry. -/
def text (e : ExpandEntry) : String :=
  e.nav ++ "($select=" ++ e.select ++ ")"

/-- Whether both parts of an entry can be told from what stands around them. -/
structure Plain (e : ExpandEntry) : Prop where
  nav : isPlain e.nav = true
  select : isPlain e.select = true

instance (e : ExpandEntry) : Decidable e.Plain :=
  decidable_of_iff (isPlain e.nav = true ∧ isPlain e.select = true)
    ⟨fun h => ⟨h.1, h.2⟩, fun h => ⟨h.nav, h.select⟩⟩

variable {e f : ExpandEntry} {es fs : List ExpandEntry}

theorem toList_text_append (e : ExpandEntry) (r : List Char) :
    e.text.toList ++ r =
      e.nav.toList ++ '(' :: ("$select=".toList ++ (e.select.toList ++ ')' :: r)) := by
  simp [text, String.toList_append]

theorem text_unique (he : e.Plain) (hf : f.Plain) {r t : List Char}
    (h : e.text.toList ++ r = f.text.toList ++ t) : e = f ∧ r = t := by
  rw [toList_text_append, toList_text_append] at h
  obtain ⟨hnav, hrest⟩ := plain_unique he.nav hf.nav (by decide) h
  obtain ⟨hselect, hend⟩ :=
    plain_unique he.select hf.select (by decide) (List.append_cancel_left hrest)
  obtain ⟨nav, select⟩ := e
  obtain ⟨nav', select'⟩ := f
  obtain rfl : nav = nav' := hnav
  obtain rfl : select = select' := hselect
  exact ⟨rfl, hend⟩

/-- Some entries, each behind a comma. -/
def tail (es : List ExpandEntry) : List Char :=
  es.flatMap fun e => ',' :: e.text.toList

theorem tail_cons (e : ExpandEntry) (es : List ExpandEntry) :
    tail (e :: es) = ',' :: (e.text.toList ++ tail es) := by
  rw [tail, List.flatMap_cons, List.cons_append]
  rfl

theorem tail_unique (hes : ∀ e ∈ es, e.Plain) (hfs : ∀ f ∈ fs, f.Plain) (h : tail es = tail fs) :
    es = fs := by
  induction es generalizing fs with
  | nil =>
    cases fs with
    | nil => rfl
    | cons f fs => rw [tail_cons] at h; cases h
  | cons e es ih =>
    cases fs with
    | nil => rw [tail_cons] at h; cases h
    | cons f fs =>
      rw [List.forall_mem_cons] at hes hfs
      rw [tail_cons, tail_cons] at h
      obtain ⟨rfl, hrest⟩ := text_unique hes.1 hfs.1 (List.cons.inj h).2
      rw [ih hes.2 hfs.2 hrest]

end ExpandEntry

/-- The text of some entries. -/
def expandText (es : List ExpandEntry) : String :=
  joinWith "," (es.map ExpandEntry.text)

theorem tail_eq_cons_expandText (e : ExpandEntry) (es : List ExpandEntry) :
    ExpandEntry.tail (e :: es) = ',' :: (expandText (e :: es)).toList := by
  rw [expandText, List.map_cons, toList_joinWith_cons, List.flatMap_map, ExpandEntry.tail_cons]
  rfl

/-- **The text of some entries has one reading**, as long as there is at least one. -/
theorem eq_of_expandText_eq {es fs : List ExpandEntry} (hne : es ≠ []) (hne' : fs ≠ [])
    (hes : ∀ e ∈ es, e.Plain) (hfs : ∀ f ∈ fs, f.Plain) (h : expandText es = expandText fs) :
    es = fs := by
  obtain ⟨e, es, rfl⟩ := List.exists_cons_of_ne_nil hne
  obtain ⟨f, fs, rfl⟩ := List.exists_cons_of_ne_nil hne'
  apply ExpandEntry.tail_unique hes hfs
  rw [tail_eq_cons_expandText, tail_eq_cons_expandText, h]

/-- Whether an expand expression is well formed: there is none, or it is a list of entries with
names for both parts, and no two of them ask for the same related record. -/
def WellFormedExpand : Option String → Prop
  | none => True
  | some text => ∃ es : List ExpandEntry, es ≠ [] ∧ text = expandText es ∧
      (∀ e ∈ es, IsName e.nav ∧ IsName e.select) ∧ (es.map ExpandEntry.nav).Nodup

/-- Entries that can be told apart decide whether their text is well formed. -/
theorem wellFormedExpand_iff {es : List ExpandEntry} (hne : es ≠ []) (hes : ∀ e ∈ es, e.Plain) :
    WellFormedExpand (some (expandText es)) ↔
      (∀ e ∈ es, IsName e.nav ∧ IsName e.select) ∧ (es.map ExpandEntry.nav).Nodup := by
  constructor
  · rintro ⟨fs, hne', htext, hnames, hnodup⟩
    have hfs : ∀ f ∈ fs, f.Plain := fun f hf => ⟨(hnames f hf).1.plain, (hnames f hf).2.plain⟩
    obtain rfl := eq_of_expandText_eq hne hne' hes hfs htext
    exact ⟨hnames, hnodup⟩
  · rintro ⟨hnames, hnodup⟩
    exact ⟨es, hne, rfl, hnames, hnodup⟩

/-! ## The entries of a directive -/

/-- Whether a directive selects a property; only those that select by property do. -/
def Expansion.selects : Expansion → Property → Bool
  | .all, _ => true
  | .keys listed, p => listed.contains p.key
  | .nothing, _ => false
  | .raw _, _ => false

/-- Whether a directive selects by property. -/
def Expansion.IsSelection (e : Expansion) : Prop :=
  e = .all ∨ ∃ listed, e = .keys listed

namespace Property

/-- Whether what a property says about its related record are names. -/
structure NamesRelated (p : Property) : Prop where
  nav : ∀ nav ∈ p.expand, IsName nav
  text : ∀ text ∈ p.expandText, IsName text

instance (p : Property) : Decidable p.NamesRelated :=
  decidable_of_iff ((∀ nav ∈ p.expand, IsName nav) ∧ ∀ text ∈ p.expandText, IsName text)
    ⟨fun h => ⟨h.1, h.2⟩, fun h => ⟨h.nav, h.text⟩⟩

/-- Whether an entry asks for what a property names: the record of its navigation property, and the
text of that record if the property names one. -/
structure AskedBy (p : Property) (e : ExpandEntry) : Prop where
  nav : p.expand = some e.nav
  text : ∀ text ∈ p.expandText, e.select = text ∧ text ≠ ""

/-- The entry of a property with a navigation property. -/
def entry (p : Property) : ExpandEntry :=
  ⟨p.expand.getD "", p.expandText.getD ""⟩

theorem filterMap_expandEntry? (ps : List Property) :
    ps.filterMap Schema.expandEntry? =
      ((ps.filter fun p => p.expand.isSome).map entry).map ExpandEntry.text := by
  induction ps with
  | nil => rfl
  | cons p ps ih =>
    cases hnav : p.expand with
    | none =>
      have hentry : Schema.expandEntry? p = none := by rw [Schema.expandEntry?, hnav]; rfl
      rw [List.filterMap_cons_none hentry, ih, List.filter_cons_of_neg (by simp [hnav])]
    | some nav =>
      have hentry : Schema.expandEntry? p = some p.entry.text := by
        rw [Schema.expandEntry?, ExpandEntry.text, entry, hnav]
        rfl
      rw [List.filterMap_cons_some hentry, ih, List.filter_cons_of_pos (by simp [hnav])]
      rfl

section Entry

variable {p : Property} (hnav : p.expand.isSome = true)
include hnav

theorem expand_eq : p.expand = some p.entry.nav := by
  obtain ⟨nav, hsome⟩ := Option.isSome_iff_exists.mp hnav
  rw [entry, hsome]
  rfl

theorem askedBy_entry (hp : p.NamesRelated) : p.AskedBy p.entry where
  nav := expand_eq hnav
  text := by
    intro text htext
    refine ⟨?_, (hp.text text htext).nonempty⟩
    show p.expandText.getD "" = text
    rw [htext]
    rfl

theorem isName_entry (hp : p.NamesRelated) (htext : p.expandText.isSome = true) :
    IsName p.entry.nav ∧ IsName p.entry.select := by
  obtain ⟨text, hsome⟩ := Option.isSome_iff_exists.mp htext
  have hselect : p.entry.select = text := ((askedBy_entry hnav hp).text text hsome).1
  exact ⟨hp.nav _ (expand_eq hnav), hselect ▸ hp.text text hsome⟩

end Entry

end Property

namespace Definition

/-- The properties that a directive selects and that have a navigation property, in order. -/
def expanded (d : Definition) (e : Expansion) : List Property :=
  (d.properties.filter e.selects).filter fun p => p.expand.isSome

variable {d : Definition} {e : Expansion}

theorem mem_expanded {p : Property} (hp : p ∈ d.expanded e) :
    p ∈ d.properties ∧ p.expand.isSome = true := by
  rw [expanded, List.mem_filter, List.mem_filter] at hp
  exact ⟨hp.1.1, hp.2⟩

theorem expandExpression_eq (he : e.IsSelection) : d.schema.expandExpression e =
    if d.expanded e = [] then none else some (expandText ((d.expanded e).map Property.entry)) := by
  have hselection : d.schema.expandExpression e = d.schema.expandIncluded e.selects := by
    rcases he with rfl | ⟨listed, rfl⟩ <;> rfl
  have htexts : (d.schema.properties.filter e.selects).filterMap Schema.expandEntry? =
      ((d.expanded e).map Property.entry).map ExpandEntry.text :=
    Property.filterMap_expandEntry? _
  rw [hselection, Schema.expandIncluded, htexts]
  cases d.expanded e with
  | nil => rfl
  | cons p ps => rfl

theorem map_expand_expanded (d : Definition) (e : Expansion) :
    (d.expanded e).map Property.expand =
      (((d.expanded e).map Property.entry).map ExpandEntry.nav).map some := by
  rw [List.map_map, List.map_map]
  apply List.map_congr_left
  intro p hp
  exact Property.expand_eq (mem_expanded hp).2

/-- **An expand expression asks for what the selected properties name.** There is none exactly if no
selected property has a navigation property. Otherwise it is a list of one entry for each of those
that have one, in order, and an entry asks for what its property names. It is well formed exactly if
no two of those properties have the same navigation property, as long as each of them names the text
of its related record. -/
theorem expandExpression_spec {s : Schema} (h : d.toSchema = .ok s)
    (hnames : ∀ p ∈ d.properties, p.NamesRelated) (he : e.IsSelection) :
    (s.expandExpression e = none ↔ d.expanded e = []) ∧
    (∀ text, s.expandExpression e = some text →
      ∃ es, text = expandText es ∧ List.Forall₂ Property.AskedBy (d.expanded e) es) ∧
    ((∀ p ∈ d.expanded e, p.expandText.isSome = true) →
      (WellFormedExpand (s.expandExpression e) ↔
        ((d.expanded e).map Property.expand).Nodup)) := by
  obtain ⟨-, rfl⟩ := toSchema_eq_ok.mp h
  rw [expandExpression_eq he]
  by_cases hnone : d.expanded e = []
  · rw [if_pos hnone, hnone]
    simp [WellFormedExpand]
  rw [if_neg hnone]
  have hasked : ∀ p ∈ d.expanded e, p.AskedBy p.entry := by
    intro p hp
    obtain ⟨hmem, hnav⟩ := mem_expanded hp
    exact Property.askedBy_entry hnav (hnames p hmem)
  refine ⟨by simp [hnone], ?_, ?_⟩
  · intro text htext
    refine ⟨(d.expanded e).map Property.entry, (Option.some.inj htext).symm, ?_⟩
    rw [List.forall₂_map_right_iff, List.forall₂_same]
    exact hasked
  · intro htexts
    have hentries : ∀ x ∈ (d.expanded e).map Property.entry, IsName x.nav ∧ IsName x.select := by
      rw [List.forall_mem_map]
      intro p hp
      obtain ⟨hmem, hnav⟩ := mem_expanded hp
      exact Property.isName_entry hnav (hnames p hmem) (htexts p hp)
    have hplain : ∀ x ∈ (d.expanded e).map Property.entry, x.Plain :=
      fun x hx => ⟨(hentries x hx).1.plain, (hentries x hx).2.plain⟩
    rw [wellFormedExpand_iff (by simpa using hnone) hplain, map_expand_expanded,
      List.nodup_map_iff (fun _ _ => Option.some.inj)]
    exact and_iff_right hentries

/-- The handover of a patient. The two doctors have one navigation property, and nothing says which
property of a ward is its text. -/
def handover : Definition where
  endpoint := "Handovers"
  properties :=
    [⟨"FROM", none, some "Doctor", some "Name", none⟩,
      ⟨"TO", none, some "Doctor", some "Name", none⟩,
      ⟨"WARD", none, some "Ward", none, none⟩]
  types := Entries.empty

/-- The receiving doctor alone makes a well-formed expression. -/
theorem handover_receiver :
    handover.toSchema = .ok handover.schema ∧ (∀ p ∈ handover.properties, p.NamesRelated) ∧
      (Expansion.keys ["TO"]).IsSelection ∧
      WellFormedExpand (handover.schema.expandExpression (.keys ["TO"])) := by
  have h : handover.toSchema = .ok handover.schema := rfl
  have hnames : ∀ p ∈ handover.properties, p.NamesRelated := by decide
  have he : (Expansion.keys ["TO"]).IsSelection := Or.inr ⟨["TO"], rfl⟩
  obtain ⟨-, -, hwell⟩ := expandExpression_spec h hnames he
  exact ⟨h, hnames, he, (hwell (by decide)).mpr (by decide)⟩

/-- **Expand expressions of names need not be well formed.** Both doctors of a handover ask for the
same related record, and the entry of the ward selects nothing. -/
theorem handover_not_wellFormed :
    handover.toSchema = .ok handover.schema ∧ (∀ p ∈ handover.properties, p.NamesRelated) ∧
      handover.schema.expandExpression (.keys ["FROM", "TO"]) =
        some "Doctor($select=Name),Doctor($select=Name)" ∧
      ¬ WellFormedExpand (handover.schema.expandExpression (.keys ["FROM", "TO"])) ∧
      handover.schema.expandExpression (.keys ["WARD"]) = some "Ward($select=)" ∧
      ¬ WellFormedExpand (handover.schema.expandExpression (.keys ["WARD"])) := by
  have hdoctors : handover.schema.expandExpression (.keys ["FROM", "TO"]) =
      some (expandText [⟨"Doctor", "Name"⟩, ⟨"Doctor", "Name"⟩]) := rfl
  have hward : handover.schema.expandExpression (.keys ["WARD"]) =
      some (expandText [⟨"Ward", ""⟩]) := rfl
  refine ⟨rfl, by decide, rfl, ?_, rfl, ?_⟩
  · rw [hdoctors, wellFormedExpand_iff (by simp) (by decide)]
    rintro ⟨-, hnodup⟩
    simp at hnodup
  · rw [hward, wellFormedExpand_iff (by simp) (by decide)]
    rintro ⟨hnames, -⟩
    exact (hnames ⟨"Ward", ""⟩ (by simp)).2.nonempty rfl

end Definition

end EntityQuery
