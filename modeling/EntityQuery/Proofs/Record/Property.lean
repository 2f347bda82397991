import EntityQuery.Proofs.Box.Wire
import EntityQuery.Proofs.Record.Entries
import EntityQuery.Record.Property
import Mathlib.Data.List.Nodup
import Mathlib.Tactic.Tauto

/-!
# Spellings of a property

The description of a property is read back from its JSON form, up to the values in its table of
options: a value comes back exactly if JSON has a form of its own for it (`Value.IsPlain`). And one
description has many spellings (`Property.Respelled`): its members may come in any order, among
members that no reader knows, and the member for the text has two names. All of them read the same.

Proof. The reader only looks members up. A look-up sees neither the order of members with distinct
names nor a member of another name. Of the two names for the text an object that is read has at most
one, so giving that member the other name moves the one look-up that finds something.
-/

namespace EntityQuery

/-! ## Values in JSON -/

/-- The values that JSON has a form of their own for: dates are texts there, floats that are not
finite are null, and only arrays and objects are loaded as documents. -/
inductive Value.IsPlain : Value → Prop
  | null : IsPlain .null
  | bool (b : Bool) : IsPlain (.bool b)
  | int (n : Int64) : IsPlain (.int n)
  | float (x : Binary64.Finite) : IsPlain (.float (.finite x))
  | text (s : String) : IsPlain (.text s)
  | array (items : List Json) : IsPlain (.json (.array items))
  | object (members : List (String × Json)) : IsPlain (.json (.object members))

/-- A value comes back from its JSON form exactly if it is plain. -/
theorem Value.ofJson_toJson_iff {v : Value} : ofJson v.toJson = v ↔ v.IsPlain := by
  constructor
  · intro h
    cases v with
    | null => exact .null
    | bool b => exact .bool b
    | int n => exact .int n
    | float x =>
      cases x with
      | finite x => exact .float x
      | _ => cases h
    | text s => exact .text s
    | date t => cases h
    | json j =>
      cases j with
      | array items => exact .array items
      | object members => exact .object members
      | int n =>
        -- an integer is loaded as one or as a float, never as a document
        simp only [toJson, ofJson] at h
        split at h <;> cases h
      | _ => cases h
  · rintro (_ | _ | n | _ | _ | _ | _)
    case int => exact ofJson_toJson_int n
    all_goals rfl

namespace Choice

/-- A table entry as it comes back from JSON. -/
def reloaded (c : Choice) : Choice :=
  ⟨.ofJson c.value.toJson, c.text⟩

theorem ofJson?_toJson (c : Choice) : ofJson? c.toJson = some c.reloaded := rfl

theorem reloaded_eq_iff {c : Choice} : c.reloaded = c ↔ c.value.IsPlain := by
  obtain ⟨value, text⟩ := c
  rw [reloaded, mk.injEq, ← Value.ofJson_toJson_iff]
  exact and_iff_left rfl

theorem mapM_ofJson?_toJson (cs : List Choice) :
    (cs.map toJson).mapM ofJson? = some (cs.map reloaded) := by
  induction cs with
  | nil => rfl
  | cons c cs ih =>
    rw [List.map_cons, List.mapM_cons, ofJson?_toJson, ih]
    rfl

end Choice

namespace Property

/-! ## Reading back -/

/-- A description as it comes back from JSON. -/
def reloaded (p : Property) : Property :=
  { p with options := p.options.map (List.map Choice.reloaded) }

/-- A description whose table of options holds plain values only. -/
def IsPlain (p : Property) : Prop :=
  ∀ cs, p.options = some cs → ∀ c ∈ cs, c.value.IsPlain

theorem reloaded_eq_iff {p : Property} : p.reloaded = p ↔ p.IsPlain := by
  obtain ⟨key, kind, expand, expandText, options⟩ := p
  cases options with
  | none => simp [reloaded, IsPlain]
  | some cs =>
    have hsame : cs.map Choice.reloaded = cs ↔ ∀ c ∈ cs, c.reloaded = id c := by
      rw [← List.map_inj_left, List.map_id]
    simp only [reloaded, IsPlain, mk.injEq, true_and, Option.map_some, Option.some.injEq, hsame,
      forall_eq', id_eq, Choice.reloaded_eq_iff]

theorem lookup_optionalMember (name x : String) (value : Option Json) :
    (optionalMember name value).lookup x = if x = name then value else none := by
  cases value with
  | none => simp [optionalMember]
  | some j =>
    rw [optionalMember, lookup_entry]
    rfl

theorem readOptional_text (s : Option String) :
    readOptional Json.optionalText? (s.map .text) = some s := by
  cases s <;> rfl

theorem readOptional_choices (options : Option (List Choice)) :
    readOptional optionalChoices? (options.map fun cs => .array (cs.map Choice.toJson)) =
      some (options.map (List.map Choice.reloaded)) := by
  cases options with
  | none => rfl
  | some cs =>
    simp only [Option.map_some, readOptional, optionalChoices?, Choice.mapM_ofJson?_toJson]

theorem ofJson?_toJson (p : Property) : ofJson? p.toJson = some p.reloaded := by
  obtain ⟨key, kind, expand, expandText, options⟩ := p
  have hmember : ∀ {members : List (String × Json)} {j : Option Json},
      members.lookup "expand_text" = j → members.lookup "expandText" = none →
      expandTextMember? members = some j := by
    rintro members j rfl h
    rw [expandTextMember?, h]
    cases members.lookup "expand_text" <;> rfl
  simp only [toJson, ofJson?]
  rw [hmember rfl (by simp [lookup_entry, List.lookup_append, lookup_optionalMember])]
  simp [lookup_entry, List.lookup_append, lookup_optionalMember, ofMembers?, Json.text?,
    readOptional_text, readOptional_choices, reloaded]

/-! ## Spellings -/

/-- The two names of the member for the text. -/
def textNames : List String := ["expand_text", "expandText"]

/-- The names of the members that are read. -/
def memberNames : List String := "key" :: "type" :: "expand" :: "options" :: textNames

/-- The members of an object, spelled in another way: in another order, with the other name of the
member for the text, with a member that is not read, or after several such changes. -/
inductive Respelled : List (String × Json) → List (String × Json) → Prop
  | reordered {ms ns : List (String × Json)} (h : ms.Perm ns) : Respelled ms ns
  | renamed {a b : String} (ha : a ∈ textNames) (hb : b ∈ textNames)
    (before after : List (String × Json)) (j : Json) :
    Respelled (before ++ (a, j) :: after) (before ++ (b, j) :: after)
  | extended {name : String} {ms : List (String × Json)} (hunknown : name ∉ memberNames)
    (hnew : name ∉ ms.map Prod.fst) (j : Json) : Respelled ms ((name, j) :: ms)
  | trans {ls ms ns : List (String × Json)} (h : Respelled ls ms) (h' : Respelled ms ns) :
    Respelled ls ns

/-- With one of its names the member for the text is read if the other name is not there. -/
theorem expandTextMember?_eq_some_iff {ms : List (String × Json)} {a : String} (ha : a ∈ textNames)
    {j : Json} (hj : ms.lookup a = some j) {t : Option Json} :
    expandTextMember? ms = some t ↔
      t = some j ∧ ∀ c ∈ textNames, c ≠ a → c ∉ ms.map Prod.fst := by
  simp only [← lookup_eq_none_iff]
  simp only [textNames, List.mem_cons, List.not_mem_nil, or_false] at ha
  unfold expandTextMember?
  rcases ha with rfl | rfl
  · have hother : (∀ c ∈ textNames, c ≠ "expand_text" → ms.lookup c = none) ↔
        ms.lookup "expandText" = none := by simp [textNames]
    rw [hj, hother]
    cases ms.lookup "expandText" <;> simp [eq_comm]
  · have hother : (∀ c ∈ textNames, c ≠ "expandText" → ms.lookup c = none) ↔
        ms.lookup "expand_text" = none := by simp [textNames]
    rw [hj, hother]
    cases ms.lookup "expand_text" <;> simp [eq_comm]

theorem ofJson?_congr {ms ns : List (String × Json)}
    (htext : expandTextMember? ms = expandTextMember? ns)
    (h : ∀ name ∈ memberNames, name ∉ textNames → ms.lookup name = ns.lookup name) :
    ofJson? (.object ms) = ofJson? (.object ns) := by
  have hkey := h "key" (by decide) (by decide)
  have htype := h "type" (by decide) (by decide)
  have hexpand := h "expand" (by decide) (by decide)
  have hoptions := h "options" (by decide) (by decide)
  simp only [ofJson?, htext, hkey, htype, hexpand, hoptions]

/-- The member for the text reads the same under its other name. -/
theorem expandTextMember?_renamed {a b : String} (ha : a ∈ textNames) (hb : b ∈ textNames)
    {before after : List (String × Json)} {j : Json} {t : Option Json}
    (hnames : ((before ++ (a, j) :: after).map Prod.fst).Nodup)
    (h : expandTextMember? (before ++ (a, j) :: after) = some t) :
    ((before ++ (b, j) :: after).map Prod.fst).Nodup ∧
      expandTextMember? (before ++ (b, j) :: after) = some t := by
  have hfound : (before ++ (a, j) :: after).lookup a = some j :=
    lookup_of_mem hnames (e := (a, j)) (by simp)
  obtain ⟨rfl, halone⟩ := (expandTextMember?_eq_some_iff ha hfound).mp h
  simp only [List.map_append, List.map_cons, List.nodup_middle, List.nodup_cons] at hnames ⊢
  -- neither name is among the other members
  have hnone : ∀ c ∈ textNames, c ∉ before.map Prod.fst ++ after.map Prod.fst := by
    intro c hc
    by_cases hca : c = a
    · exact hca ▸ hnames.1
    · have hnot := halone c hc hca
      simp only [List.map_append, List.map_cons, List.mem_append, List.mem_cons] at hnot ⊢
      tauto
  have hnodup : ((before ++ (b, j) :: after).map Prod.fst).Nodup := by
    simp only [List.map_append, List.map_cons, List.nodup_middle, List.nodup_cons]
    exact ⟨hnone b hb, hnames.2⟩
  have hrenamed : (before ++ (b, j) :: after).lookup b = some j :=
    lookup_of_mem hnodup (e := (b, j)) (by simp)
  refine ⟨⟨hnone b hb, hnames.2⟩, (expandTextMember?_eq_some_iff hb hrenamed).mpr ⟨rfl, ?_⟩⟩
  intro c hc hcb
  have hnot := hnone c hc
  simp only [List.map_append, List.map_cons, List.mem_append, List.mem_cons] at hnot ⊢
  tauto

/-- Another spelling of an object that is read is an object that reads the same. -/
theorem Respelled.ofJson?_eq {ms ns : List (String × Json)} (h : Respelled ms ns) {p : Property}
    (hnames : (ms.map Prod.fst).Nodup) (hread : ofJson? (.object ms) = some p) :
    (ns.map Prod.fst).Nodup ∧ ofJson? (.object ns) = some p := by
  induction h with
  | reordered h =>
    have hlookup := lookup_perm h hnames
    refine ⟨(h.map Prod.fst).nodup_iff.mp hnames, ?_⟩
    rw [← hread]
    refine (ofJson?_congr ?_ fun name _ _ => hlookup name).symm
    simp only [expandTextMember?, hlookup]
  | @renamed a b ha hb before after j =>
    obtain ⟨t, ht, -⟩ := Option.bind_eq_some_iff.mp hread
    obtain ⟨hnodup, ht'⟩ := expandTextMember?_renamed ha hb hnames ht
    refine ⟨hnodup, ?_⟩
    rw [← hread]
    refine ofJson?_congr (ht'.trans ht.symm) fun name _ hname => ?_
    have hnot : ∀ {c : String}, c ∈ textNames → name ≠ c := by
      rintro c hc rfl
      exact hname hc
    rw [List.lookup_append, List.lookup_append, lookup_entry, lookup_entry, if_neg (hnot ha),
      if_neg (hnot hb)]
  | @extended name ms hunknown hnew j =>
    have hlookup : ∀ c ∈ memberNames, ((name, j) :: ms).lookup c = ms.lookup c := by
      rintro c hc
      rw [lookup_entry, if_neg]
      rintro rfl
      exact hunknown hc
    refine ⟨List.nodup_cons.mpr ⟨hnew, hnames⟩, ?_⟩
    rw [← hread]
    refine ofJson?_congr ?_ fun c hc _ => hlookup c hc
    simp only [expandTextMember?, hlookup "expand_text" (by decide), hlookup "expandText" (by decide)]
  | trans _ _ ih ih' =>
    obtain ⟨hnames', hread'⟩ := ih hnames hread
    exact ih' hnames' hread'

/-- **A description survives its JSON form**: it is read back as it was exactly if its table holds
plain values only, and every other spelling of an object that is read as a description is read as
the same one. -/
theorem ofJson?_spellings :
    (∀ p : Property, ofJson? p.toJson = some p ↔ p.IsPlain) ∧
      ∀ (ms ns : List (String × Json)) (p : Property), (ms.map Prod.fst).Nodup →
        ofJson? (.object ms) = some p → Respelled ms ns → ofJson? (.object ns) = some p := by
  refine ⟨fun p => ?_, fun ms ns p hnames hread h => (h.ofJson?_eq hnames hread).2⟩
  rw [ofJson?_toJson, Option.some.injEq, reloaded_eq_iff]

/-- A lookup property whose table mixes kinds of values. -/
def doctor : Property where
  key := "IDDOCTOR"
  kind := some "ref"
  expand := none
  expandText := some "Name"
  options := some [⟨.float (.zero true), "none"⟩, ⟨.int 0, "all"⟩, ⟨.json (.array [.null]), "any"⟩]

theorem doctor_isPlain : doctor.IsPlain := by
  rintro cs ⟨⟩ c hc
  simp only [List.mem_cons, List.not_mem_nil, or_false] at hc
  rcases hc with rfl | rfl | rfl
  · exact .float _
  · exact .int 0
  · exact .array _

/-- The members of the property. -/
def doctorMembers : List (String × Json) :=
  [("key", .text "IDDOCTOR"), ("type", .text "ref"), ("expand_text", .text "Name"),
    ("options", .array ((doctor.options.getD []).map Choice.toJson))]

/-- The other way round, with the other name for the text and a member of no meaning. -/
def doctorRespelled : List (String × Json) :=
  [("options", .array ((doctor.options.getD []).map Choice.toJson)), ("expandText", .text "Name"),
    ("type", .text "ref"), ("key", .text "IDDOCTOR"), ("version", .null)]

theorem respelled_doctorMembers : Respelled doctorMembers doctorRespelled :=
  .trans (.renamed (b := "expandText") (by decide) (by decide) (doctorMembers.take 2) _ _)
    (.trans (.extended (show "version" ∉ memberNames by decide) (by decide) .null)
      (.reordered (List.reverse_perm _).symm))

theorem doctor_spellings :
    doctor.IsPlain ∧ ofJson? doctor.toJson = some doctor ∧ (doctorMembers.map Prod.fst).Nodup ∧
      Respelled doctorMembers doctorRespelled ∧
      ofJson? (.object doctorRespelled) = some doctor := by
  have hread := (ofJson?_spellings.1 doctor).mpr doctor_isPlain
  have hnames : (doctorMembers.map Prod.fst).Nodup := by decide
  exact ⟨doctor_isPlain, hread, hnames, respelled_doctorMembers,
    ofJson?_spellings.2 doctorMembers _ doctor hnames hread respelled_doctorMembers⟩

end Property

end EntityQuery
