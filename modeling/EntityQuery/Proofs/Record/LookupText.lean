import EntityQuery.Proofs.Record.Boxing
import EntityQuery.Proofs.Record.Entries

/-!
# The text of a lookup box

A text that the record gives to a property stands above the options when the field of the property
becomes a lookup box (`Record.get?_replace_lookup`). Without one the text slot of the options acts on
the text of the lookup box that the field held (`Box.text_ofField`).

A navigation property is the only source of its property. `Record.replace_text` says what the text is
when the related record has the member that is asked for and when it has none; a table of options is
searched in neither case. `Record.shift_without_text` is a record whose value is in the table.
-/

namespace EntityQuery

/-! ## Members of related records -/

/-- A member of the object that a field holds, loose or in a box. -/
def Field.member? (f : Field) (key : String) : Option Json :=
  match f.toValue with
  | .json (.object members) => members.lookup key
  | _ => none

theorem Value.isNull_ofJson {j : Json} : (ofJson j).isNull = true ↔ j = .null := by
  cases j with
  | int n =>
    simp only [ofJson]
    split <;> simp [isNull]
  | _ => simp [ofJson, isNull]

theorem Record.exists_of_member? {r : Record} {nav key : String} {v : Value}
    (h : r.member? nav key = some v) :
    ∃ f j, r.get? nav = some f ∧ f.member? key = some j ∧ Value.ofJson j = v := by
  unfold Record.member? at h
  split at h
  · rename_i members hget
    obtain ⟨j, hj, hv⟩ := Option.map_eq_some_iff.mp h
    exact ⟨_, j, hget, hj, hv⟩
  · cases h

namespace Property

variable {p : Property} {r : Record} {nav member : String}

theorem lookupText?_of_member (hexpand : p.expand = some nav) (htext : p.expandText = some member)
    {members : List (String × Json)} (hnav : r.get? nav = some (.raw (.json (.object members))))
    {j : Json} (hj : members.lookup member = some j) (hnull : j ≠ .null) :
    p.lookupText? r = some (Value.ofJson j).display := by
  have hmember : r.member? nav member = some (Value.ofJson j) := by
    rw [Record.member?, hnav]
    exact congrArg (Option.map Value.ofJson) hj
  simp only [lookupText?, hexpand, htext, hmember]
  exact if_neg (mt Value.isNull_ofJson.mp hnull)

/-- With a navigation property there is no other source. -/
theorem lookupText?_of_no_member (hexpand : p.expand = some nav)
    (htext : p.expandText = some member)
    (hnone : ∀ f j, r.get? nav = some f → f.member? member = some j → j = .null) :
    p.lookupText? r = none := by
  simp only [lookupText?, hexpand, htext]
  cases hv : r.member? nav member with
  | none => rfl
  | some v =>
    obtain ⟨f, j, hget, hj, rfl⟩ := Record.exists_of_member? hv
    exact if_pos (Value.isNull_ofJson.mpr (hnone f j hget hj))

end Property

/-! ## The box of a field -/

namespace Record

/-- The lookup box in a field, if there is one. -/
def lookupBox? (r : Record) (key : String) : Option (Box .lookup) :=
  (r.box? key).bind (AnyBox.ofFamily? .lookup)

end Record

namespace Box

variable {o : Options .lookup}

/-- Without a lookup box there is no text to keep. -/
theorem text_ofField (r : Record) (key : String) (o : Options .lookup) :
    (ofField (r.get? key) o).settings.text =
      o.settings.resolve ((r.lookupBox? key).bind fun b => b.settings.text) := by
  unfold Record.lookupBox? Record.box?
  rcases r.get? key with - | v | ⟨F, b⟩
  · rfl
  · rfl
  · cases F <;> rfl

/-- A new lookup box shows its text, unless the options say how to show it. -/
theorem display_ofField {r : Record} {key : String} (h : r.lookupBox? key = none)
    (ho : o.converters.formatify = .inherit) :
    (ofField (r.get? key) o).display = ((ofField (r.get? key) o).settings.text).getD "" := by
  have hseed : ∀ v, (ofSeed v o).display = (ofSeed v o).settings.text.getD "" := by
    intro v
    simp only [display, Converters.display, ofSeed, blank, ConverterOverrides.apply, ho]
    rfl
  unfold Record.lookupBox? Record.box? at h
  -- a box of another family is a seed like a loose value
  generalize r.get? key = field at h ⊢
  rcases field with - | v | ⟨F, b⟩
  · exact hseed _
  · exact hseed _
  · cases F with
    | lookup => cases h
    | _ => exact hseed _

end Box

namespace Record

/-- The text that the record gives stands above the options. -/
theorem get?_replace_lookup (r : Record) (p : Property) (o : Options .lookup) :
    (r.replace p ⟨.lookup, o⟩).get? p.key = some (.boxed ⟨.lookup, Box.ofField (r.get? p.key)
      { o with settings := ((p.lookupText? r).map Slot.set).getD o.settings }⟩) := by
  rw [replace, Entries.get?_insert, if_pos rfl, boxFor, Property.optionsIn]
  cases p.lookupText? r <;> rfl

/-- **The sources of a text** for a property with a navigation property: the member of the related
record, and otherwise the options and the box that was there. -/
theorem replace_text {p : Property} {nav member : String} (hexpand : p.expand = some nav)
    (htext : p.expandText = some member) (r : Record) (o : Options .lookup) :
    ∃ b : Box .lookup, (r.replace p ⟨.lookup, o⟩).get? p.key = some (.boxed ⟨.lookup, b⟩) ∧
      (∀ members j, r.get? nav = some (.raw (.json (.object members))) →
        members.lookup member = some j → j ≠ .null →
          b.settings.text = some (Value.ofJson j).display) ∧
      ((∀ f j, r.get? nav = some f → f.member? member = some j → j = .null) →
        b.settings.text =
            o.settings.resolve ((r.lookupBox? p.key).bind fun held => held.settings.text) ∧
          (r.lookupBox? p.key = none → o.settings = .inherit → o.converters.formatify = .inherit →
            b.settings.text = none ∧ b.display = "")) := by
  refine ⟨_, get?_replace_lookup r p o, ?_, ?_⟩
  · intro members j hnav hj hnull
    rw [Box.text_ofField, Property.lookupText?_of_member hexpand htext hnav hj hnull]
    rfl
  · intro hnone
    rw [Property.lookupText?_of_no_member hexpand htext hnone]
    refine ⟨Box.text_ofField r p.key o, fun hheld hsettings hformatify => ?_⟩
    have hempty : (Box.ofField (r.get? p.key) o).settings.text = none := by
      rw [Box.text_ofField, hheld, hsettings]
      rfl
    have hdisplay : (Box.ofField (r.get? p.key) o).display = "" := by
      rw [Box.display_ofField hheld hformatify, hempty]
      rfl
    exact ⟨hempty, hdisplay⟩

/-- A shift with a navigation property and a table. -/
def shift : Property :=
  ⟨"SHIFT", none, some "Shift", some "Name", some [⟨.int 1, "Morning"⟩, ⟨.int 2, "Evening"⟩]⟩

/-- A duty in the second shift, with the name of the related record. -/
def duty (name : Json) : Record :=
  .ofJson (.object [("SHIFT", .int (.ofInt64 2)), ("Shift", .object [("Name", name)])])

/-- The name of the related shift is the text, and without a name there is none. -/
theorem duty_texts :
    (∃ b : Box .lookup, ((duty (.text "Late")).replace shift ⟨.lookup, .keep⟩).get? "SHIFT" =
      some (.boxed ⟨.lookup, b⟩) ∧ b.settings.text = some "Late") ∧
    ∃ b : Box .lookup, ((duty .null).replace shift ⟨.lookup, .keep⟩).get? "SHIFT" =
      some (.boxed ⟨.lookup, b⟩) ∧ b.settings.text = none ∧ b.display = "" := by
  have hexpand : shift.expand = some "Shift" := rfl
  have htext : shift.expandText = some "Name" := rfl
  constructor
  · obtain ⟨b, hb, hmember, -⟩ := replace_text hexpand htext (duty (.text "Late")) .keep
    exact ⟨b, hb, hmember _ (.text "Late") rfl rfl nofun⟩
  · obtain ⟨b, hb, -, hnone⟩ := replace_text hexpand htext (duty .null) .keep
    have hnull : ∀ f j, (duty .null).get? "Shift" = some f → f.member? "Name" = some j →
        j = .null := by
      intro f j hf hj
      cases hf
      cases hj
      rfl
    exact ⟨b, hb, (hnone hnull).2 rfl rfl rfl⟩

/-- **The table is not searched**: the value of a shift without a related record is in the table,
but its box has no text. -/
theorem shift_without_text :
    shift.expand = some "Shift" ∧ shift.expandText = some "Name" ∧
      ∃ table, shift.options = some table ∧ Choice.find? table (.int 2) = some "Evening" ∧
      ∃ r : Record, r.get? "Shift" = none ∧ r.get? "SHIFT" = some (.raw (.int 2)) ∧
      ∃ b : Box .lookup, (r.replace shift ⟨.lookup, .keep⟩).get? "SHIFT" =
        some (.boxed ⟨.lookup, b⟩) ∧ b.settings.text = none := by
  refine ⟨rfl, rfl, _, rfl, rfl, .ofJson (.object [("SHIFT", .int (.ofInt64 2))]), rfl, rfl, ?_⟩
  exact ⟨_, rfl, rfl⟩

end Record

end EntityQuery
