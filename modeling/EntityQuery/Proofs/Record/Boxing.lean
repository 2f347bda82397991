import EntityQuery.Record.Replace

/-!
# Building the box of a field

`AnyOptions.box` is the box that options make of a field, and `AnyOptions.withText` puts a lookup
text on top of options. A box fits options that leave its kind, settings and converters as they are.
Every box fits the options that it was built with (`Box.fits_ofField`), from whatever it was built,
since a slot that acts twice acts once. A box that fits options is its own copy under them
(`Box.Fits.ofBox_eq`), so building a box again changes nothing, also when the second building finds
no text where the first one did (`AnyOptions.box_box`).

The text that a record gives to a property depends on two of its fields alone: that of the property,
by its value, and that of the navigation property (`Property.lookupText?_congr`). A navigation
property whose field is a box gives none.
-/

namespace EntityQuery

/-! ## Slots that act twice -/

@[simp] theorem Slot.resolve_resolve {α : Type} (s : Slot α) (base : Option α) :
    s.resolve (s.resolve base) = s.resolve base := by
  cases s <;> rfl

theorem Family.resolveSettings_twice (F : Family) (o : F.Overrides) (s : F.Settings) :
    F.resolveSettings o (F.resolveSettings o s) = F.resolveSettings o s := by
  cases F with
  | value => rfl
  | bool | date => cases o <;> rfl
  | number =>
    obtain ⟨grouping, -, -⟩ := o
    cases grouping <;> simp [resolveSettings]
  | lookup => simp [resolveSettings]

theorem ConverterOverrides.apply_twice {F : Family} (o : ConverterOverrides F)
    (base : Converters F) : o.apply (o.apply base) = o.apply base := by
  simp [apply]

/-! ## Boxes that fit options -/

namespace Box

variable {F : Family}

/-- Options that leave a box as it is. -/
structure Fits (b : Box F) (o : Options F) : Prop where
  kind : o.kind.resolve b.kind = b.kind
  settings : F.resolveSettings o.settings b.settings = b.settings
  converters : o.converters.apply b.converters = b.converters

theorem Fits.ofBox_eq {b : Box F} {o : Options F} (h : b.Fits o) : ofBox b o = b := by
  obtain ⟨⟨value, kind, settings⟩, converters⟩ := b
  obtain ⟨hkind, hsettings, hconverters⟩ := h
  simp only [ofBox, hkind, hsettings, hconverters]

theorem fits_ofBox (source : Box F) (o : Options F) : (ofBox source o).Fits o where
  kind := o.kind.resolve_resolve source.kind
  settings := F.resolveSettings_twice o.settings source.settings
  converters := o.converters.apply_twice source.converters

theorem fits_ofSeed (seed : Value) (o : Options F) : (ofSeed seed o).Fits o where
  kind := o.kind.resolve_resolve none
  settings := F.resolveSettings_twice o.settings F.defaultSettings
  converters := o.converters.apply_twice (Converters.defaults F)

theorem fits_ofField (field : Option Field) (o : Options F) : (ofField field o).Fits o := by
  unfold ofField
  split
  · split
    · exact fits_ofBox _ o
    · exact fits_ofSeed _ o
  · exact fits_ofSeed _ o
  · exact fits_ofSeed _ o

/-- A box built with a text also fits the options that keep the text. -/
theorem Fits.keepText {b : Box .lookup} {o : Options .lookup} {text : Slot String}
    (h : b.Fits { o with settings := text }) (ho : o.settings = .inherit) : b.Fits o where
  kind := h.kind
  settings := by rw [ho]; rfl
  converters := h.converters

end Box

theorem AnyBox.ofFamily?_self {F : Family} (b : Box F) : ofFamily? F ⟨F, b⟩ = some b := by
  simp [ofFamily?]

/-! ## Options of any family -/

namespace AnyOptions

/-- The box that options make of a field. -/
def box (o : AnyOptions) (f : Field) : AnyBox :=
  ⟨o.family, Box.ofField (some f) o.options⟩

/-- Options with a lookup text on top, if there is one. -/
def withText : AnyOptions → Option String → AnyOptions
  | ⟨.lookup, o⟩, some text => ⟨.lookup, { o with settings := .set text }⟩
  | o, _ => o

/-- Options that keep the text of a lookup box. -/
def KeepsText : AnyOptions → Prop
  | ⟨.lookup, o⟩ => o.settings = .inherit
  | _ => True

@[simp] theorem withText_none (o : AnyOptions) : o.withText none = o := by
  obtain ⟨F, o⟩ := o
  cases F <;> rfl

theorem withText_of_ne_lookup {o : AnyOptions} (h : o.family ≠ .lookup) (text : Option String) :
    o.withText text = o := by
  obtain ⟨F, o⟩ := o
  cases F with
  | lookup => exact absurd rfl h
  | _ => rfl

@[simp] theorem family_withText (o : AnyOptions) (text : Option String) :
    (o.withText text).family = o.family := by
  obtain ⟨F, o⟩ := o
  cases text with
  | none => rw [withText_none]
  | some text => cases F <;> rfl

@[simp] theorem kind_withText (o : AnyOptions) (text : Option String) :
    (o.withText text).options.kind = o.options.kind := by
  obtain ⟨F, o⟩ := o
  cases text with
  | none => rw [withText_none]
  | some text => cases F <;> rfl

theorem box_of_fits {o : AnyOptions} {b : Box o.family} (h : b.Fits o.options) :
    o.box (.boxed ⟨o.family, b⟩) = ⟨o.family, b⟩ := by
  have hbox : Box.ofField (some (.boxed ⟨o.family, b⟩)) o.options = Box.ofBox b o.options := by
    simp only [Box.ofField, AnyBox.ofFamily?_self]
  rw [box, hbox, h.ofBox_eq]

/-- Building a box again changes nothing, even if the text of a lookup box is no longer found. -/
theorem box_box {o : AnyOptions} (ho : o.KeepsText) {text text' : Option String}
    (h : o.family = .lookup → text' = text ∨ text' = none) (f : Field) :
    (o.withText text').box (.boxed ((o.withText text).box f)) = (o.withText text).box f := by
  have hagain : ∀ o : AnyOptions, o.box (.boxed (o.box f)) = o.box f := fun o =>
    box_of_fits (Box.fits_ofField _ _)
  by_cases hfamily : o.family = .lookup
  · rcases h hfamily with rfl | rfl
    · exact hagain _
    · obtain ⟨F, o⟩ := o
      obtain rfl : F = .lookup := hfamily
      cases text with
      | none => exact hagain _
      | some text => exact box_of_fits (o := ⟨.lookup, o⟩) ((Box.fits_ofField _ _).keepText ho)
  · rw [withText_of_ne_lookup hfamily, withText_of_ne_lookup hfamily, hagain]

theorem kind_box {o : AnyOptions} {kind : String} (h : o.options.kind = .set kind) (f : Field) :
    (o.box f).kind = some kind := by
  have hfits := (Box.fits_ofField (some f) o.options).kind
  rw [h] at hfits
  exact hfits.symm

/-- Value and lookup boxes hold what the field held. -/
theorem raw_box {o : AnyOptions} (h : o.family = .value ∨ o.family = .lookup) (f : Field) :
    (o.box f).raw = f.toValue := by
  obtain ⟨F, o⟩ := o
  cases f with
  | raw v => rcases h with rfl | rfl <;> rfl
  | boxed b =>
    obtain ⟨G, b⟩ := b
    rcases h with rfl | rfl <;> cases G <;> rfl

end AnyOptions

/-! ## Boxes but for their text -/

namespace AnyBox

/-- The text of a lookup box. -/
def text? : AnyBox → Option String
  | ⟨.lookup, b⟩ => b.settings.text
  | _ => none

/-- A box with the text of a lookup box removed. -/
def withoutText : AnyBox → AnyBox
  | ⟨.lookup, b⟩ => ⟨.lookup, { b with settings := { text := none } }⟩
  | b => b

end AnyBox

namespace AnyOptions

theorem withoutText_box (o : AnyOptions) (text : Option String) (f : Field) :
    ((o.withText text).box f).withoutText = (o.box f).withoutText := by
  obtain ⟨F, o⟩ := o
  cases text with
  | none => rw [withText_none]
  | some text =>
    cases F with
    | lookup =>
      cases f with
      | raw v => rfl
      | boxed b =>
        obtain ⟨G, b⟩ := b
        cases G <;> rfl
    | _ => rfl

theorem text?_box_raw {o : AnyOptions} (hfamily : o.family = .lookup) (ho : o.KeepsText)
    (text : Option String) (v : Value) : ((o.withText text).box (.raw v)).text? = text := by
  obtain ⟨F, o⟩ := o
  obtain rfl : F = .lookup := hfamily
  cases text with
  | none =>
    have hsettings : o.settings = Slot.inherit := ho
    have htext : ((AnyOptions.mk .lookup o).box (.raw v)).text? = o.settings.resolve none := rfl
    rw [withText_none, htext, hsettings]
    rfl
  | some text => rfl

end AnyOptions

/-! ## Texts from a record -/

namespace Property

theorem optionsIn_eq_withText (p : Property) (r : Record) (o : AnyOptions) :
    p.optionsIn r o = o.withText (p.lookupText? r) := by
  obtain ⟨F, o⟩ := o
  cases F with
  | lookup =>
    rw [optionsIn]
    cases p.lookupText? r <;> rfl
  | _ => rw [AnyOptions.withText_of_ne_lookup (by simp)]; rfl

theorem lookupText?_congr {p : Property} {r r' : Record}
    (hvalue : (r'.get? p.key).map Field.toValue = (r.get? p.key).map Field.toValue)
    (hnav : ∀ nav, p.expand = some nav → r'.get? nav = r.get? nav) :
    p.lookupText? r' = p.lookupText? r := by
  unfold lookupText?
  cases hexpand : p.expand with
  | none => simp only [hvalue]
  | some nav => simp only [Record.member?, hnav nav hexpand]

/-- Only a loose field gives a text to the properties that lead to it. -/
theorem lookupText?_eq_none {p : Property} {r : Record} {nav : String}
    (hexpand : p.expand = some nav) (h : ∀ v, r.get? nav ≠ some (.raw v)) :
    p.lookupText? r = none := by
  have hmember : ∀ key, r.member? nav key = none := by
    intro key
    unfold Record.member?
    split
    · rename_i members hget
      exact absurd hget (h _)
    · rfl
  unfold lookupText?
  rw [hexpand]
  cases p.expandText with
  | none => rfl
  | some key => simp only [hmember]

end Property

theorem Record.boxFor_eq {r : Record} {p : Property} {f : Field} (h : r.get? p.key = some f)
    (o : AnyOptions) : r.boxFor p o = (o.withText (p.lookupText? r)).box f := by
  rw [boxFor, h, p.optionsIn_eq_withText]
  rfl

end EntityQuery
