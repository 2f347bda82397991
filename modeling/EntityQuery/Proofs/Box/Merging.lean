import EntityQuery.Box.Basic

/-!
# Options on top of options

Building a box from a box, and again with other options, is building it once with the merged options
(`Box.ofBox_ofBox`): each slot is that of the later options unless they inherit it. So a chain of
options acts as one set of options (`Box.foldl_ofBox`), in which the last word on a slot counts,
also when it clears the slot.

The same holds of a box that is built from a loose value and then from itself, since an empty box of
a family with some options is the plain empty one built again (`Box.blank_eq`). Only the content can
tell: the text of a number is read with the parser and the settings of the options that it meets
first, and no content but that one depends on the options (`Box.contentOfSeed_congr`).
-/

namespace EntityQuery

/-! ## Merging -/

/-- Overrides of the settings of a number box, the second ones on top. -/
def NumberOverrides.merge (first second : NumberOverrides) : NumberOverrides where
  useGrouping := second.useGrouping.or first.useGrouping
  fractionDigits := first.fractionDigits.merge second.fractionDigits
  minimumIntegerDigits := first.minimumIntegerDigits.merge second.minimumIntegerDigits

/-- Overrides of the settings of a family, the second ones on top. -/
def Family.mergeOverrides : (F : Family) → F.Overrides → F.Overrides → F.Overrides
  | .value, _, _ => ()
  | .bool, first, second => Option.or second first
  | .date, first, second => Option.or second first
  | .number, first, second => NumberOverrides.merge first second
  | .lookup, first, second => Slot.merge first second

/-- Overrides of converters, the second ones on top. -/
def ConverterOverrides.merge {F : Family} (first second : ConverterOverrides F) :
    ConverterOverrides F where
  stringify := first.stringify.merge second.stringify
  parse := first.parse.merge second.parse
  formatify := first.formatify.merge second.formatify
  htmlify := first.htmlify.merge second.htmlify

/-- Options on top of others: each slot is the second one unless that inherits. -/
def Options.merge {F : Family} (first second : Options F) : Options F where
  kind := first.kind.merge second.kind
  settings := F.mergeOverrides first.settings second.settings
  converters := first.converters.merge second.converters

namespace Family

variable (F : Family)

theorem resolveSettings_merge (first second : F.Overrides) (s : F.Settings) :
    F.resolveSettings (F.mergeOverrides first second) s =
      F.resolveSettings second (F.resolveSettings first s) := by
  cases F with
  | value => rfl
  | bool | date => simp only [mergeOverrides, resolveSettings, Option.getD_or]
  | number =>
    simp only [mergeOverrides, NumberOverrides.merge, resolveSettings, Option.getD_or,
      Slot.resolve_merge]
  | lookup => simp only [mergeOverrides, resolveSettings, Slot.resolve_merge]

@[simp] theorem resolveSettings_keep (s : F.Settings) : F.resolveSettings F.keepSettings s = s := by
  cases F <;> rfl

end Family

namespace ConverterOverrides

variable {F : Family}

theorem apply_merge (first second : ConverterOverrides F) (base : Converters F) :
    (first.merge second).apply base = second.apply (first.apply base) := by
  simp only [merge, apply, Slot.resolve_merge]

@[simp] theorem apply_keep (base : Converters F) : (keep : ConverterOverrides F).apply base = base :=
  rfl

end ConverterOverrides

namespace Box

variable {F : Family}

/-! ## Boxes from boxes -/

/-- One step: the later options act on what the earlier ones left. -/
theorem ofBox_ofBox (b : Box F) (first second : Options F) :
    ofBox (ofBox b first) second = ofBox b (first.merge second) := by
  simp only [ofBox, Options.merge, Slot.resolve_merge, Family.resolveSettings_merge,
    ConverterOverrides.apply_merge]

theorem ofBox_keep (b : Box F) : ofBox b .keep = b := by
  simp only [ofBox, Options.keep, Slot.resolve_inherit, Family.resolveSettings_keep,
    ConverterOverrides.apply_keep]

/-- A run: a chain of options is one set of options. -/
theorem foldl_ofBox (chain : List (Options F)) (b : Box F) (first : Options F) :
    chain.foldl ofBox (ofBox b first) = ofBox b (chain.foldl .merge first) := by
  induction chain generalizing first with
  | nil => rfl
  | cons o chain ih => rw [List.foldl_cons, List.foldl_cons, ofBox_ofBox, ih]

/-! ## Boxes from loose values -/

theorem blank_eq (o : Options F) : blank o = ofBox (blank .keep) o := by
  simp only [blank, ofBox, Options.keep, Slot.resolve_inherit, Family.resolveSettings_keep,
    ConverterOverrides.apply_keep]

theorem ofBox_blank (first second : Options F) :
    ofBox (blank first) second = blank (first.merge second) := by
  rw [blank_eq first, blank_eq (first.merge second), ofBox_ofBox]

/-- Only the text of a number is read with the help of the box. -/
theorem contentOfSeed_congr {seed : Value} (h : F = .number → seed.text? = none) (b b' : Box F) :
    b.contentOfSeed seed = b'.contentOfSeed seed := by
  cases F with
  | number => simp only [contentOfSeed, h rfl]
  | _ => rfl

/-- A box that is built from a loose value and then from itself keeps the content that the first
options gave it. -/
theorem ofBox_ofSeed (seed : Value) (first second : Options F) :
    ofBox (ofSeed seed first) second =
      { ofSeed seed (first.merge second) with value := (ofSeed seed first).value } := by
  have hblank : ofBox (ofSeed seed first) second =
      { ofBox (blank first) second with value := (ofSeed seed first).value } := rfl
  rw [hblank, ofBox_blank]
  rfl

/-- **Override slots compose**, for boxes built from boxes along a chain of options of any length, and
for boxes built from loose values. Options that keep everything change nothing, and no options
change the content of a box. -/
theorem overrides_compose (F : Family) (first second : Options F) :
    (∀ b : Box F,
      ofBox (ofBox b first) second = ofBox b (first.merge second) ∧
      (∀ chain : List (Options F), chain.foldl ofBox b = ofBox b (chain.foldl .merge .keep)) ∧
      ofBox b .keep = b ∧
      (ofBox b first).value = b.value) ∧
    ∀ seed : Value,
      ofBox (ofSeed seed first) second =
          { ofSeed seed (first.merge second) with value := (ofSeed seed first).value } ∧
        ((F = .number → seed.text? = none) →
          ofBox (ofSeed seed first) second = ofSeed seed (first.merge second)) := by
  refine ⟨fun b => ⟨ofBox_ofBox b first second, fun chain => ?_, ofBox_keep b, rfl⟩, fun seed => ?_⟩
  · rw [← foldl_ofBox, ofBox_keep]
  · refine ⟨ofBox_ofSeed seed first second, fun hseed => ?_⟩
    have hvalue : (ofSeed seed first).value = (ofSeed seed (first.merge second)).value :=
      contentOfSeed_congr hseed _ _
    rw [ofBox_ofSeed, hvalue]

/-- An amount has two decimals and grouped thousands. -/
def amount : Options .number :=
  { (.keep : Options .number) with
    kind := .set "amount"
    settings := { useGrouping := some true, fractionDigits := .set 2, minimumIntegerDigits := .inherit } }

/-- No fixed decimals, and nothing to read texts with. -/
def freed : Options .number :=
  { (.keep : Options .number) with
    settings := { useGrouping := none, fractionDigits := .clear, minimumIntegerDigits := .inherit }
    converters := { (.keep : ConverterOverrides .number) with parse := .clear } }

/-- What the later options clear is gone, though the earlier ones set it or the family has it. -/
theorem freed_amount :
    (Value.int 5).text? = none ∧
      ofBox (ofSeed (.int 5) amount) freed = ofSeed (.int 5) (amount.merge freed) ∧
      (ofSeed (.int 5) (amount.merge freed)).kind = some "amount" ∧
      (ofSeed (.int 5) (amount.merge freed)).settings = ⟨true, none, none⟩ ∧
      (ofSeed (.int 5) (amount.merge freed)).converters.parse.isNone = true ∧
      (ofSeed (.int 5) (amount.merge freed)).converters.formatify.isSome = true := by
  have htext : (Value.int 5).text? = none := rfl
  obtain ⟨-, hseeds⟩ := overrides_compose .number amount freed
  exact ⟨htext, (hseeds (.int 5)).2 fun _ => htext, rfl, rfl, rfl, rfl⟩

end Box

end EntityQuery
