import EntityQuery.Proofs.Entity.Boxing

/-!
# The order of properties

A reordered definition is as good as the first one, and the fields of a boxed record are the same
but for lookup texts: a lookup property reads its text from a field that another property may box
before it or after it. `boxFields_perm` says when the texts are the same too: each lookup property
must stand on the same side of its navigation property, or find no text in the record as it came.
`visit_depends_on_order` is a record that comes out in two ways.
-/

namespace EntityQuery

/-- A field with the text of its lookup box removed. -/
def Field.withoutText : Field → Field
  | .raw v => .raw v
  | .boxed b => .boxed b.withoutText

/-! ## Records as they come -/

theorem Entries.get?_insertAll {α : Type} {P : α → Prop} {es : List (String × α)}
    (hes : ∀ e ∈ es, P e.2) {acc : Entries α} (hacc : ∀ x a, acc.get? x = some a → P a)
    {x : String} {a : α} (h : (acc.insertAll es).get? x = some a) : P a := by
  induction es generalizing acc with
  | nil => exact hacc x a h
  | cons e es ih =>
    obtain ⟨n, b⟩ := e
    have hinsert : ∀ y c, (acc.insert n b).get? y = some c → P c := by
      intro y c hget
      rw [get?_insert] at hget
      by_cases hy : y = n
      · rw [if_pos hy] at hget
        exact Option.some.inj hget ▸ hes (n, b) (by simp)
      · rw [if_neg hy] at hget
        exact hacc y c hget
    exact ih (fun e he => hes e (by simp [he])) hinsert h

/-- The fields of a record are loose as they come. -/
theorem Record.exists_raw {j : Json} {key : String} {f : Field}
    (h : (Record.ofJson j).get? key = some f) : ∃ v, f = .raw v := by
  cases j with
  | object members =>
    have hmembers : ∀ e ∈ members.map fun m => (m.1, Field.raw (.ofJson m.2)),
        ∃ v, e.2 = Field.raw v := by
      simp only [List.forall_mem_map]
      exact fun m _ => ⟨_, rfl⟩
    exact Entries.get?_insertAll (P := fun f => ∃ v, f = Field.raw v) hmembers
      (by simp [Entries.empty, Entries.get?]) h
  | _ => simp [ofJson, Entries.empty, Entries.get?] at h

namespace Schema

/-- Whether a property makes lookup boxes. -/
def IsLookup (s : Schema) (p : Property) : Prop :=
  ∃ o, s.typeFor? p = some o ∧ o.family = .lookup

theorem textInTurn?_congr {s s' : Schema} {r : Record} {p : Property}
    (h : s'.navFirst p = s.navFirst p ∨ p.lookupText? r = none) :
    s'.textInTurn? r p = s.textInTurn? r p := by
  unfold textInTurn?
  rcases h with h | h
  · rw [h]
  · rw [h, ite_self, ite_self]

theorem navFirst_eq_of_textInTurn?_eq {s s' : Schema} {r : Record} {p : Property}
    (h : s'.textInTurn? r p = s.textInTurn? r p) :
    s'.navFirst p = s.navFirst p ∨ p.lookupText? r = none := by
  unfold textInTurn? at h
  cases hfirst : s.navFirst p <;> cases hfirst' : s'.navFirst p <;> simp_all

end Schema

/-! ## Reordered definitions -/

namespace Definition

variable {d : Definition} {ps : List Property}

/-- A definition with its properties in another order. -/
def reordered (d : Definition) (ps : List Property) : Definition :=
  { d with properties := ps }

theorem typeOf?_reordered (hd : d.Consistent) (hps : ps.Perm d.properties) (key : String) :
    (d.reordered ps).schema.typeOf? key = d.schema.typeOf? key := by
  have hd' : (d.reordered ps).Consistent := hd.perm hps
  cases h : (d.reordered ps).schema.typeOf? key with
  | some o =>
    obtain ⟨p, hp, rfl, -, ho⟩ := Schema.typeOf?_eq_some h
    rw [Schema.typeOf?_of_mem hd.keys (hps.mem_iff.mp hp)]
    exact ho.symm
  | none =>
    cases h' : d.schema.typeOf? key with
    | none => rfl
    | some o =>
      obtain ⟨p, hp, rfl, -, ho⟩ := Schema.typeOf?_eq_some h'
      rw [Schema.typeOf?_of_mem hd'.keys (hps.mem_iff.mpr hp)] at h
      exact h.symm.trans ho

section Reordered

variable (hd : d.Consistent) (hps : ps.Perm d.properties)
include hd hps

theorem get?_boxFields_reordered {r : Record} {p : Property} {o : AnyOptions} {f : Field}
    (hp : p ∈ d.properties) (ho : d.schema.typeFor? p = some o) (hf : r.get? p.key = some f) :
    ((d.reordered ps).schema.boxFields r).get? p.key =
      some (.boxed ((o.withText ((d.reordered ps).schema.textInTurn? r p)).box f)) :=
  Schema.get?_boxFields_of_typed (s := (d.reordered ps).schema) (hd.perm hps).keys
    (hps.mem_iff.mpr hp) ho hf

theorem get?_boxFields_reordered_of_untouched {r : Record} {key : String}
    (h : d.schema.typeOf? key = none ∨ r.get? key = none) :
    ((d.reordered ps).schema.boxFields r).get? key = (d.schema.boxFields r).get? key := by
  rw [Schema.get?_boxFields_of_untouched (s := d.schema) hd.keys h]
  refine Schema.get?_boxFields_of_untouched (hd.perm hps).keys ?_
  rwa [← typeOf?_reordered hd hps] at h

theorem withoutText_reordered (r : Record) (key : String) :
    (((d.reordered ps).schema.boxFields r).get? key).map Field.withoutText =
      ((d.schema.boxFields r).get? key).map Field.withoutText := by
  rcases d.schema.untouched_or_typed r key with h | ⟨p, hp, o, f, rfl, ho, hf⟩
  · rw [get?_boxFields_reordered_of_untouched hd hps h]
  · rw [get?_boxFields_reordered hd hps hp ho hf,
      Schema.get?_boxFields_of_typed hd.keys hp ho hf]
    simp only [Option.map_some, Field.withoutText, AnyOptions.withoutText_box]

theorem boxFields_reordered {r : Record}
    (h : ∀ p ∈ d.properties, d.schema.IsLookup p → r.contains p.key = true →
      (d.reordered ps).schema.textInTurn? r p = d.schema.textInTurn? r p) :
    (d.reordered ps).schema.boxFields r = d.schema.boxFields r := by
  refine Entries.ext_get? ?_ fun key => ?_
  · rw [Schema.names_boxFields, Schema.names_boxFields]
  rcases d.schema.untouched_or_typed r key with hkey | ⟨p, hp, o, f, rfl, ho, hf⟩
  · exact get?_boxFields_reordered_of_untouched hd hps hkey
  · rw [get?_boxFields_reordered hd hps hp ho hf,
      Schema.get?_boxFields_of_typed hd.keys hp ho hf]
    by_cases hfamily : o.family = .lookup
    · rw [h p hp ⟨o, ho, hfamily⟩ (Entries.contains_eq_true_iff.mpr ⟨f, hf⟩)]
    · rw [AnyOptions.withText_of_ne_lookup hfamily, AnyOptions.withText_of_ne_lookup hfamily]

/-- The text of a new lookup box is the one that its property found. -/
theorem textInTurn?_of_boxFields_eq {j : Json}
    (h : (d.reordered ps).schema.boxFields (.ofJson j) = d.schema.boxFields (.ofJson j))
    {p : Property} (hp : p ∈ d.properties) (hlookup : d.schema.IsLookup p)
    (hcontains : (Record.ofJson j).contains p.key = true) :
    (d.reordered ps).schema.textInTurn? (.ofJson j) p =
      d.schema.textInTurn? (.ofJson j) p := by
  obtain ⟨o, ho, hfamily⟩ := hlookup
  have hkeeps := keepsText_of_typeFor? ho
  obtain ⟨f, hf⟩ := Entries.contains_eq_true_iff.mp hcontains
  obtain ⟨v, rfl⟩ := Record.exists_raw hf
  have hget := get?_boxFields_reordered hd hps hp ho hf
  rw [h, Schema.get?_boxFields_of_typed hd.keys hp ho hf] at hget
  have hbox := Field.boxed.inj (Option.some.inj hget)
  have htext := congrArg AnyBox.text? hbox
  rw [AnyOptions.text?_box_raw hfamily hkeeps, AnyOptions.text?_box_raw hfamily hkeeps] at htext
  exact htext.symm

end Reordered

/-- **When the order of properties does not matter**: a reordered definition has a schema too, and
the records that the two make have the same fields but for lookup texts. They are the same exactly
if each lookup property of the record stands on the same side of its navigation property in both
orders, or the record gives it no text anyway. -/
theorem boxFields_perm {s : Schema} (h : d.toSchema = .ok s) (hps : ps.Perm d.properties) :
    ∃ s', (d.reordered ps).toSchema = .ok s' ∧ ∀ j : Json,
      (s'.boxFields (.ofJson j)).names = (s.boxFields (.ofJson j)).names ∧
      (∀ key, ((s'.boxFields (.ofJson j)).get? key).map Field.withoutText =
        ((s.boxFields (.ofJson j)).get? key).map Field.withoutText) ∧
      (s'.boxFields (.ofJson j) = s.boxFields (.ofJson j) ↔
        ∀ p ∈ d.properties, s.IsLookup p → (Record.ofJson j).contains p.key = true →
          s'.navFirst p = s.navFirst p ∨ p.lookupText? (.ofJson j) = none) := by
  obtain ⟨hd, rfl⟩ := toSchema_eq_ok.mp h
  refine ⟨(d.reordered ps).schema, toSchema_eq_ok.mpr ⟨hd.perm hps, rfl⟩, fun j => ?_⟩
  refine ⟨?_, withoutText_reordered hd hps _, ?_, ?_⟩
  · rw [Schema.names_boxFields, Schema.names_boxFields]
  · intro heq p hp hlookup hcontains
    exact Schema.navFirst_eq_of_textInTurn?_eq
      (textInTurn?_of_boxFields_eq hd hps heq hp hlookup hcontains)
  · intro hsides
    refine boxFields_reordered hd hps fun p hp hlookup hcontains => ?_
    exact Schema.textInTurn?_congr (hsides p hp hlookup hcontains)

/-- The properties of a visit with the doctor's record first. -/
def doctorFirst : List Property :=
  [⟨"Doctor", some "plain", none, none, none⟩,
    ⟨"IDDOCTOR", some "doctor", some "Doctor", some "Name", none⟩,
    ⟨"PAID", some "flag", none, none, none⟩,
    ⟨"NOTE", none, none, none, none⟩]

/-- A visit without a doctor comes out the same in both orders. -/
theorem unattended_visit_perm :
    visits.toSchema = .ok visits.schema ∧ doctorFirst.Perm visits.properties ∧
      ∃ s', (visits.reordered doctorFirst).toSchema = .ok s' ∧
        s'.boxFields (.ofJson (.object [("IDDOCTOR", .null), ("Doctor", .null)])) =
          visits.schema.boxFields (.ofJson (.object [("IDDOCTOR", .null), ("Doctor", .null)])) := by
  have h : visits.toSchema = .ok visits.schema := rfl
  have hps : doctorFirst.Perm visits.properties := .swap _ _ _
  obtain ⟨s', hs', hrecords⟩ := boxFields_perm h hps
  refine ⟨h, hps, s', hs', (hrecords _).2.2.mpr ?_⟩
  have hnone : ∀ p ∈ visits.properties, visits.schema.IsLookup p →
      p.lookupText? (.ofJson (.object [("IDDOCTOR", .null), ("Doctor", .null)])) = none := by
    simp only [visits, List.forall_mem_cons]
    refine ⟨fun _ => rfl, ?_, ?_, ?_, by simp⟩
    all_goals
      rintro ⟨o, ho, hfamily⟩
      cases ho
    all_goals cases hfamily
  exact fun p hp hlookup _ => Or.inr (hnone p hp hlookup)

/-- **The order of properties matters**: with the doctor's record boxed first, the doctor of a visit
has no name. -/
theorem visit_depends_on_order :
    visits.toSchema = .ok visits.schema ∧
      (visits.reordered doctorFirst).toSchema = .ok (visits.reordered doctorFirst).schema ∧
      doctorFirst.Perm visits.properties ∧
      ((visits.schema.boxFields (.ofJson visit)).box? "IDDOCTOR").bind AnyBox.text? =
        some "Dr. Grey" ∧
      (((visits.reordered doctorFirst).schema.boxFields (.ofJson visit)).box? "IDDOCTOR").bind
        AnyBox.text? = none ∧
      (visits.reordered doctorFirst).schema.boxFields (.ofJson visit) ≠
        visits.schema.boxFields (.ofJson visit) := by
  refine ⟨rfl, rfl, .swap _ _ _, rfl, rfl, fun h => ?_⟩
  have htext := congrArg (fun r : Record => (r.box? "IDDOCTOR").bind AnyBox.text?) h
  cases htext

end Definition

end EntityQuery
