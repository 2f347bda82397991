/-!
# Ordered entries

Finite maps from names to values that keep the order in which the names came. Setting a known name
keeps its place; a new one comes last. No name occurs twice.
-/

namespace EntityQuery

/-- Set a name in a list of entries. -/
def setEntry {α : Type} (name : String) (a : α) : List (String × α) → List (String × α)
  | [] => [(name, a)]
  | (n, b) :: es => if n = name then (n, a) :: es else (n, b) :: setEntry name a es

theorem mem_names_setEntry {α : Type} {name x : String} {a : α} {es : List (String × α)} :
    x ∈ (setEntry name a es).map Prod.fst ↔ x = name ∨ x ∈ es.map Prod.fst := by
  induction es with
  | nil => simp [setEntry]
  | cons e es ih =>
    obtain ⟨n, b⟩ := e
    simp only [setEntry]
    split
    · rename_i h
      subst h
      simp only [List.map_cons, List.mem_cons]
      constructor
      · exact Or.inr
      · rintro (h | h)
        · exact Or.inl h
        · exact h
    · simp only [List.map_cons, List.mem_cons, ih]
      constructor
      · rintro (h | h | h)
        · exact Or.inr (Or.inl h)
        · exact Or.inl h
        · exact Or.inr (Or.inr h)
      · rintro (h | h | h)
        · exact Or.inr (Or.inl h)
        · exact Or.inl h
        · exact Or.inr (Or.inr h)

theorem nodup_names_setEntry {α : Type} {name : String} {a : α} {es : List (String × α)}
    (h : (es.map Prod.fst).Nodup) : ((setEntry name a es).map Prod.fst).Nodup := by
  induction es with
  | nil => simp [setEntry]
  | cons e es ih =>
    obtain ⟨n, b⟩ := e
    simp only [List.map_cons, List.nodup_cons] at h
    simp only [setEntry]
    split
    · simpa only [List.map_cons, List.nodup_cons] using h
    · rename_i hn
      simp only [List.map_cons, List.nodup_cons]
      refine ⟨fun hmem => ?_, ih h.2⟩
      rcases mem_names_setEntry.1 hmem with h' | h'
      · exact hn h'
      · exact h.1 h'

/-- Entries with distinct names, in order. -/
structure Entries (α : Type) where
  toList : List (String × α)
  nodup : (toList.map Prod.fst).Nodup

namespace Entries

variable {α β : Type}

/-- No entries. -/
def empty : Entries α :=
  ⟨[], List.nodup_nil⟩

instance : Inhabited (Entries α) := ⟨empty⟩

/-- The value of a name. -/
def get? (es : Entries α) (name : String) : Option α :=
  es.toList.lookup name

/-- Whether a name has an entry. -/
def contains (es : Entries α) (name : String) : Bool :=
  (es.get? name).isSome

/-- Set a name, in its place if it is known and at the end if it is new. -/
def insert (es : Entries α) (name : String) (a : α) : Entries α :=
  ⟨setEntry name a es.toList, nodup_names_setEntry es.nodup⟩

/-- Set names one after the other. -/
def insertAll (es : Entries α) : List (String × α) → Entries α
  | [] => es
  | (name, a) :: rest => (es.insert name a).insertAll rest

/-- The entries of a list: a repeated name keeps its first place and takes its last value. -/
def ofList (es : List (String × α)) : Entries α :=
  empty.insertAll es

/-- The names in order. -/
def names (es : Entries α) : List String :=
  es.toList.map Prod.fst

/-- The number of entries. -/
def size (es : Entries α) : Nat :=
  es.toList.length

/-- Change every value by its name. -/
def mapValues (f : String → α → β) (es : Entries α) : Entries β :=
  ⟨es.toList.map fun e => (e.1, f e.1 e.2), by
    have h : (es.toList.map fun e => (e.1, f e.1 e.2)).map Prod.fst = es.toList.map Prod.fst := by
      simp [Function.comp_def]
    rw [h]
    exact es.nodup⟩

end Entries

end EntityQuery
