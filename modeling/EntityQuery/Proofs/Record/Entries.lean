import EntityQuery.Record.Entries

/-!
# Laws of ordered entries

Entries are known by their names and by the value of each name (`ext_get?`). Setting a name changes
the value of that name only, and where the name is known the names stay as they are.
-/

namespace EntityQuery

variable {α β : Type}

/-! ## Lists of entries -/

theorem lookup_entry (n x : String) (a : α) (es : List (String × α)) :
    ((n, a) :: es).lookup x = if x = n then some a else es.lookup x := by
  by_cases hx : x = n
  · simp [hx]
  · have hbeq : (x == n) = false := beq_eq_false_iff_ne.mpr hx
    rw [List.lookup_cons, hbeq, if_neg hx]

theorem lookup_setEntry (name x : String) (a : α) (es : List (String × α)) :
    (setEntry name a es).lookup x = if x = name then some a else es.lookup x := by
  induction es with
  | nil => rw [setEntry, lookup_entry]
  | cons e es ih =>
    obtain ⟨n, b⟩ := e
    by_cases hn : n = name
    · subst hn
      rw [setEntry, if_pos rfl, lookup_entry, lookup_entry]
      by_cases hx : x = n
      · rw [if_pos hx, if_pos hx]
      · rw [if_neg hx, if_neg hx, if_neg hx]
    · rw [setEntry, if_neg hn, lookup_entry, lookup_entry, ih]
      by_cases hx : x = n
      · have hname : x ≠ name := fun h => hn (hx.symm.trans h)
        rw [if_pos hx, if_neg hname, if_pos hx]
      · rw [if_neg hx, if_neg hx]

theorem names_setEntry {name : String} {es : List (String × α)} (h : name ∈ es.map Prod.fst)
    (a : α) : (setEntry name a es).map Prod.fst = es.map Prod.fst := by
  induction es with
  | nil => cases h
  | cons e es ih =>
    obtain ⟨n, b⟩ := e
    by_cases hn : n = name
    · simp [setEntry, hn]
    · have hmem : name ∈ es.map Prod.fst :=
        (List.mem_cons.mp h).resolve_left fun h => hn h.symm
      simp [setEntry, hn, ih hmem]

theorem setEntry_of_notMem {name : String} {es : List (String × α)} (h : name ∉ es.map Prod.fst)
    (a : α) : setEntry name a es = es ++ [(name, a)] := by
  induction es with
  | nil => rfl
  | cons e es ih =>
    obtain ⟨n, b⟩ := e
    rw [List.map_cons, List.mem_cons, not_or] at h
    rw [setEntry, if_neg (Ne.symm h.1), ih h.2, List.cons_append]

theorem lookup_isSome_iff {x : String} {es : List (String × α)} :
    (es.lookup x).isSome = true ↔ x ∈ es.map Prod.fst := by
  induction es with
  | nil => simp
  | cons e es ih =>
    obtain ⟨n, a⟩ := e
    by_cases hx : x = n <;> simp [lookup_entry, hx, ih]

theorem lookup_eq_none_iff {x : String} {es : List (String × α)} :
    es.lookup x = none ↔ x ∉ es.map Prod.fst := by
  rw [← lookup_isSome_iff, Option.not_isSome_iff_eq_none]

theorem mem_of_lookup_eq_some {x : String} {a : α} {es : List (String × α)}
    (h : es.lookup x = some a) : (x, a) ∈ es := by
  obtain ⟨before, after, rfl, -⟩ := List.lookup_eq_some_iff.mp h
  simp

theorem lookup_of_mem {es : List (String × α)} (hes : (es.map Prod.fst).Nodup) {e : String × α}
    (he : e ∈ es) : es.lookup e.1 = some e.2 := by
  induction es with
  | nil => cases he
  | cons e' es ih =>
    obtain ⟨n, a⟩ := e'
    rw [List.map_cons, List.nodup_cons] at hes
    rw [lookup_entry]
    rcases List.mem_cons.mp he with rfl | hmem
    · exact if_pos rfl
    · have hne : e.1 ≠ n := by
        rintro rfl
        exact hes.1 (List.mem_map.mpr ⟨e, hmem, rfl⟩)
      rw [if_neg hne, ih hes.2 hmem]

/-- Looking up does not see the order of entries with distinct names. -/
theorem lookup_perm {as bs : List (String × α)} (h : as.Perm bs) (has : (as.map Prod.fst).Nodup)
    (x : String) : as.lookup x = bs.lookup x := by
  cases hb : bs.lookup x with
  | some b => exact lookup_of_mem has (h.mem_iff.mpr (mem_of_lookup_eq_some hb))
  | none =>
    rw [lookup_eq_none_iff] at hb ⊢
    rwa [(h.map Prod.fst).mem_iff]

theorem eq_of_lookup_eq {as bs : List (String × α)} (has : (as.map Prod.fst).Nodup)
    (hnames : as.map Prod.fst = bs.map Prod.fst) (h : ∀ x, as.lookup x = bs.lookup x) :
    as = bs := by
  induction as generalizing bs with
  | nil => exact (List.map_eq_nil_iff.mp hnames.symm).symm
  | cons e as ih =>
    cases bs with
    | nil => cases hnames
    | cons e' bs =>
      obtain ⟨n, a⟩ := e
      obtain ⟨n', b⟩ := e'
      obtain ⟨rfl, hrest⟩ := List.cons.inj hnames
      rw [List.map_cons, List.nodup_cons] at has
      have hhead : a = b := by simpa using h n
      have htail : as = bs := by
        refine ih has.2 hrest fun x => ?_
        by_cases hx : x = n
        · -- the name of the first entry does not occur again on either side
          rw [hx, lookup_eq_none_iff.mpr has.1, lookup_eq_none_iff.mpr (hrest ▸ has.1)]
        · have hlookup := h x
          rw [lookup_entry, lookup_entry, if_neg hx, if_neg hx] at hlookup
          exact hlookup
      rw [hhead, htail]

/-- Of entries with distinct names, a selection by values has an entry for a name if it selects the
value of that name, and only one. -/
theorem count_names_filter {es : List (String × α)} (hes : (es.map Prod.fst).Nodup) (p : α → Bool)
    (x : String) : ((es.filter fun e => p e.2).map Prod.fst).count x =
      ((es.lookup x).any p).toNat := by
  induction es with
  | nil => rfl
  | cons e es ih =>
    obtain ⟨n, a⟩ := e
    rw [List.map_cons, List.nodup_cons] at hes
    have hcount : (((n, a) :: es).filter fun e => p e.2).map Prod.fst =
        (if p a then [n] else []) ++ (es.filter fun e => p e.2).map Prod.fst := by
      by_cases ha : p a = true <;> simp [ha]
    rw [hcount, List.count_append, ih hes.2, lookup_entry]
    by_cases hx : x = n
    · rw [if_pos hx, hx, lookup_eq_none_iff.mpr hes.1]
      cases ha : p a <;> simp [ha]
    · have hne : n ≠ x := fun h => hx h.symm
      rw [if_neg hx]
      cases p a <;> simp [hne]
/-! ## Entries -/

namespace Entries

@[simp] theorem get?_insert (es : Entries α) (name x : String) (a : α) :
    (es.insert name a).get? x = if x = name then some a else es.get? x :=
  lookup_setEntry name x a es.toList

theorem contains_iff {es : Entries α} {x : String} : es.contains x = true ↔ x ∈ es.names :=
  lookup_isSome_iff

theorem contains_eq_true_iff {es : Entries α} {x : String} :
    es.contains x = true ↔ ∃ a, es.get? x = some a :=
  Option.isSome_iff_exists

theorem get?_eq_none_iff {es : Entries α} {x : String} : es.get? x = none ↔ x ∉ es.names :=
  lookup_eq_none_iff

theorem names_insert {es : Entries α} {name : String} (h : es.contains name = true) (a : α) :
    (es.insert name a).names = es.names :=
  names_setEntry (contains_iff.mp h) a

/-- Entries with the same names in the same order and the same values are the same. -/
theorem ext_get? {as bs : Entries α} (hnames : as.names = bs.names)
    (h : ∀ x, as.get? x = bs.get? x) : as = bs := by
  obtain ⟨as, has⟩ := as
  obtain ⟨bs, hbs⟩ := bs
  obtain rfl : as = bs := eq_of_lookup_eq has hnames h
  rfl

/-- New names come last, in the order in which they are set. -/
theorem toList_insertAll (acc : Entries α) {es : List (String × α)}
    (h : (acc.names ++ es.map Prod.fst).Nodup) :
    (acc.insertAll es).toList = acc.toList ++ es := by
  induction es generalizing acc with
  | nil => exact (List.append_nil _).symm
  | cons e es ih =>
    obtain ⟨name, a⟩ := e
    have hnew : name ∉ acc.names := fun hmem =>
      (List.nodup_append.mp h).2.2 name hmem name (by simp) rfl
    have hset : (acc.insert name a).toList = acc.toList ++ [(name, a)] :=
      setEntry_of_notMem hnew a
    have hnames : (acc.insert name a).names = acc.names ++ [name] := by
      rw [names, hset, List.map_append]
      rfl
    rw [insertAll, ih, hset, List.append_assoc, List.singleton_append]
    rwa [hnames, List.append_assoc]

/-- Entries with distinct names are taken as they are. -/
theorem ofList_eq {es : List (String × α)} (h : (es.map Prod.fst).Nodup) : ofList es = ⟨es, h⟩ := by
  have hlist : (ofList es).toList = es := toList_insertAll empty h
  exact ext_get? (congrArg (List.map Prod.fst) hlist) fun x => congrArg (List.lookup x) hlist

theorem names_mapValues (f : String → α → β) (es : Entries α) : (es.mapValues f).names = es.names := by
  simp [names, mapValues, Function.comp_def]

theorem get?_mapValues (f : String → α → β) (es : Entries α) (x : String) :
    (es.mapValues f).get? x = (es.get? x).map (f x) := by
  obtain ⟨es, hes⟩ := es
  simp only [get?, mapValues]
  clear hes
  induction es with
  | nil => rfl
  | cons e es ih =>
    obtain ⟨n, a⟩ := e
    rw [List.map_cons, lookup_entry, lookup_entry, ih]
    by_cases hx : x = n
    · rw [if_pos hx, if_pos hx, hx]
      rfl
    · rw [if_neg hx, if_neg hx]

end Entries

end EntityQuery
