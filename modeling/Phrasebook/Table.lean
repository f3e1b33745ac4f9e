/-! Tables from names to values, in ascending order of the names. -/

namespace Phrasebook

abbrev Table (α : Type u) := List (String × α)

namespace Table

variable {α : Type u} {β : Type v}

def insert (name : String) (value : α) : Table α → Table α
  | [] => [(name, value)]
  | (other, old) :: rest =>
      if name < other then (name, value) :: (other, old) :: rest
      else if name = other then (name, value) :: rest
      else (other, old) :: insert name value rest

def find? : Table α → String → Option α
  | [], _ => none
  | (other, value) :: rest, name => if name = other then some value else find? rest name

def contains (table : Table α) (name : String) : Bool :=
  (table.find? name).isSome

def names (table : Table α) : List String :=
  table.map Prod.fst

def ofList (pairs : List (String × α)) : Table α :=
  pairs.foldl (fun table pair => Table.insert pair.1 pair.2 table) []

def mapValues (f : α → β) (table : Table α) : Table β :=
  table.map fun entry => (entry.1, f entry.2)

def erase (name : String) (table : Table α) : Table α :=
  table.filter fun entry => entry.1 ≠ name

def Ascending (table : Table α) : Prop :=
  table.Pairwise fun left right => left.1 < right.1

instance (table : Table α) : Decidable table.Ascending :=
  inferInstanceAs (Decidable (table.Pairwise fun left right => left.1 < right.1))

@[simp] theorem find?_nil (name : String) : find? ([] : Table α) name = none := rfl

theorem find?_cons (entry : String × α) (rest : Table α) (name : String) :
    find? (entry :: rest) name = if name = entry.1 then some entry.2 else find? rest name :=
  rfl

@[simp] theorem find?_insert_self (name : String) (value : α) (table : Table α) :
    find? (insert name value table) name = some value := by
  induction table with
  | nil => simp [insert, find?_cons]
  | cons entry rest ih =>
      obtain ⟨other, old⟩ := entry
      simp only [insert]
      split
      · simp [find?_cons]
      · split
        · simp [find?_cons]
        · rename_i hne
          simp [find?_cons, hne, ih]

theorem find?_insert_of_ne {name other : String} (h : other ≠ name) (value : α)
    (table : Table α) :
    find? (insert name value table) other = find? table other := by
  induction table with
  | nil => simp [insert, find?_cons, h]
  | cons entry rest ih =>
      obtain ⟨key, old⟩ := entry
      simp only [insert]
      split
      · simp [find?_cons, h]
      · split
        · rename_i heq
          subst heq
          simp [find?_cons, h]
        · simp [find?_cons, ih]

theorem find?_insert (name other : String) (value : α) (table : Table α) :
    find? (insert name value table) other =
      if other = name then some value else find? table other := by
  split
  · rename_i same
    rw [same, find?_insert_self]
  · rename_i differ
    exact find?_insert_of_ne differ value table

theorem find?_erase (name other : String) (table : Table α) :
    find? (erase name table) other = if other = name then none else find? table other := by
  induction table with
  | nil => simp [erase]
  | cons entry rest ih =>
      obtain ⟨key, value⟩ := entry
      by_cases erased : key = name
      · have skipped : erase name ((key, value) :: rest) = erase name rest := by
          simp [erase, erased]
        rw [skipped, ih, find?_cons]
        split
        · rfl
        · rename_i differ
          rw [if_neg (erased ▸ differ)]
      · have kept : erase name ((key, value) :: rest) = (key, value) :: erase name rest := by
          simp [erase, erased]
        rw [kept, find?_cons, find?_cons, ih]
        by_cases here : other = key
        · simp [here, erased]
        · simp [here]

@[simp] theorem mapValues_nil (f : α → β) : mapValues f ([] : Table α) = [] := rfl

@[simp] theorem mapValues_cons (f : α → β) (entry : String × α) (rest : Table α) :
    mapValues f (entry :: rest) = (entry.1, f entry.2) :: mapValues f rest := rfl

@[simp] theorem length_mapValues (f : α → β) (table : Table α) :
    (mapValues f table).length = table.length :=
  List.length_map _

@[simp] theorem mapValues_id (table : Table α) : table.mapValues id = table :=
  List.map_id table

@[simp] theorem find?_mapValues (f : α → β) (table : Table α) (name : String) :
    find? (mapValues f table) name = (find? table name).map f := by
  induction table with
  | nil => rfl
  | cons entry rest ih =>
      rw [mapValues_cons, find?_cons, find?_cons, ih]
      split <;> rfl

theorem mem_of_find? {table : Table α} {name : String} {value : α}
    (found : find? table name = some value) : (name, value) ∈ table := by
  induction table with
  | nil => cases found
  | cons entry rest ih =>
      rw [find?_cons] at found
      split at found
      · rename_i same
        obtain rfl := Option.some.inj found
        rw [same]
        exact List.mem_cons_self
      · exact List.mem_cons_of_mem _ (ih found)

theorem mem_names_of_find? {table : Table α} {name : String} {value : α}
    (found : find? table name = some value) : name ∈ names table :=
  List.mem_map.mpr ⟨_, mem_of_find? found, rfl⟩

theorem find?_eq_none_iff {table : Table α} {name : String} :
    find? table name = none ↔ name ∉ names table := by
  induction table with
  | nil => exact ⟨fun _ => List.not_mem_nil, fun _ => rfl⟩
  | cons entry rest ih =>
      rw [find?_cons, names, List.map_cons, List.mem_cons]
      split
      · rename_i same
        exact ⟨nofun, fun absent => absurd (.inl same) absent⟩
      · rename_i differ
        rw [ih, or_iff_right differ, names]

theorem mapValues_insert (f : α → β) (name : String) (value : α) (table : Table α) :
    mapValues f (insert name value table) = insert name (f value) (mapValues f table) := by
  induction table with
  | nil => rfl
  | cons entry rest ih =>
      obtain ⟨other, old⟩ := entry
      simp only [insert, mapValues_cons]
      split
      · rfl
      · split
        · rfl
        · rw [mapValues_cons, ih]

theorem mapValues_ofList (f : α → β) (pairs : List (String × α)) :
    mapValues f (ofList pairs) = ofList (pairs.map fun pair => (pair.1, f pair.2)) := by
  suffices from_ : ∀ table, mapValues f (pairs.foldl (fun table pair =>
      insert pair.1 pair.2 table) table) = (pairs.map fun pair => (pair.1, f pair.2)).foldl
        (fun table pair => insert pair.1 pair.2 table) (mapValues f table) from from_ []
  induction pairs with
  | nil => exact fun _ => rfl
  | cons pair pairs ih =>
      intro table
      rw [List.foldl_cons, ih, mapValues_insert]
      rfl

theorem ofList_concat (pairs : List (String × α)) (pair : String × α) :
    ofList (pairs ++ [pair]) = insert pair.1 pair.2 (ofList pairs) := by
  simp [ofList]

/-- Of the pairs under one name the last is kept. -/
theorem find?_ofList (pairs : List (String × α)) (name : String) :
    find? (ofList pairs) name =
      (pairs.filter fun pair => pair.1 = name).getLast?.map Prod.snd := by
  suffices from_ : ∀ table : Table α,
      find? (pairs.foldl (fun table pair => insert pair.1 pair.2 table) table) name =
        ((pairs.filter fun pair => pair.1 = name).getLast?.map Prod.snd).or
          (find? table name) by
    rw [ofList, from_ [], find?_nil, Option.or_none]
  induction pairs with
  | nil => exact fun _ => rfl
  | cons pair pairs ih =>
      intro table
      rw [List.foldl_cons, ih, find?_insert]
      by_cases same : pair.1 = name
      · rw [List.filter_cons_of_pos (by simpa using same), if_pos same.symm, List.getLast?_cons]
        cases (pairs.filter fun pair => pair.1 = name).getLast? <;> rfl
      · rw [List.filter_cons_of_neg (by simpa using same), if_neg (Ne.symm same)]

theorem find?_ofList_of_mem {pairs : List (String × α)} {name : String} {value : α}
    (member : (name, value) ∈ pairs) (only : ∀ pair ∈ pairs, pair.1 = name → pair.2 = value) :
    find? (ofList pairs) name = some value := by
  have kept : (name, value) ∈ pairs.filter fun pair => pair.1 = name :=
    List.mem_filter.mpr ⟨member, decide_eq_true rfl⟩
  have last := List.getLast?_eq_some_getLast (List.ne_nil_of_mem kept)
  obtain ⟨inPairs, same⟩ := List.mem_filter.mp (List.mem_of_getLast? last)
  rw [find?_ofList, last]
  exact congrArg some (only _ inPairs (of_decide_eq_true same))

theorem find?_ofList_of_absent {pairs : List (String × α)} {name : String}
    (absent : ∀ pair ∈ pairs, pair.1 ≠ name) : find? (ofList pairs) name = none := by
  have nothing : (pairs.filter fun pair => pair.1 = name) = [] := by simpa using absent
  rw [find?_ofList, nothing]
  rfl

theorem insert_insert (name : String) (old value : α) (table : Table α) :
    insert name value (insert name old table) = insert name value table := by
  induction table with
  | nil => simp [insert]
  | cons entry rest ih =>
      obtain ⟨other, kept⟩ := entry
      simp only [insert]
      split
      · simp [insert]
      · split
        · simp [insert]
        · simp_all [insert]

theorem find?_of_last {table : Table α} {name : String} (last : ∀ entry ∈ table, entry.1 < name) :
    find? table name = none := by
  induction table with
  | nil => rfl
  | cons entry rest ih =>
      obtain ⟨here, later⟩ := List.forall_mem_cons.mp last
      have differ : name ≠ entry.1 := fun same => String.lt_irrefl entry.1 (same ▸ here)
      rw [find?_cons, if_neg differ, ih later]

theorem find?_of_first {table : Table α} {name : String}
    (first : ∀ entry ∈ table, name < entry.1) : find? table name = none := by
  rw [find?_eq_none_iff]
  intro member
  obtain ⟨entry, inTable, same⟩ := List.mem_map.mp member
  exact String.lt_irrefl name (same ▸ first entry inTable)

theorem insert_of_last {table : Table α} {name : String}
    (last : ∀ entry ∈ table, entry.1 < name) (value : α) :
    insert name value table = table ++ [(name, value)] := by
  induction table with
  | nil => rfl
  | cons entry rest ih =>
      obtain ⟨here, later⟩ := List.forall_mem_cons.mp last
      have notBefore : ¬ name < entry.1 := String.lt_asymm here
      have differ : name ≠ entry.1 := fun same => String.lt_irrefl entry.1 (same ▸ here)
      simp [insert, notBefore, differ, ih later]

theorem foldl_insert_of_ascending {table pairs : Table α} (ascending : Ascending (table ++ pairs)) :
    pairs.foldl (fun table pair => insert pair.1 pair.2 table) table = table ++ pairs := by
  induction pairs generalizing table with
  | nil => simp
  | cons pair pairs ih =>
      have last : ∀ entry ∈ table, entry.1 < pair.1 := fun entry member =>
        (List.pairwise_append.mp ascending).2.2 entry member pair List.mem_cons_self
      rw [List.foldl_cons, insert_of_last last, ih]
      · simp
      · simpa using ascending

theorem Ascending.mapValues {table : Table α} (ascending : Ascending table) (f : α → β) :
    Ascending (mapValues f table) :=
  List.pairwise_map.mpr ascending

theorem mem_insert {name : String} {value : α} {table : Table α} {entry : String × α}
    (member : entry ∈ insert name value table) : entry = (name, value) ∨ entry ∈ table := by
  induction table with
  | nil => exact .inl (List.mem_singleton.mp member)
  | cons first rest ih =>
      simp only [insert] at member
      split at member
      · exact List.mem_cons.mp member
      · split at member
        · exact (List.mem_cons.mp member).imp_right (List.mem_cons_of_mem first)
        · rcases List.mem_cons.mp member with rfl | later
          · exact .inr List.mem_cons_self
          · exact (ih later).imp_right (List.mem_cons_of_mem first)

theorem mem_ofList {pairs : List (String × α)} {entry : String × α}
    (member : entry ∈ ofList pairs) : entry ∈ pairs := by
  suffices from_ : ∀ table : Table α,
      entry ∈ pairs.foldl (fun table pair => Table.insert pair.1 pair.2 table) table →
        entry ∈ table ∨ entry ∈ pairs from
    (from_ [] member).resolve_left List.not_mem_nil
  clear member
  induction pairs with
  | nil => exact fun _ inTable => .inl inTable
  | cons pair pairs ih =>
      intro table inTable
      rcases ih _ inTable with inserted | later
      · exact (mem_insert inserted).elim (fun same => .inr (same ▸ List.mem_cons_self)) .inl
      · exact .inr (List.mem_cons_of_mem pair later)

theorem Ascending.insert {table : Table α} (ascending : Ascending table) (name : String)
    (value : α) : Ascending (insert name value table) := by
  induction table with
  | nil => exact List.pairwise_singleton _ _
  | cons first rest ih =>
      obtain ⟨before, ascendingRest⟩ := List.pairwise_cons.mp ascending
      simp only [Table.insert]
      split
      · rename_i earlier
        refine List.pairwise_cons.mpr ⟨List.forall_mem_cons.mpr ⟨earlier, ?_⟩, ascending⟩
        exact fun entry member => String.lt_trans earlier (before entry member)
      · rename_i notEarlier
        split
        · rename_i same
          exact List.pairwise_cons.mpr ⟨same ▸ before, ascendingRest⟩
        · rename_i differ
          have later : first.1 < name :=
            Std.lt_of_le_of_ne (String.not_lt.mp notEarlier) (Ne.symm differ)
          refine List.pairwise_cons.mpr ⟨?_, ih ascendingRest⟩
          intro entry member
          rcases mem_insert member with rfl | inRest
          · exact later
          · exact before entry inRest

theorem ascending_ofList (pairs : List (String × α)) : Ascending (ofList pairs) := by
  suffices from_ : ∀ table : Table α, Ascending table →
      Ascending (pairs.foldl (fun table pair => Table.insert pair.1 pair.2 table) table) from
    from_ [] List.Pairwise.nil
  induction pairs with
  | nil => exact fun _ ascending => ascending
  | cons pair pairs ih => exact fun table ascending => ih _ (ascending.insert pair.1 pair.2)

theorem Ascending.erase {table : Table α} (ascending : Ascending table) (name : String) :
    Ascending (erase name table) :=
  ascending.filter _

/-- Writing what is there already changes nothing. -/
theorem Ascending.insert_of_find? {table : Table α} (ascending : Ascending table) {name : String}
    {value : α} (found : find? table name = some value) :
    Table.insert name value table = table := by
  induction table with
  | nil => cases found
  | cons entry rest ih =>
      obtain ⟨before, ascendingRest⟩ := List.pairwise_cons.mp ascending
      rw [find?_cons] at found
      split at found
      · rename_i same
        obtain rfl := Option.some.inj found
        simp [Table.insert, same]
      · rename_i differ
        have later : entry.1 < name := before _ (mem_of_find? found)
        simp [Table.insert, String.lt_asymm later, differ, ih ascendingRest found]

theorem Ascending.lt_of_find? {entry : String × α} {rest : Table α}
    (ascending : Ascending (entry :: rest)) {name : String} {value : α}
    (found : find? rest name = some value) : entry.1 < name :=
  (List.pairwise_cons.mp ascending).1 _ (mem_of_find? found)

/-- A table is all that is found in it. -/
theorem Ascending.ext {table other : Table α} (ascending : Ascending table)
    (otherAscending : Ascending other) (same : ∀ name, find? table name = find? other name) :
    table = other := by
  induction table generalizing other with
  | nil =>
      cases other with
      | nil => rfl
      | cons first others => simpa [find?_cons] using same first.1
  | cons entry rest ih =>
      cases other with
      | nil => simpa [find?_cons] using same entry.1
      | cons first others =>
          have here := same entry.1
          have there := same first.1
          simp only [find?_cons, if_pos] at here there
          by_cases names : entry.1 = first.1
          · rw [if_pos names] at here
            obtain rfl : entry = first := Prod.ext names (Option.some.inj here)
            have rests : rest = others := by
              apply ih (List.pairwise_cons.mp ascending).2 (List.pairwise_cons.mp otherAscending).2
              intro name
              by_cases atHead : name = entry.1
              · rw [atHead, find?_of_first (List.pairwise_cons.mp ascending).1,
                  find?_of_first (List.pairwise_cons.mp otherAscending).1]
              · simpa [find?_cons, atHead] using same name
            rw [rests]
          · rw [if_neg names] at here
            rw [if_neg (Ne.symm names)] at there
            exact absurd (otherAscending.lt_of_find? here.symm)
              (String.lt_asymm (ascending.lt_of_find? there))

theorem ofList_of_ascending {table : Table α} (ascending : Ascending table) :
    ofList table = table :=
  foldl_insert_of_ascending (List.nil_append table ▸ ascending)

end Table

end Phrasebook
