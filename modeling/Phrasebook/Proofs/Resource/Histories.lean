import Phrasebook.Proofs.Resource.Blocks
import Phrasebook.Proofs.Resource.Drafting
import Phrasebook.Proofs.Resource.Fillings

/-! The drafts of a line resource, told from its assignments. -/

namespace Phrasebook.Resource

section Slots

def Assignment.id (a : Assignment) : List Char :=
  a.name.takeWhile (· ≠ '.')

/-- The slot that an assignment means. -/
def Assignment.target? (a : Assignment) : Option Target :=
  Target.ofName? a.name

def slotOf? (line : List Char) : Option Target :=
  (said? line).bind Assignment.target?

def fillings (target : Target) (as : List Assignment) : List Filling :=
  (as.filter (·.target? = some target)).map Assignment.filling

/-- What blocks say, wherever they stand. -/
def saidIn (bs : List Block) : List Assignment :=
  (bs.map Block.text).filterMap said?

def labels (id : List Char) (as : List Assignment) : List (List Char) :=
  as.filterMap fun a => a.target?.bind fun target =>
    if target.id = id then target.attribute? else none

def ids (as : List Assignment) : List (List Char) :=
  (as.map Assignment.id).eraseDups

end Slots

def Draft.ofLines (as : List Assignment) (id : List Char) : Draft where
  value := .ofFillings (fillings ⟨id, none⟩ as)
  attributes := Table.ofList ((labels id as).map fun label =>
    (String.ofList label, .ofFillings (fillings ⟨id, some label⟩ as)))

def Drafts.ofLines (as : List Assignment) : Drafts :=
  (ids as).map fun id => (String.ofList id, .ofLines as id)

/-- The node of a phrase that lines name. -/
def nodeOf (as : List Assignment) (id : List Char) : EntryNode :=
  (Draft.ofLines as id).toNode (String.ofList id)

def nodesOf (as : List Assignment) : List EntryNode :=
  (ids as).map (nodeOf as)

/-- Why an assignment behind others is refused, if it is. -/
def offence? (before : List Assignment) (a : Assignment) : Option ParseFailure :=
  match a.target? with
  | none => some (.nestedAttribute a.line (String.ofList a.name))
  | some target =>
      (clash? (fillings target before) a.filling).map fun text =>
        .malformedIndex a.line (String.ofList text)

def firstOffence? (before : List Assignment) : List Assignment → Option ParseFailure
  | [] => none
  | a :: rest => (offence? before a).or (firstOffence? (before ++ [a]) rest)

section Slots

variable {as others : List Assignment} {a : Assignment} {target other : Target} {id : List Char}

theorem Assignment.id_of_target? (named : a.target? = some target) : target.id = a.id := by
  unfold Assignment.target? Target.ofName? at named
  split at named
  · cases named
    rfl
  · split at named
    · cases named
    · cases named
      rfl

theorem Assignment.target?_eq_none_iff : a.target? = none ↔ 2 ≤ a.name.count '.' := by
  have whole := List.takeWhile_append_dropWhile (p := fun c => decide (c ≠ '.')) (l := a.name)
  have undotted : (a.name.takeWhile (· ≠ '.')).count '.' = 0 := by
    apply List.count_eq_zero.mpr
    intro member
    simpa using List.mem_takeWhile_imp member
  have dots : a.name.count '.' = (a.name.dropWhile (· ≠ '.')).count '.' := by
    rw [← whole, List.count_append, undotted, whole, Nat.zero_add]
  rw [dots, Assignment.target?, Target.ofName?]
  cases rest : a.name.dropWhile (· ≠ '.') with
  | nil => simp
  | cons c label =>
      have dot : c = '.' := by
        have first := List.head?_dropWhile_not (fun c => decide (c ≠ '.')) a.name
        rw [rest] at first
        simpa using first
      subst dot
      rw [List.count_cons_self, Nat.succ_le_succ_iff, Nat.one_le_iff_ne_zero, Ne,
        List.count_eq_zero]
      simp

theorem fillings_cons (target : Target) (a : Assignment) (as : List Assignment) :
    fillings target (a :: as) =
      if a.target? = some target then a.filling :: fillings target as
      else fillings target as := by
  by_cases meant : a.target? = some target <;> simp [fillings, meant]

theorem fillings_append (target : Target) (as others : List Assignment) :
    fillings target (as ++ others) = fillings target as ++ fillings target others := by
  simp [fillings]

theorem fillings_concat_self (named : a.target? = some target) :
    fillings target (as ++ [a]) = fillings target as ++ [a.filling] := by
  simp [fillings, named]

theorem fillings_concat_of_ne (differs : a.target? ≠ some target) :
    fillings target (as ++ [a]) = fillings target as := by
  simp [fillings, differs]

theorem fillings_eq_nil_iff : fillings target as = [] ↔ ∀ a ∈ as, a.target? ≠ some target := by
  simp [fillings]

theorem mem_labels {label : List Char} :
    label ∈ labels id as ↔ fillings ⟨id, some label⟩ as ≠ [] := by
  rw [Ne, fillings_eq_nil_iff, labels, List.mem_filterMap]
  constructor
  · rintro ⟨a, member, named⟩ unnamed
    obtain ⟨⟨phrase, attribute?⟩, target, same⟩ := Option.bind_eq_some_iff.mp named
    split at same
    · rename_i ofPhrase
      exact unnamed a member (by rw [target, ← ofPhrase, ← same])
    · cases same
  · intro named
    simp only [ne_eq, not_forall, Decidable.not_not] at named
    obtain ⟨a, member, target⟩ := named
    exact ⟨a, member, by simp [target]⟩

theorem fillings_of_fresh (fresh : target.id ∉ ids as) : fillings target as = [] := by
  rw [fillings_eq_nil_iff]
  intro a member named
  apply fresh
  rw [ids, List.mem_eraseDups, Assignment.id_of_target? named]
  exact List.mem_map_of_mem member

theorem mem_ids_iff (named : ∀ a ∈ as, a.target? ≠ none) :
    id ∈ ids as ↔ ∃ label?, fillings ⟨id, label?⟩ as ≠ [] := by
  constructor
  · intro known
    rw [ids, List.mem_eraseDups, List.mem_map] at known
    obtain ⟨a, member, rfl⟩ := known
    obtain ⟨target, meant⟩ := Option.ne_none_iff_exists'.mp (named a member)
    refine ⟨target.attribute?, fun nothing => ?_⟩
    rw [← Assignment.id_of_target? meant] at nothing
    exact fillings_eq_nil_iff.mp nothing a member meant
  · rintro ⟨label?, something⟩
    by_contra fresh
    exact something (fillings_of_fresh fresh)

theorem ids_concat (as : List Assignment) (a : Assignment) :
    ids (as ++ [a]) = if a.id ∈ ids as then ids as else ids as ++ [a.id] := by
  rw [ids, List.map_append, List.eraseDups_append, List.map_singleton]
  by_cases known : a.id ∈ ids as
  · have inNames := List.mem_eraseDups.mp known
    have nothing : [a.id].removeAll (as.map Assignment.id) = [] := by
      rw [List.removeAll, List.filter_cons_of_neg (by simpa using inNames), List.filter_nil]
    rw [nothing, if_pos known]
    exact List.append_nil _
  · have notInNames : a.id ∉ as.map Assignment.id :=
      fun member => known (List.mem_eraseDups.mpr member)
    have itself : [a.id].removeAll (as.map Assignment.id) = [a.id] := by
      rw [List.removeAll, List.filter_cons_of_pos (by simpa using notInNames), List.filter_nil]
    rw [itself, if_neg known]
    rfl

theorem nodup_ids (as : List Assignment) : (ids as).Nodup := by
  induction as using List.reverseRecOn with
  | nil => exact List.nodup_nil
  | append_singleton as a ih =>
      rw [ids_concat]
      split
      · exact ih
      · rename_i fresh
        apply List.nodup_append.mpr
        refine ⟨ih, List.pairwise_singleton _ _, ?_⟩
        intro id known other here
        rw [List.mem_singleton.mp here]
        exact ne_of_mem_of_not_mem known fresh

end Slots

section Drafts

variable {as : List Assignment} {a : Assignment} {target : Target} {id : List Char}

attribute [ext] Draft

theorem Draft.find?_ofLines (as : List Assignment) (id label : List Char) :
    (Draft.ofLines as id).attributes.find? (String.ofList label) =
      if fillings ⟨id, some label⟩ as = [] then none
      else some (.ofFillings (fillings ⟨id, some label⟩ as)) := by
  split
  · rename_i unnamed
    apply Table.find?_ofList_of_absent
    intro pair member same
    obtain ⟨other, named, rfl⟩ := List.mem_map.mp member
    obtain rfl := String.ofList_injective same
    exact mem_labels.mp named unnamed
  · rename_i named
    apply Table.find?_ofList_of_mem
    · exact List.mem_map.mpr ⟨label, mem_labels.mpr named, rfl⟩
    · intro pair member same
      obtain ⟨other, _, rfl⟩ := List.mem_map.mp member
      obtain rfl := String.ofList_injective same
      rfl

theorem Draft.ofLines_ascending (as : List Assignment) (id : List Char) :
    (Draft.ofLines as id).attributes.Ascending :=
  Table.ascending_ofList _

theorem Draft.ofLines_congr {others : List Assignment}
    (same : ∀ label?, Slot.ofFillings (fillings ⟨id, label?⟩ as) =
      Slot.ofFillings (fillings ⟨id, label?⟩ others)) :
    Draft.ofLines as id = Draft.ofLines others id := by
  apply Draft.ext
  · exact same none
  · apply (Draft.ofLines_ascending as id).ext (Draft.ofLines_ascending others id)
    intro name
    have alike := same (some name.toList)
    rw [← String.ofList_toList (s := name), Draft.find?_ofLines, Draft.find?_ofLines, alike]
    exact if_congr ⟨Slot.eq_nil_of_ofFillings alike, Slot.eq_nil_of_ofFillings alike.symm⟩ rfl rfl

theorem Draft.ofLines_concat_of_ne (differs : a.id ≠ id) :
    Draft.ofLines (as ++ [a]) id = Draft.ofLines as id := by
  apply Draft.ofLines_congr
  intro label?
  rw [fillings_concat_of_ne]
  intro named
  exact differs (Assignment.id_of_target? named).symm

theorem Draft.ofLines_of_fresh (fresh : id ∉ ids as) : Draft.ofLines as id = {} := by
  have unnamed : Draft.ofLines as id = Draft.ofLines [] id := by
    apply Draft.ofLines_congr
    intro label?
    rw [fillings_of_fresh fresh]
    rfl
  rw [unnamed]
  rfl

theorem Draft.ofLines_concat_value (named : a.target? = some ⟨id, none⟩) :
    Draft.ofLines (as ++ [a]) id =
      { Draft.ofLines as id with
        value := .ofFillings (fillings ⟨id, none⟩ as ++ [a.filling]) } := by
  apply Draft.ext
  · rw [Draft.ofLines, fillings_concat_self named]
  · apply (Draft.ofLines_ascending _ id).ext (Draft.ofLines_ascending as id)
    intro name
    have elsewhere : fillings ⟨id, some name.toList⟩ (as ++ [a]) =
        fillings ⟨id, some name.toList⟩ as := by
      apply fillings_concat_of_ne
      simp [named]
    rw [← String.ofList_toList (s := name), Draft.find?_ofLines, Draft.find?_ofLines, elsewhere]

theorem Draft.ofLines_concat_attribute {label : List Char}
    (named : a.target? = some ⟨id, some label⟩) :
    Draft.ofLines (as ++ [a]) id =
      { Draft.ofLines as id with
        attributes := Table.insert (String.ofList label)
          (.ofFillings (fillings ⟨id, some label⟩ as ++ [a.filling]))
          (Draft.ofLines as id).attributes } := by
  apply Draft.ext
  · rw [Draft.ofLines, fillings_concat_of_ne (by simp [named])]
    rfl
  · apply (Draft.ofLines_ascending _ id).ext ((Draft.ofLines_ascending as id).insert _ _)
    intro name
    rw [← String.ofList_toList (s := name), Draft.find?_ofLines, Table.find?_insert,
      Draft.find?_ofLines]
    by_cases here : name.toList = label
    · rw [here, fillings_concat_self named, if_neg (by simp), if_pos rfl]
    · have elsewhere : fillings ⟨id, some name.toList⟩ (as ++ [a]) =
          fillings ⟨id, some name.toList⟩ as := by
        apply fillings_concat_of_ne
        simp [named, Ne.symm here]
      rw [elsewhere, if_neg fun same => here (String.ofList_injective same)]

theorem Draft.assign_ofLines (as : List Assignment) (named : a.target? = some target) :
    (Draft.ofLines as target.id).assign target a =
      match clash? (fillings target as) a.filling with
      | some text => .error (.malformedIndex a.line (String.ofList text))
      | none => .ok (.ofLines (as ++ [a]) target.id) := by
  obtain ⟨id, label?⟩ := target
  cases label? with
  | none =>
      have taken := Slot.assign_ofFillings (fillings ⟨id, none⟩ as) a
      rw [Draft.assign, Draft.ofLines_concat_value named]
      change Except.map _ ((Slot.ofFillings (fillings ⟨id, none⟩ as)).assign a) = _
      rw [taken]
      cases clash? (fillings ⟨id, none⟩ as) a.filling <;> rfl
  | some label =>
      have taken := Slot.assign_ofFillings (fillings ⟨id, some label⟩ as) a
      have held : ((Draft.ofLines as id).attributes.find? (String.ofList label)).getD {} =
          .ofFillings (fillings ⟨id, some label⟩ as) := by
        rw [Draft.find?_ofLines]
        split
        · rename_i nothing
          rw [nothing]
          rfl
        · rfl
      simp only [Draft.assign, Draft.ofLines_concat_attribute named, held, taken]
      cases clash? (fillings ⟨id, some label⟩ as) a.filling <;> rfl

theorem Drafts.update_map {ids : List (List Char)} (distinct : ids.Nodup) (known : id ∈ ids)
    (draftOf : List Char → Draft) (change : Draft → Except ParseFailure Draft) :
    Drafts.update (String.ofList id) change (ids.map fun id => (String.ofList id, draftOf id)) =
      (change (draftOf id)).map fun draft =>
        ids.map fun other =>
          (String.ofList other, if other = id then draft else draftOf other) := by
  induction ids with
  | nil => exact absurd known List.not_mem_nil
  | cons first rest ih =>
      obtain ⟨differs, distinctRest⟩ := List.nodup_cons.mp distinct
      rw [List.map_cons, Drafts.update]
      by_cases here : first = id
      · subst here
        have others : ∀ draft : Draft, (rest.map fun other =>
            (String.ofList other, if other = first then draft else draftOf other)) =
              rest.map fun other => (String.ofList other, draftOf other) := by
          intro draft
          apply List.map_congr_left
          intro other member
          rw [if_neg (ne_of_mem_of_not_mem member differs)]
        simp only [if_pos, List.map_cons, others]
      · have names : String.ofList first ≠ String.ofList id :=
          fun same => here (String.ofList_injective same)
        have inRest := (List.mem_cons.mp known).resolve_left (Ne.symm here)
        rw [if_neg names, ih distinctRest inRest]
        cases change (draftOf id) with
        | error failure => rfl
        | ok draft => simp only [Except.map, List.map_cons, if_neg here]

theorem Drafts.update_ofLines (named : a.target? = some target) :
    Drafts.update (String.ofList target.id) (·.assign target a) (Drafts.ofLines as) =
      match clash? (fillings target as) a.filling with
      | some text => .error (.malformedIndex a.line (String.ofList text))
      | none => .ok (.ofLines (as ++ [a])) := by
  have id := Assignment.id_of_target? named
  have taken := Draft.assign_ofLines as named
  -- The draft of a phrase named before is changed where it stands, a new one goes to the end.
  by_cases known : target.id ∈ ids as
  · have others : ∀ other, (if other = target.id then Draft.ofLines (as ++ [a]) target.id
        else Draft.ofLines as other) = Draft.ofLines (as ++ [a]) other := by
      intro other
      split
      · rename_i same
        rw [same]
      · rename_i differs
        rw [Draft.ofLines_concat_of_ne fun same => differs (same.symm.trans id.symm)]
    rw [Drafts.ofLines, Drafts.update_map (nodup_ids as) known, taken]
    cases clash? (fillings target as) a.filling with
    | some text => rfl
    | none =>
        simp only [Except.map, others, Drafts.ofLines, ids_concat, ← id, if_pos known]
  · have unnamed : String.ofList target.id ∉ (Drafts.ofLines as).map Prod.fst := by
      intro member
      obtain ⟨entry, inDrafts, same⟩ := List.mem_map.mp member
      obtain ⟨other, inIds, rfl⟩ := List.mem_map.mp inDrafts
      exact known (String.ofList_injective same ▸ inIds)
    rw [Drafts.update_fresh unnamed]
    rw [Draft.ofLines_of_fresh known] at taken
    rw [taken]
    cases clash? (fillings target as) a.filling with
    | some text => rfl
    | none =>
        have earlier : ∀ other ∈ ids as,
            (String.ofList other, Draft.ofLines (as ++ [a]) other) =
              (String.ofList other, Draft.ofLines as other) := by
          intro other inIds
          rw [Draft.ofLines_concat_of_ne fun same => known (id ▸ same ▸ inIds)]
        simp only [Except.map, Drafts.ofLines, ids_concat, ← id, if_neg known, List.map_append,
          List.map_singleton, List.map_congr_left earlier]

theorem Drafts.assign_ofLines (as : List Assignment) (a : Assignment) :
    (Drafts.ofLines as).assign a =
      match offence? as a with
      | some failure => .error failure
      | none => .ok (.ofLines (as ++ [a])) := by
  cases named : a.target? with
  | none =>
      have unnamed : Target.ofName? a.name = none := named
      simp only [Drafts.assign, offence?, named, unnamed]
  | some target =>
      have meant : Target.ofName? a.name = some target := named
      simp only [Drafts.assign, offence?, named, meant, Drafts.update_ofLines named]
      cases clash? (fillings target as) a.filling <;> rfl

theorem Drafts.foldlM_ofLines (before as : List Assignment) :
    as.foldlM Drafts.assign (Drafts.ofLines before) =
      match firstOffence? before as with
      | some failure => .error failure
      | none => .ok (.ofLines (before ++ as)) := by
  induction as generalizing before with
  | nil => rw [List.append_nil]; rfl
  | cons a as ih =>
      rw [List.foldlM_cons, Drafts.assign_ofLines, firstOffence?]
      cases offence? before a with
      | some failure => rfl
      | none =>
          have later := ih (before ++ [a])
          rw [List.append_assoc, List.singleton_append] at later
          exact later

theorem entryNodesOf_eq (as : List Assignment) :
    entryNodesOf as =
      match firstOffence? [] as with
      | some failure => .error failure
      | none => .ok (nodesOf as) := by
  have run := Drafts.foldlM_ofLines [] as
  rw [List.nil_append] at run
  change as.foldlM Drafts.assign [] = _ at run
  rw [entryNodesOf, run]
  cases firstOffence? [] as with
  | some failure => rfl
  | none => exact congrArg Except.ok List.map_map

theorem eq_nodesOf {as : List Assignment} {nodes : List EntryNode}
    (parsed : entryNodesOf as = .ok nodes) : nodes = nodesOf as := by
  rw [entryNodesOf_eq] at parsed
  cases offence : firstOffence? [] as with
  | some failure =>
      rw [offence] at parsed
      cases parsed
  | none =>
      rw [offence] at parsed
      exact (Except.ok.inj parsed).symm

/-- The nodes are told by the slots, but for their order. -/
theorem nodesOf_perm {others : List Assignment} (named : ∀ a ∈ as, a.target? ≠ none)
    (namedToo : ∀ a ∈ others, a.target? ≠ none)
    (same : ∀ target, Slot.ofFillings (fillings target as) =
      Slot.ofFillings (fillings target others)) :
    (nodesOf as).Perm (nodesOf others) := by
  have sameNodes : nodeOf as = nodeOf others := by
    funext id
    rw [nodeOf, nodeOf, Draft.ofLines_congr fun label? => same ⟨id, label?⟩]
  have sameIds : (ids as).Perm (ids others) := by
    apply (List.perm_ext_iff_of_nodup (nodup_ids as) (nodup_ids others)).mpr
    intro id
    rw [mem_ids_iff named, mem_ids_iff namedToo]
    apply exists_congr
    intro label?
    have alike := same ⟨id, label?⟩
    exact not_congr ⟨Slot.eq_nil_of_ofFillings alike, Slot.eq_nil_of_ofFillings alike.symm⟩
  -- Only the list of names has an order; each node is told by its name.
  rw [nodesOf, nodesOf, sameNodes]
  exact sameIds.map _

theorem parseProperties_eq_ok_iff {source : String} {nodes : List EntryNode} :
    parseProperties source = .ok nodes ↔
      firstOffence? [] (assignments source.toList) = none ∧
        nodes = nodesOf (assignments source.toList) := by
  rw [parseProperties, entryNodesOf_eq]
  cases firstOffence? [] (assignments source.toList) <;> simp [eq_comm]

end Drafts

section Offences

variable {before as : List Assignment} {failure : ParseFailure} {target : Target}

theorem firstOffence?_eq_some_iff :
    firstOffence? before as = some failure ↔
      ∃ front a back, as = front ++ a :: back ∧ firstOffence? before front = none ∧
        offence? (before ++ front) a = some failure := by
  induction as generalizing before with
  | nil => simp [firstOffence?]
  | cons first rest ih =>
      rw [firstOffence?, Option.or_eq_some_iff, ih]
      constructor
      · intro refused
        rcases refused with here | ⟨accepted, front, a, back, rfl, quiet, refused⟩
        · exact ⟨[], first, rest, rfl, rfl, by rw [List.append_nil]; exact here⟩
        · refine ⟨first :: front, a, back, rfl, ?_, ?_⟩
          · rw [firstOffence?, accepted, quiet]
            rfl
          · rw [List.append_assoc] at refused
            exact refused
      · rintro ⟨front, a, back, split, quiet, refused⟩
        cases front with
        | nil =>
            obtain ⟨rfl, rfl⟩ := List.cons.inj split
            rw [List.append_nil] at refused
            exact .inl refused
        | cons _ front =>
            obtain ⟨rfl, rfl⟩ := List.cons.inj split
            rw [firstOffence?, Option.or_eq_none_iff] at quiet
            refine .inr ⟨quiet.1, front, a, back, rfl, quiet.2, ?_⟩
            rw [List.append_assoc]
            exact refused

theorem firstOffence?_eq_none_iff :
    firstOffence? before as = none ↔
      ∀ front a back, as = front ++ a :: back → offence? (before ++ front) a = none := by
  induction as generalizing before with
  | nil => simp [firstOffence?]
  | cons first rest ih =>
      rw [firstOffence?, Option.or_eq_none_iff, ih]
      constructor
      · rintro ⟨accepted, later⟩ front a back split
        cases front with
        | nil =>
            obtain ⟨rfl, rfl⟩ := List.cons.inj split
            rw [List.append_nil]
            exact accepted
        | cons _ front =>
            obtain ⟨rfl, rfl⟩ := List.cons.inj split
            have quiet := later front a back rfl
            rwa [List.append_assoc] at quiet
      · intro quiet
        constructor
        · have accepted := quiet [] first rest rfl
          rwa [List.append_nil] at accepted
        · intro front a back split
          rw [List.append_assoc]
          exact quiet (first :: front) a back (by rw [split]; rfl)

/-- No member stands behind a plain text that is no selector. -/
def Steady (fillings : List Filling) : Prop :=
  ∀ before next behind, fillings = before ++ next :: behind → clash? before next = none

theorem fillings_eq_append_cons {front back : List Filling} {filling : Filling}
    (split : fillings target as = front ++ filling :: back) :
    ∃ before a behind, as = before ++ a :: behind ∧ a.target? = some target ∧
      fillings target before = front ∧ a.filling = filling ∧ fillings target behind = back := by
  -- The split of the fillings is pulled back to the lines, first through the map and then
  -- through the filter, which leaves a gap of other lines in front of the one sought.
  obtain ⟨mine, others, parts, here, there⟩ := List.map_eq_append_iff.mp split
  obtain ⟨a, later, rfl, itself, more⟩ := List.map_eq_cons_iff.mp there
  obtain ⟨before, rest, rfl, early, late⟩ := List.filter_eq_append_iff.mp parts
  obtain ⟨gap, behind, rfl, others, meant, last⟩ := List.filter_eq_cons_iff.mp late
  refine ⟨before ++ gap, a, behind, by simp, by simpa using meant, ?_, itself, ?_⟩
  · have nothing : fillings target gap = [] :=
      fillings_eq_nil_iff.mpr fun b member => by simpa using others b member
    rw [fillings_append, nothing, List.append_nil, ← here, ← early]
    rfl
  · rw [← more, ← last]
    rfl

theorem firstOffence?_eq_none_iff_steady :
    firstOffence? [] as = none ↔
      (∀ a ∈ as, a.target? ≠ none) ∧ ∀ target, Steady (fillings target as) := by
  rw [firstOffence?_eq_none_iff]
  constructor
  · intro quiet
    constructor
    · intro a member unnamed
      obtain ⟨front, back, split⟩ := List.append_of_mem member
      have accepted := quiet front a back split
      rw [offence?, unnamed] at accepted
      cases accepted
    · intro target front filling back split
      obtain ⟨before, a, behind, parts, named, rfl, rfl, -⟩ := fillings_eq_append_cons split
      have accepted := quiet before a behind parts
      rw [offence?, named] at accepted
      exact Option.map_eq_none_iff.mp accepted
  · rintro ⟨named, steady⟩ front a back rfl
    rw [List.nil_append, offence?]
    cases meant : a.target? with
    | none => exact absurd meant (named a (by simp))
    | some target =>
        apply Option.map_eq_none_iff.mpr
        exact steady target _ _ _ (by rw [fillings_append, fillings_cons, if_pos meant])

end Offences

section Lines

theorem fillings_filterMap_ofLine? (target : Target) (ls : List LogicalLine) :
    fillings target (ls.filterMap Assignment.ofLine?) =
      fillings target ((ls.map (·.text)).filterMap said?) := by
  induction ls with
  | nil => rfl
  | cons line ls ih =>
      have read := ofLine?_eq line
      rw [List.map_cons]
      cases spoken : said? line.text with
      | none =>
          rw [spoken, Option.map_none] at read
          rw [List.filterMap_cons_none read, List.filterMap_cons_none spoken, ih]
      | some a =>
          rw [spoken, Option.map_some] at read
          rw [List.filterMap_cons_some read, List.filterMap_cons_some spoken]
          rw [fillings_cons, fillings_cons, ih]
          rfl

theorem named_filterMap_ofLine? (ls : List LogicalLine) :
    (∀ a ∈ ls.filterMap Assignment.ofLine?, a.target? ≠ none) ↔
      ∀ a ∈ (ls.map (·.text)).filterMap said?, a.target? ≠ none := by
  constructor
  · intro named a member
    obtain ⟨text, inTexts, spoken⟩ := List.mem_filterMap.mp member
    obtain ⟨line, inLines, rfl⟩ := List.mem_map.mp inTexts
    exact named { a with line := line.number }
      (List.mem_filterMap.mpr ⟨line, inLines, ofLine?_eq_some_iff.mpr ⟨a, spoken, rfl⟩⟩)
  · intro named a member
    obtain ⟨line, inLines, read⟩ := List.mem_filterMap.mp member
    obtain ⟨b, spoken, rfl⟩ := ofLine?_eq_some_iff.mp read
    exact named b (List.mem_filterMap.mpr ⟨line.text, List.mem_map_of_mem inLines, spoken⟩)

theorem fillings_assignmentsOf (target : Target) (bs : List Block) :
    fillings target (assignmentsOf bs) = fillings target (saidIn bs) := by
  rw [assignmentsOf, fillings_filterMap_ofLine?, map_text_numbered, saidIn]

theorem saidIn_append (front back : List Block) :
    saidIn (front ++ back) = saidIn front ++ saidIn back := by
  rw [saidIn, List.map_append, List.filterMap_append]
  rfl

theorem fillings_assignments (target : Target) (source : List Char) :
    fillings target (assignments source) = fillings target (saidIn (blocks source)) := by
  rw [assignments_eq, fillings_assignmentsOf]

theorem fillings_filterMap_said? (target : Target) (ls : List (List Char)) :
    fillings target (ls.filterMap said?) =
      fillings target ((ls.filter (slotOf? · = some target)).filterMap said?) := by
  induction ls with
  | nil => rfl
  | cons line ls ih =>
      cases spoken : said? line with
      | none =>
          have elsewhere : slotOf? line ≠ some target := by
            rw [slotOf?, spoken]
            exact nofun
          rw [List.filterMap_cons_none spoken,
            List.filter_cons_of_neg (by simpa using elsewhere), ih]
      | some a =>
          have slot : slotOf? line = a.target? := by
            rw [slotOf?, spoken]
            rfl
          rw [List.filterMap_cons_some spoken, fillings_cons, ih]
          split
          · rename_i meant
            rw [List.filter_cons_of_pos (by simp [slot, meant]), List.filterMap_cons_some spoken,
              fillings_cons, if_pos meant]
          · rename_i elsewhere
            rw [List.filter_cons_of_neg (by simp [slot, elsewhere])]

end Lines

end Phrasebook.Resource
