import Mathlib.Data.List.Forall2
import Mathlib.Data.List.Pairwise
import Mathlib.Data.List.ReduceOption
import Phrasebook.Negotiation

namespace Phrasebook

theorem Pseudo.ofCode?_eq_some_iff {code : String} {pseudo : Pseudo} :
    ofCode? code = some pseudo ↔ code = pseudo.code := by
  unfold ofCode?
  constructor
  · intro found
    split at found
    · rename_i same
      cases found
      exact same
    · split at found
      · rename_i same
        cases found
        exact same
      · cases found
  · rintro rfl
    cases pseudo <;> decide

theorem Pseudo.ofCode?_eq_none_iff {code : String} :
    ofCode? code = none ↔ ∀ pseudo : Pseudo, code ≠ pseudo.code := by
  simp only [Option.eq_none_iff_forall_ne_some, ne_eq, ofCode?_eq_some_iff]

namespace Negotiation

/-- A language to fall back to has the primary subtag of a tag and is not spelled as a
pseudo-locale. -/
structure FallsBack (tag other : String) : Prop where
  plain : ∀ pseudo : Pseudo, other ≠ pseudo.code
  primary : primarySubtag other = primarySubtag tag

theorem isFallback_iff {tag other : String} :
    isFallback tag other = true ↔ FallsBack tag other := by
  simp only [isFallback, Bool.and_eq_true, Option.isNone_iff_eq_none, Pseudo.ofCode?_eq_none_iff,
    decide_eq_true_eq]
  exact ⟨fun both => ⟨both.1, both.2⟩, fun falls => ⟨falls.plain, falls.primary⟩⟩

/-- The first of some tags that is of some kind. -/
def First (kind : String → Prop) (tags : List String) (tag : String) : Prop :=
  kind tag ∧ ∃ front rest, tags = front ++ tag :: rest ∧ ∀ earlier ∈ front, ¬ kind earlier

theorem first_of_find? {kind : String → Prop} {decides : String → Bool}
    (decides_iff : ∀ tag, decides tag = true ↔ kind tag) {tags : List String} {tag : String}
    (found : tags.find? decides = some tag) : First kind tags tag := by
  obtain ⟨holds, front, rest, split, earlier⟩ := List.find?_eq_some_iff_append.mp found
  refine ⟨(decides_iff tag).mp holds, front, rest, split, fun other member ofKind => ?_⟩
  have undecided := earlier other member
  rw [(decides_iff other).mpr ofKind] at undecided
  cases undecided

theorem First.find?_eq {kind : String → Prop} {decides : String → Bool}
    (decides_iff : ∀ tag, decides tag = true ↔ kind tag) {tags : List String} {tag : String}
    (first : First kind tags tag) : tags.find? decides = some tag := by
  obtain ⟨holds, front, rest, split, earlier⟩ := first
  refine List.find?_eq_some_iff_append.mpr
    ⟨(decides_iff tag).mpr holds, front, rest, split, fun other member => ?_⟩
  rw [Bool.not_eq_true', Bool.eq_false_iff, ne_eq, decides_iff]
  exact earlier other member

theorem First.mem {kind : String → Prop} {tags : List String} {tag : String}
    (first : First kind tags tag) : tag ∈ tags := by
  obtain ⟨-, front, rest, rfl, -⟩ := first
  simp

theorem exists_first {kind : String → Prop} {tags : List String} {tag : String}
    (member : tag ∈ tags) (holds : kind tag) : ∃ tag, First kind tags tag := by
  classical
  cases found : tags.find? (kind ·) with
  | some first => exact ⟨first, first_of_find? (fun _ => decide_eq_true_iff) found⟩
  | none => exact absurd (decide_eq_true holds) (List.find?_eq_none.mp found tag member)

theorem first_cons {kind : String → Prop} {tags : List String} {head tag : String} :
    First kind (head :: tags) tag ↔
      head = tag ∧ kind tag ∨ ¬ kind head ∧ First kind tags tag := by
  constructor
  · intro first
    obtain ⟨holds, front, rest, split, earlier⟩ := first
    cases front with
    | nil => exact .inl ⟨(List.cons.inj split).1, holds⟩
    | cons other front =>
        obtain ⟨rfl, behind⟩ := List.cons.inj split
        obtain ⟨here, later⟩ := List.forall_mem_cons.mp earlier
        exact .inr ⟨here, holds, front, rest, behind, later⟩
  · intro settled
    rcases settled with ⟨rfl, holds⟩ | ⟨here, holds, front, rest, split, earlier⟩
    · exact ⟨holds, [], tags, rfl, List.forall_mem_nil _⟩
    · refine ⟨holds, head :: front, rest, congrArg (head :: ·) split, ?_⟩
      exact List.forall_mem_cons.mpr ⟨here, earlier⟩

/-- What a requested tag is matched with: a pseudo-locale only with itself, any other with an equal
tag, else with a language to fall back to. -/
inductive Matches (available : List String) (tag : String) : Option String → Prop
  | pseudo (pseudo : Pseudo) (same : normalForm tag = pseudo.code) :
      Matches available tag (some pseudo.code)
  | equal {language : String} (plain : ∀ pseudo : Pseudo, normalForm tag ≠ pseudo.code)
      (first : First (SameTag · tag) available language) :
      Matches available tag (some language)
  | fallback {language : String} (plain : ∀ pseudo : Pseudo, normalForm tag ≠ pseudo.code)
      (unequal : ∀ other ∈ available, ¬ SameTag other tag)
      (first : First (FallsBack tag) available language) :
      Matches available tag (some language)
  | nothing (plain : ∀ pseudo : Pseudo, normalForm tag ≠ pseudo.code)
      (unequal : ∀ other ∈ available, ¬ SameTag other tag)
      (apart : ∀ other ∈ available, ¬ FallsBack tag other) :
      Matches available tag none

theorem matches_bestMatch? (available : List String) (tag : String) :
    Matches available tag (bestMatch? available tag) := by
  unfold bestMatch?
  cases pseudo : Pseudo.ofCode? (normalForm tag) with
  | some pseudo' => exact .pseudo pseudo' (Pseudo.ofCode?_eq_some_iff.mp pseudo)
  | none =>
      have plain := Pseudo.ofCode?_eq_none_iff.mp pseudo
      cases equal : available.find? fun other => SameTag other tag with
      | some language =>
          exact .equal plain (first_of_find? (fun _ => decide_eq_true_iff) equal)
      | none =>
          have unequal : ∀ other ∈ available, ¬ SameTag other tag := by
            simpa using List.find?_eq_none.mp equal
          rw [Option.none_or]
          cases fallback : available.find? (isFallback tag) with
          | some language =>
              exact .fallback plain unequal (first_of_find? (fun _ => isFallback_iff) fallback)
          | none =>
              refine .nothing plain unequal fun other member falls => ?_
              exact List.find?_eq_none.mp fallback other member (isFallback_iff.mpr falls)

theorem Matches.bestMatch?_eq {available : List String} {tag : String} {found : Option String}
    (matched : Matches available tag found) : bestMatch? available tag = found := by
  unfold bestMatch?
  cases matched with
  | pseudo pseudo same => rw [Pseudo.ofCode?_eq_some_iff.mpr same]
  | equal plain first =>
      have equal : available.find? (fun other => SameTag other tag) = some _ :=
        first.find?_eq fun _ => decide_eq_true_iff
      simp only [Pseudo.ofCode?_eq_none_iff.mpr plain, equal, Option.some_or]
  | fallback plain unequal first =>
      have none : available.find? (fun other => SameTag other tag) = none := by simpa using unequal
      simp only [Pseudo.ofCode?_eq_none_iff.mpr plain, none, Option.none_or]
      exact first.find?_eq fun _ => isFallback_iff
  | nothing plain unequal apart =>
      have none : available.find? (fun other => SameTag other tag) = none := by simpa using unequal
      simp only [Pseudo.ofCode?_eq_none_iff.mpr plain, none, Option.none_or]
      exact List.find?_eq_none.mpr fun other member falls =>
        apart other member (isFallback_iff.mp falls)

theorem bestMatch?_eq_iff {available : List String} {tag : String} {found : Option String} :
    bestMatch? available tag = found ↔ Matches available tag found :=
  ⟨fun matched => matched ▸ matches_bestMatch? available tag, Matches.bestMatch?_eq⟩

/-! Adding languages one after another keeps the first of equal ones. -/

theorem extend_eq (chain : List String) (language : String) :
    extend chain language =
      chain ++ if chain.any (SameTag · language) then [] else [language] := by
  unfold extend
  split <;> simp

theorem foldl_extend (chain languages : List String) :
    languages.foldl extend chain =
      chain ++ (languages.filter fun language => !chain.any (SameTag · language)).eraseDupsBy
        (SameTag · ·) := by
  induction languages generalizing chain with
  | nil => simp
  | cons language languages ih =>
      rw [List.foldl_cons, ih, extend_eq]
      by_cases present : chain.any (SameTag · language)
      · rw [List.filter_cons_of_neg (by simpa using present)]
        simp [present]
      · have kept : ∀ other, (!(chain ++ [language]).any (SameTag · other)) =
            (decide (decide (SameTag other language) = false) &&
              !chain.any (SameTag · other)) := by
          intro other
          simp [SameTag, eq_comm, Bool.and_comm]
        rw [if_neg present, List.filter_cons_of_pos (by simpa using present),
          List.eraseDupsBy_cons, List.filter_filter, List.append_assoc, List.singleton_append]
        simp only [kept]

/-- No two tags of a chain are equal. -/
def Distinct (chain : List String) : Prop :=
  chain.Pairwise fun left right => ¬ SameTag left right

theorem Distinct.eq_of_same {chain : List String} (distinct : Distinct chain) {left right : String}
    (inLeft : left ∈ chain) (inRight : right ∈ chain) (same : SameTag left right) :
    left = right := by
  have : Std.Symm fun left right => ¬ SameTag left right :=
    ⟨fun _ _ apart sameTag => apart sameTag.symm⟩
  by_contra differ
  exact distinct.forall inLeft inRight differ same

theorem Distinct.extend {chain : List String} (distinct : Distinct chain) (language : String) :
    Distinct (extend chain language) := by
  unfold Negotiation.extend
  split
  · exact distinct
  · rename_i absent
    refine List.pairwise_append.mpr ⟨distinct, List.pairwise_singleton _ _, ?_⟩
    rintro other member _ last same
    obtain rfl := List.mem_singleton.mp last
    exact absent (List.any_eq_true.mpr ⟨other, member, decide_eq_true same⟩)

theorem Distinct.foldl_extend {chain : List String} (distinct : Distinct chain)
    (languages : List String) : Distinct (languages.foldl Negotiation.extend chain) := by
  induction languages generalizing chain with
  | nil => exact distinct
  | cons language languages ih => exact ih (distinct.extend language)

theorem exists_same_extend (chain : List String) (language : String) :
    ∃ code ∈ extend chain language, SameTag code language := by
  unfold extend
  split
  · rename_i present
    obtain ⟨code, member, same⟩ := List.any_eq_true.mp present
    exact ⟨code, member, of_decide_eq_true same⟩
  · exact ⟨language, List.mem_append_right _ (List.mem_singleton_self _), rfl⟩

/-! Requested tags are matched up to the first that is not well-formed. -/

theorem matchAll_of_wellFormed (available chain : List String) {requested : List String}
    (wellFormed : ∀ tag ∈ requested, isWellFormed tag = true) :
    matchAll available chain requested =
      .ok ((requested.map (bestMatch? available)).reduceOption.foldl extend chain) := by
  induction requested generalizing chain with
  | nil => rfl
  | cons tag requested ih =>
      obtain ⟨here, later⟩ := List.forall_mem_cons.mp wellFormed
      rw [matchAll, if_pos here, List.map_cons]
      cases bestMatch? available tag with
      | none => exact ih chain later
      | some language => exact ih (extend chain language) later

theorem matchAll_of_malformed (available chain : List String) {front rest : List String}
    {tag : String} (wellFormed : ∀ earlier ∈ front, isWellFormed earlier = true)
    (malformed : ¬ isWellFormed tag = true) :
    matchAll available chain (front ++ tag :: rest) = .error (.invalidLanguage tag) := by
  induction front generalizing chain with
  | nil => exact if_neg malformed
  | cons earlier front ih =>
      obtain ⟨here, later⟩ := List.forall_mem_cons.mp wellFormed
      rw [List.cons_append, matchAll, if_pos here]
      cases bestMatch? available earlier with
      | none => exact ih chain later
      | some language => exact ih (extend chain language) later

theorem wellFormed_or_first (requested : List String) :
    (∀ tag ∈ requested, isWellFormed tag = true) ∨
      ∃ tag, First (¬ isWellFormed · = true) requested tag := by
  cases malformed : requested.find? (!isWellFormed ·) with
  | none => exact .inl fun tag member => by simpa using List.find?_eq_none.mp malformed tag member
  | some tag => exact .inr ⟨tag, first_of_find? (by simp) malformed⟩

end Negotiation

section Negotiate

open Negotiation

variable (default : String) (available : List String) {requested : List String}

theorem negotiate_of_wellFormed (asked : requested ≠ [])
    (wellFormed : ∀ tag ∈ requested, isWellFormed tag = true) :
    negotiate default available requested =
      .ok (extend ((requested.map (bestMatch? available)).reduceOption.foldl extend [])
        default) := by
  rw [negotiate, if_neg asked, matchAll_of_wellFormed available [] wellFormed]
  rfl

theorem negotiate_of_malformed {tag : String}
    (first : First (¬ isWellFormed · = true) requested tag) :
    negotiate default available requested = .error (.invalidLanguage tag) := by
  obtain ⟨malformed, front, rest, rfl, earlier⟩ := first
  have wellFormed : ∀ earlier ∈ front, isWellFormed earlier = true :=
    fun other member => not_not.mp (earlier other member)
  rw [negotiate, if_neg (by simp), matchAll_of_malformed available [] wellFormed malformed]
  rfl

theorem negotiate_ne_nil {default : String} {available chain : List String}
    (negotiated : negotiate default available requested = .ok chain) : chain ≠ [] := by
  unfold negotiate at negotiated
  split at negotiated
  · cases negotiated
  · cases matched : matchAll available [] requested with
    | error failure => simp [matched, Except.map] at negotiated
    | ok kept =>
        simp only [matched, Except.map, Except.ok.injEq] at negotiated
        obtain ⟨code, member, -⟩ := exists_same_extend kept default
        exact List.ne_nil_of_mem (negotiated ▸ member)

/-- Negotiation fails exactly for the first requested tag that is not well-formed. Else the chain
has the matches of the requested tags in their order, the first of equal ones only, and then the
default language if it is not equal to one of them. So its tags are all different, and one of them
is the default. -/
theorem chain_negotiated (default : String) (available requested : List String)
    (asked : requested ≠ []) :
    (∀ failure, negotiate default available requested = .error failure ↔
      ∃ tag, First (¬ isWellFormed · = true) requested tag ∧ failure = .invalidLanguage tag) ∧
    ((∀ tag ∈ requested, isWellFormed tag = true) →
      ∃ found, List.Forall₂ (Matches available) requested found ∧
        let kept := found.reduceOption.eraseDupsBy (SameTag · ·)
        let chain := kept ++ if kept.any (SameTag · default) then [] else [default]
        negotiate default available requested = .ok chain ∧
        Distinct chain ∧ (∃ code ∈ chain, SameTag code default) ∧ chain ≠ []) := by
  constructor
  · intro failure
    constructor
    · intro failed
      rcases wellFormed_or_first requested with wellFormed | ⟨tag, first⟩
      · rw [negotiate_of_wellFormed default available asked wellFormed] at failed
        cases failed
      · rw [negotiate_of_malformed default available first] at failed
        exact ⟨tag, first, (Except.error.inj failed).symm⟩
    · rintro ⟨tag, first, rfl⟩
      exact negotiate_of_malformed default available first
  · intro wellFormed
    refine ⟨requested.map (bestMatch? available), ?_, ?_⟩
    · rw [List.forall₂_map_right_iff]
      exact List.forall₂_same.mpr fun tag _ => matches_bestMatch? available tag
    · intro kept chain
      have kept_eq : (requested.map (bestMatch? available)).reduceOption.foldl extend [] = kept := by
        rw [foldl_extend]
        simp [kept]
      have chain_eq : extend kept default = chain := extend_eq kept default
      have distinct : Distinct kept := kept_eq ▸ Distinct.foldl_extend .nil _
      have same := exists_same_extend kept default
      rw [chain_eq] at same
      refine ⟨?_, chain_eq ▸ distinct.extend default, same, ?_⟩
      · rw [negotiate_of_wellFormed default available asked wellFormed, kept_eq, chain_eq]
      · obtain ⟨code, member, -⟩ := same
        exact List.ne_nil_of_mem member

theorem chain_negotiated_spellings :
    let available := ["en-US", "de", "sr-Latn"]
    let requested := ["de_AT", "sr", "EN-us", "ja", " qps-PLOC", "de"]
    let chain := ["de", "sr-Latn", "en-US", "qps-ploc"]
    requested ≠ [] ∧ (∀ tag ∈ requested, isWellFormed tag = true) ∧
    negotiate "en_us" available requested = .ok chain ∧ Distinct chain ∧
    (∃ code ∈ chain, SameTag code "en_us") ∧
    negotiate "en_us" available ["de", "not a tag", "-"] =
      .error (.invalidLanguage "not a tag") := by
  intro available requested chain
  have asked : requested ≠ [] := List.cons_ne_nil _ _
  have wellFormed : ∀ tag ∈ requested, isWellFormed tag = true := by decide +kernel
  have computed : negotiate "en_us" available requested = .ok chain := by decide +kernel
  obtain ⟨-, succeeds⟩ := chain_negotiated "en_us" available requested asked
  obtain ⟨found, -, negotiated, distinct, same, -⟩ := succeeds wellFormed
  have isChain := Except.ok.inj (negotiated.symm.trans computed)
  rw [isChain] at distinct same
  obtain ⟨fails, -⟩ :=
    chain_negotiated "en_us" available ["de", "not a tag", "-"] (List.cons_ne_nil _ _)
  refine ⟨asked, wellFormed, computed, distinct, same, (fails _).mpr ⟨"not a tag", ?_, rfl⟩⟩
  exact ⟨by decide +kernel, ["de"], ["-"], rfl, by decide +kernel⟩

end Negotiate

end Phrasebook
