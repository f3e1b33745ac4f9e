import Phrasebook.Proofs.Negotiation.Spelling

namespace Phrasebook

open Negotiation

namespace Negotiation

variable {default code : String} {available requested chain : List String}

/-- A list of available languages in which every language can be told from the others: its tags are
well-formed and all different, the default language is among them, and pseudo-locales are spelled as
they are spelled. -/
structure Unambiguous (default : String) (available : List String) : Prop where
  wellFormed : ∀ code ∈ available, isWellFormed code = true
  distinct : Distinct available
  listed : default ∈ available
  canonical : ∀ code ∈ available, ∀ pseudo : Pseudo,
    normalForm code = pseudo.code → code = pseudo.code

theorem isWellFormed_code (pseudo : Pseudo) : isWellFormed pseudo.code = true := by
  cases pseudo <;> decide +kernel

theorem foldl_extend_of_distinct {languages : List String}
    (distinct : Distinct (chain ++ languages)) :
    languages.foldl extend chain = chain ++ languages := by
  induction languages generalizing chain with
  | nil => simp
  | cons language languages ih =>
      have absent : ¬ chain.any (SameTag · language) := by
        have apart := (List.pairwise_append.mp distinct).2.2
        simpa using fun other member => apart other member language List.mem_cons_self
      rw [List.foldl_cons, extend, if_neg absent, ih (by simpa using distinct)]
      simp

namespace Unambiguous

variable (unambiguous : Unambiguous default available)

include unambiguous

theorem matchable_of_proposed (member : code ∈ proposed default available requested) :
    Matchable available code := by
  obtain ⟨tag, -, matched⟩ | rfl := mem_proposed.mp member
  · exact matched.matchable
  · exact .inl unambiguous.listed

theorem wellFormed_of_matchable (matchable : Matchable available code) :
    isWellFormed code = true := by
  obtain listed | ⟨pseudo, rfl⟩ := matchable
  · exact unambiguous.wellFormed code listed
  · exact isWellFormed_code pseudo

theorem first_of_listed (listed : code ∈ available) : First (SameTag · code) available code := by
  obtain ⟨other, first⟩ : ∃ other, First (SameTag · code) available other :=
    exists_first listed rfl
  obtain rfl := unambiguous.distinct.eq_of_same first.mem listed first.1
  exact first

theorem matches_itself (matchable : Matchable available code) :
    Matches available code (some code) := by
  by_cases isPseudo : ∃ pseudo : Pseudo, normalForm code = pseudo.code
  · obtain ⟨pseudo, same⟩ := isPseudo
    have verbatim : code = pseudo.code := by
      obtain listed | ⟨other, rfl⟩ := matchable
      · exact unambiguous.canonical code listed pseudo same
      · exact (normalForm_code other).symm.trans same
    exact verbatim ▸ .pseudo pseudo (normalForm_code pseudo)
  · obtain listed | ⟨pseudo, rfl⟩ := matchable
    · exact .equal (not_exists.mp isPseudo) (unambiguous.first_of_listed listed)
    · exact absurd ⟨pseudo, normalForm_code pseudo⟩ isPseudo

theorem proposed_again (matchable : ∀ code ∈ chain, Matchable available code) :
    proposed default available chain = chain ++ [default] := by
  have itself : chain.filterMap (bestMatch? available) = chain.filterMap some :=
    List.filterMap_congr fun code member =>
      (unambiguous.matches_itself (matchable code member)).bestMatch?_eq
  rw [proposed, itself, List.filterMap_some]

end Unambiguous

end Negotiation

/-- Where the available languages can be told from one another, negotiating again with a chain gives
the same chain. -/
theorem renegotiated_chain {default : String} {available requested chain : List String}
    (unambiguous : Unambiguous default available)
    (negotiated : negotiate default available requested = .ok chain) :
    negotiate default available chain = .ok chain := by
  have matchable : ∀ code ∈ chain, Matchable available code := fun code member =>
    unambiguous.matchable_of_proposed ((mem_negotiate_iff negotiated).mp member).mem
  have whole : chain.foldl extend [] = chain :=
    foldl_extend_of_distinct (distinct_of_negotiate negotiated)
  have complete : extend chain default = chain := by
    obtain ⟨code, member, same⟩ := exists_default negotiated
    have present : chain.any (SameTag · default) :=
      List.any_eq_true.mpr ⟨code, member, decide_eq_true same⟩
    rw [extend, if_pos present]
  refine negotiate_eq_ok_iff.mpr ⟨negotiate_ne_nil negotiated, ?_, ?_⟩
  · exact fun code member => unambiguous.wellFormed_of_matchable (matchable code member)
  · rw [unambiguous.proposed_again matchable, List.foldl_append, whole]
    exact complete.symm

theorem renegotiated_chain_spellings :
    let available := ["sr-Latn", "sr", "en-GB", "qps-ploc", "en-US"]
    let chain := ["sr", "sr-Latn", "en-GB", "qps-plocm", "en-US"]
    Unambiguous "en-US" available ∧
    negotiate "en-US" available ["SR", "sr_Cyrl", "EN", "ja", " qps-PLOCM"] = .ok chain ∧
    negotiate "en-US" available chain = .ok chain := by
  intro available chain
  have unambiguous : Unambiguous "en-US" available :=
    ⟨by decide +kernel, by unfold Distinct; decide +kernel, by decide, by
      intro code member pseudo
      cases pseudo <;> revert code <;> decide +kernel⟩
  have negotiated :
      negotiate "en-US" available ["SR", "sr_Cyrl", "EN", "ja", " qps-PLOCM"] = .ok chain := by
    decide +kernel
  exact ⟨unambiguous, negotiated, renegotiated_chain unambiguous negotiated⟩

end Phrasebook
