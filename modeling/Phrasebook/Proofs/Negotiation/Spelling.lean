import Phrasebook.Proofs.Negotiation.Chain
import Phrasebook.Session.Context

namespace Phrasebook

open Negotiation

namespace Negotiation

/-- What a chain is made of: the matches of the requested tags, then the default language. -/
def proposed (default : String) (available requested : List String) : List String :=
  requested.filterMap (bestMatch? available) ++ [default]

variable {default code : String} {available requested chain : List String}

theorem mem_proposed :
    code ∈ proposed default available requested ↔
      (∃ tag ∈ requested, Matches available tag (some code)) ∨ code = default := by
  simp only [proposed, List.mem_append, List.mem_filterMap, List.mem_singleton, bestMatch?_eq_iff]

theorem mem_foldl_extend {languages : List String} :
    code ∈ languages.foldl extend chain ↔
      code ∈ chain ∨
        (∀ other ∈ chain, ¬ SameTag other code) ∧ First (SameTag · code) languages code := by
  induction languages generalizing chain with
  | nil => simp [First]
  | cons language languages ih =>
      rw [List.foldl_cons, ih, extend_eq, first_cons]
      by_cases present : chain.any (SameTag · language)
      · obtain ⟨equal, member, same⟩ := List.any_eq_true.mp present
        have equalTo : (∀ other ∈ chain, ¬ SameTag other code) → ¬ SameTag language code :=
          fun apart sameTag => apart equal member ((of_decide_eq_true same).trans sameTag)
        have reflexive : SameTag code code := rfl
        rw [if_pos present, List.append_nil]
        grind
      · have unequal : ∀ other ∈ chain, ¬ SameTag other language := by simpa using present
        have reflexive : SameTag code code := rfl
        rw [if_neg present]
        grind

theorem mem_foldl_extend_nil {languages : List String} :
    code ∈ languages.foldl extend [] ↔ First (SameTag · code) languages code := by
  simp [mem_foldl_extend]

theorem exists_mem_foldl_extend {languages : List String} {kind : String → Prop}
    (respects : ∀ left right, SameTag left right → kind right → kind left) :
    (∃ code ∈ languages.foldl extend [], kind code) ↔ ∃ language ∈ languages, kind language := by
  constructor
  · intro kept
    obtain ⟨code, member, holds⟩ := kept
    exact ⟨code, (mem_foldl_extend_nil.mp member).mem, holds⟩
  · intro known
    obtain ⟨language, member, holds⟩ := known
    obtain ⟨code, first⟩ : ∃ code, First (SameTag · language) languages code :=
      exists_first member rfl
    have same : SameTag code language := first.1
    refine ⟨code, mem_foldl_extend_nil.mpr ?_, respects code language same holds⟩
    simpa only [SameTag, same.symm] using first

theorem negotiate_eq_ok_iff :
    negotiate default available requested = .ok chain ↔
      requested ≠ [] ∧ (∀ tag ∈ requested, isWellFormed tag = true) ∧
        chain = (proposed default available requested).foldl extend [] := by
  by_cases asked : requested = []
  · simp [negotiate, asked]
  rcases wellFormed_or_first requested with wellFormed | ⟨tag, first⟩
  · have found : (requested.map (bestMatch? available)).reduceOption =
        requested.filterMap (bestMatch? available) := by
      rw [List.reduceOption, List.filterMap_map, Function.id_comp]
    rw [negotiate_of_wellFormed default available asked wellFormed, found, proposed,
      List.foldl_append, Except.ok.injEq]
    exact ⟨fun made => ⟨asked, wellFormed, made.symm⟩, fun facts => facts.2.2.symm⟩
  · rw [negotiate_of_malformed default available first]
    constructor
    · intro failed
      cases failed
    · intro facts
      obtain ⟨-, wellFormed, -⟩ := facts
      exact absurd (wellFormed tag first.mem) first.1

theorem distinct_of_negotiate (negotiated : negotiate default available requested = .ok chain) :
    Distinct chain := by
  obtain ⟨-, -, rfl⟩ := negotiate_eq_ok_iff.mp negotiated
  exact Distinct.foldl_extend .nil _

theorem mem_negotiate_iff (negotiated : negotiate default available requested = .ok chain) :
    code ∈ chain ↔ First (SameTag · code) (proposed default available requested) code := by
  obtain ⟨-, -, rfl⟩ := negotiate_eq_ok_iff.mp negotiated
  exact mem_foldl_extend_nil

theorem exists_default (negotiated : negotiate default available requested = .ok chain) :
    ∃ code ∈ chain, SameTag code default := by
  obtain ⟨-, -, rfl⟩ := negotiate_eq_ok_iff.mp negotiated
  exact (exists_mem_foldl_extend fun _ _ same isDefault => same.trans isDefault).mpr
    ⟨default, mem_proposed.mpr (.inr rfl), rfl⟩

/-- Nothing available is equal to a tag, so it takes the first language with its primary subtag. -/
structure FallsBackTo (available : List String) (tag language : String) : Prop where
  plain : ∀ pseudo : Pseudo, normalForm tag ≠ pseudo.code
  unequal : ∀ other ∈ available, ¬ SameTag other tag
  first : First (FallsBack tag) available language

theorem FallsBackTo.matches {tag language : String} (falls : FallsBackTo available tag language) :
    Matches available tag (some language) :=
  .fallback falls.plain falls.unequal falls.first

theorem FallsBackTo.misspelled {tag language : String} (falls : FallsBackTo available tag language)
    (pseudo : Pseudo) : language ≠ pseudo.code :=
  falls.first.1.plain pseudo

theorem normalForm_code (pseudo : Pseudo) : normalForm pseudo.code = pseudo.code := by
  cases pseudo <;> decide +kernel

theorem Matches.pseudo_or_fallback {tag language : String} {pseudo : Pseudo}
    (matched : Matches available tag (some language))
    (isPseudo : normalForm language = pseudo.code) :
    normalForm tag = pseudo.code ∨ FallsBackTo available tag language := by
  cases matched with
  | pseudo other same => exact .inl (same.trans ((normalForm_code other).symm.trans isPseudo))
  | equal plain first => exact .inl (first.1.symm.trans isPseudo)
  | fallback plain unequal first => exact .inr ⟨plain, unequal, first⟩

/-- A chain has a pseudo-locale exactly if one is requested or the default, or if the list of
available languages spells one in its own way and a requested tag falls back to it. -/
theorem exists_pseudo_iff (negotiated : negotiate default available requested = .ok chain)
    (pseudo : Pseudo) :
    (∃ code ∈ chain, normalForm code = pseudo.code) ↔
      (∃ tag ∈ requested, normalForm tag = pseudo.code) ∨ normalForm default = pseudo.code ∨
        ∃ tag ∈ requested, ∃ language ∈ available, FallsBackTo available tag language ∧
          normalForm language = pseudo.code ∧ language ≠ pseudo.code := by
  obtain ⟨-, -, rfl⟩ := negotiate_eq_ok_iff.mp negotiated
  rw [exists_mem_foldl_extend fun _ _ same isPseudo => same.trans isPseudo]
  constructor
  · intro proposedPseudo
    obtain ⟨language, member, isPseudo⟩ := proposedPseudo
    rcases mem_proposed.mp member with ⟨tag, asked, matched⟩ | rfl
    · rcases matched.pseudo_or_fallback isPseudo with same | falls
      · exact .inl ⟨tag, asked, same⟩
      · exact .inr (.inr ⟨tag, asked, language, falls.first.mem, falls, isPseudo,
          falls.misspelled pseudo⟩)
    · exact .inr (.inl isPseudo)
  · intro ways
    rcases ways with ⟨tag, asked, same⟩ | isDefault | ⟨tag, asked, language, -, falls, isPseudo, -⟩
    · exact ⟨pseudo.code, mem_proposed.mpr (.inl ⟨tag, asked, .pseudo pseudo same⟩),
        normalForm_code pseudo⟩
    · exact ⟨default, mem_proposed.mpr (.inr rfl), isDefault⟩
    · exact ⟨language, mem_proposed.mpr (.inl ⟨tag, asked, falls.matches⟩), isPseudo⟩

/-- A requested tag is matched with the default language, however that is spelled. -/
def Meets (available : List String) (default tag : String) : Prop :=
  ∃ language, Matches available tag (some language) ∧ SameTag language default

/-- The languages that tags can be matched with. Pseudo-locales are always among them. -/
def Matchable (available : List String) (language : String) : Prop :=
  language ∈ available ∨ ∃ pseudo : Pseudo, language = pseudo.code

theorem Matches.matchable {tag language : String}
    (matched : Matches available tag (some language)) : Matchable available language := by
  cases matched with
  | pseudo pseudo same => exact .inr ⟨pseudo, rfl⟩
  | equal plain first => exact .inl first.mem
  | fallback plain unequal first => exact .inl first.mem

theorem first_proposed_of_meets {head language : String}
    (matched : Matches available head (some language)) (same : SameTag language default) :
    First (SameTag · default) (proposed default available (head :: requested)) default ↔
      Matches available head (some default) := by
  rw [proposed, List.filterMap_cons_some matched.bestMatch?_eq, List.cons_append, first_cons]
  constructor
  · intro first
    rcases first with ⟨rfl, -⟩ | ⟨unequal, -⟩
    · exact matched
    · exact absurd same unequal
  · intro verbatim
    exact .inl ⟨Option.some.inj (matched.bestMatch?_eq.symm.trans verbatim.bestMatch?_eq), rfl⟩

theorem first_proposed_of_not_meets {head : String} (unmet : ¬ Meets available default head) :
    First (SameTag · default) (proposed default available (head :: requested)) default ↔
      First (SameTag · default) (proposed default available requested) default := by
  unfold proposed
  cases found : bestMatch? available head with
  | none => rw [List.filterMap_cons_none found]
  | some language =>
      have unequal : ¬ SameTag language default :=
        fun same => unmet ⟨language, bestMatch?_eq_iff.mp found, same⟩
      have differs : language ≠ default := fun same => unequal (congrArg normalForm same)
      rw [List.filterMap_cons_some found, List.cons_append, first_cons]
      simp only [differs, unequal, false_and, false_or, not_false_eq_true, true_and]

/-- Whether the default language is the first of its equals is settled by the first requested tag
that is matched with one of them. -/
theorem first_proposed_iff :
    First (SameTag · default) (proposed default available requested) default ↔
      ∀ tag, First (Meets available default) requested tag →
        Matches available tag (some default) := by
  induction requested with
  | nil =>
      constructor
      · exact fun _ tag first => absurd first.mem List.not_mem_nil
      · exact fun _ => ⟨rfl, [], [], rfl, List.forall_mem_nil _⟩
  | cons head requested ih =>
      by_cases met : Meets available default head
      · obtain ⟨language, matched, same⟩ := met
        rw [first_proposed_of_meets matched same]
        constructor
        · intro verbatim tag first
          obtain ⟨rfl, -⟩ | ⟨unmet, -⟩ := first_cons.mp first
          · exact verbatim
          · exact absurd ⟨language, matched, same⟩ unmet
        · exact fun settled => settled head (first_cons.mpr (.inl ⟨rfl, language, matched, same⟩))
      · rw [first_proposed_of_not_meets met, ih]
        constructor
        · intro settled tag first
          obtain ⟨rfl, holds⟩ | ⟨-, later⟩ := first_cons.mp first
          · exact absurd holds met
          · exact settled tag later
        · exact fun settled tag first => settled tag (first_cons.mpr (.inr ⟨met, first⟩))

end Negotiation

section PseudoLocales

variable {default : String} {available requested chain : List String}

/-- Where the list of available languages spells a pseudo-locale as it is spelled, it only matches
exactly. Otherwise there is one more way for it to get into a chain: a tag can fall back to it. -/
theorem pseudo_locales_match_exactly
    (negotiated : negotiate default available requested = .ok chain) (pseudo : Pseudo) :
    ((∀ language ∈ available, normalForm language = pseudo.code → language = pseudo.code) →
      ∀ code ∈ chain, normalForm code = pseudo.code →
        (∃ tag ∈ requested, SameTag tag code) ∨ SameTag default code) ∧
    ((∃ code ∈ chain, normalForm code = pseudo.code) ↔
      (∃ tag ∈ requested, normalForm tag = pseudo.code) ∨ normalForm default = pseudo.code ∨
        ∃ tag ∈ requested, ∃ language ∈ available, FallsBackTo available tag language ∧
          normalForm language = pseudo.code ∧ language ≠ pseudo.code) := by
  have exactly := exists_pseudo_iff negotiated pseudo
  refine ⟨fun canonical code member isPseudo => ?_, exactly⟩
  obtain ⟨tag, asked, same⟩ | isDefault | ⟨-, -, language, listed, -, respelled, misspelled⟩ :=
    exactly.mp ⟨code, member, isPseudo⟩
  · exact .inl ⟨tag, asked, same.trans isPseudo.symm⟩
  · exact .inr (isDefault.trans isPseudo.symm)
  · exact absurd (canonical language listed respelled) misspelled

theorem pseudo_locales_match_exactly_spellings :
    let available := ["qps-ploc", "en-US", "de"]
    let requested := ["qps-x-test", "QPS_plocm", "qps-ploca"]
    let chain := ["qps-plocm", "en-US"]
    negotiate "en-US" available requested = .ok chain ∧
    (∀ language ∈ available, normalForm language = Pseudo.flipped.code →
      language = Pseudo.flipped.code) ∧
    "qps-plocm" ∈ chain ∧ normalForm "qps-plocm" = Pseudo.flipped.code ∧
    ((∃ tag ∈ requested, SameTag tag "qps-plocm") ∨ SameTag "en-US" "qps-plocm") := by
  intro available requested chain
  have negotiated : negotiate "en-US" available requested = .ok chain := by decide +kernel
  have canonical : ∀ language ∈ available, normalForm language = Pseudo.flipped.code →
      language = Pseudo.flipped.code := by decide +kernel
  have member : "qps-plocm" ∈ chain := by decide
  have isPseudo := normalForm_code .flipped
  exact ⟨negotiated, canonical, member, isPseudo,
    (pseudo_locales_match_exactly negotiated .flipped).1 canonical _ member isPseudo⟩

/-- The list spells a pseudo-locale in its own way, and a tag that is no pseudo-locale takes it. -/
theorem fallback_takes_pseudo_locale :
    let available := ["en-US", "qps-Ploc"]
    negotiate "en-US" available ["qps-ploca"] = .ok ["qps-Ploc", "en-US"] ∧
    normalForm "qps-Ploc" = Pseudo.accented.code ∧
    ¬ ((∃ tag ∈ ["qps-ploca"], normalForm tag = Pseudo.accented.code) ∨
      normalForm "en-US" = Pseudo.accented.code) := by
  decide +kernel

end PseudoLocales

section DefaultLanguage

variable {env : Environment} {context after : Context} {requested : List String}

theorem Context.request_codes (accepted : context.request env requested = .ok after) :
    negotiate env.defaultLanguage env.available requested =
      .ok (after.languages.map Language.code) := by
  unfold Context.request at accepted
  cases negotiated : negotiate env.defaultLanguage env.available requested with
  | error failure => simp [negotiated, Except.map] at accepted
  | ok codes =>
      simp only [negotiated, Except.map, Except.ok.injEq] at accepted
      subst accepted
      simp [Context.languages, Function.comp_def, Language.ofCode]

/-- Exactly one language of a chain is equal to the default language. It is spelled as the default
language is, so that the resources of that are found, exactly if the first requested tag that is
matched with an equal of the default language is matched with the default language itself. This is
so for every request where neither a pseudo-locale nor an available language is an equal of the
default language in another spelling. -/
theorem default_kept_as_spelled (accepted : context.request env requested = .ok after) :
    let codes := after.languages.map Language.code
    ((∀ language, Matchable env.available language → SameTag language env.defaultLanguage →
        language = env.defaultLanguage) →
      env.defaultLanguage ∈ codes) ∧
    (env.defaultLanguage ∈ codes ↔
      ∀ tag, First (Meets env.available env.defaultLanguage) requested tag →
        Matches env.available tag (some env.defaultLanguage)) ∧
    ∃ code ∈ codes, SameTag code env.defaultLanguage ∧
      ∀ other ∈ codes, SameTag other env.defaultLanguage → other = code := by
  intro codes
  have negotiated : negotiate env.defaultLanguage env.available requested = .ok codes :=
    Context.request_codes accepted
  have distinct := distinct_of_negotiate negotiated
  obtain ⟨code, member, same⟩ := exists_default negotiated
  refine ⟨fun noOther => ?_, ?_, code, member, same, fun other inChain otherSame =>
    distinct.eq_of_same inChain member (otherSame.trans same.symm)⟩
  · obtain ⟨tag, -, matched⟩ | verbatim :=
      mem_proposed.mp ((mem_negotiate_iff negotiated).mp member).mem
    · exact noOther code matched.matchable same ▸ member
    · exact verbatim ▸ member
  · rw [mem_negotiate_iff negotiated, first_proposed_iff]

theorem default_kept_as_spelled_behind :
    let env : Environment := ⟨"en-US", ["de", "qps-ploc", "en-US"], .standard⟩
    let context : Context := { resources := ["app.properties"] }
    let requested := ["de_AT", "qps-ploc"]
    (∀ language, Matchable env.available language → SameTag language env.defaultLanguage →
      language = env.defaultLanguage) ∧
    ∃ after, context.request env requested = .ok after ∧
      after.languages.map Language.code = ["de", "qps-ploc", "en-US"] ∧
      env.defaultLanguage ∈ after.languages.map Language.code := by
  intro env context requested
  have noOther : ∀ language, Matchable env.available language →
      SameTag language env.defaultLanguage → language = env.defaultLanguage := by
    intro language matchable
    rcases matchable with listed | ⟨pseudo, rfl⟩
    · exact (by decide +kernel : ∀ language ∈ env.available,
        SameTag language env.defaultLanguage → language = env.defaultLanguage) language listed
    · cases pseudo <;> decide +kernel
  have negotiated : negotiate env.defaultLanguage env.available requested =
      .ok ["de", "qps-ploc", "en-US"] := by decide +kernel
  obtain ⟨after, accepted⟩ : ∃ after, context.request env requested = .ok after := by
    rw [Context.request, negotiated]
    exact ⟨_, rfl⟩
  have codes : after.languages.map Language.code = ["de", "qps-ploc", "en-US"] :=
    Except.ok.inj ((Context.request_codes accepted).symm.trans negotiated)
  exact ⟨noOther, after, accepted, codes, (default_kept_as_spelled accepted).1 noOther⟩

/-- A request that names the default language, which the list spells in another way, does not reach
its resources; one that names no available language does. -/
theorem default_respelled :
    let env : Environment := ⟨"en_us", ["en-US"], .standard⟩
    let context : Context := { resources := ["app.properties"] }
    let store : Store :=
      { sources := Sources.setText {} ⟨"app.properties", "en_us"⟩ "hello = Hello" }
    let answers (requested : List String) :=
      (context.request env requested).map fun after =>
        (after.languages.map Language.code, (after.resolveValue env "hello" [] store).1)
    answers ["en-us"] = .ok (["en-US"], .ok ⟨"[hello]", none⟩) ∧
    env.defaultLanguage ∉ ["en-US"] ∧
    answers ["de"] = .ok (["en_us"], .ok ⟨"Hello", some "en_us"⟩) := by
  decide +kernel

end DefaultLanguage

end Phrasebook
