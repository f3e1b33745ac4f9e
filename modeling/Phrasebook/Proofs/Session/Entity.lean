import Phrasebook.Proofs.Evaluation.Reach
import Phrasebook.Proofs.Session.Fallback

namespace Phrasebook

namespace Locale

variable (locale : Locale) (arguments : Arguments) (id : String)

def done? : Option String :=
  match locale.attempt arguments id with
  | .done text => some text
  | _ => none

def partial? : Option String :=
  match locale.attempt arguments id with
  | .failed (.value salvage _) => some salvage
  | _ => none

/-- Whether there is an entry that evaluates or has no value. -/
def settles : Bool :=
  match locale.attempt arguments id with
  | .done _ => true
  | .valueless => true
  | _ => false

def salvageFound? : Option Found :=
  (locale.partial? arguments id).map fun text => ⟨some text, some locale⟩

theorem passes_entity :
    locale.passes arguments id false = !locale.settles arguments id := by
  simp only [passes, settles]
  cases locale.attempt arguments id <;> rfl

theorem judge_entity (salvage? : Option Found) :
    (∃ text, locale.done? arguments id = some text ∧ locale.settles arguments id = true ∧
      locale.judge arguments id false salvage? = .ends ⟨some text, some locale⟩) ∨
    (locale.done? arguments id = none ∧ locale.settles arguments id = true ∧
      locale.judge arguments id false salvage? = .ends (salvage?.getD ⟨none, some locale⟩)) ∨
    (∃ detail, locale.settles arguments id = false ∧
      locale.judge arguments id false salvage? =
        .passes (salvage?.or (locale.salvageFound? arguments id)) detail) := by
  simp only [settles, done?, salvageFound?, partial?, judge]
  cases locale.attempt arguments id with
  | missing => exact .inr (.inr ⟨_, rfl, by rw [Option.map_none, Option.or_none]⟩)
  | valueless => exact .inr (.inl ⟨rfl, rfl, rfl⟩)
  | done text => exact .inl ⟨text, rfl, rfl, rfl⟩
  | failed fault =>
      refine .inr (.inr ⟨.ofFault locale.code id fault, rfl, ?_⟩)
      cases fault <;> rfl

end Locale

section Search

variable (arguments : Arguments) (id : String)

/-- The first language in which the entry evaluates or has no value. -/
def settling? (locales : List Locale) : Option Locale :=
  locales.find? (Locale.settles · arguments id)

/-- The first language before it in which text is left of a faulty value. -/
def salvaging? (locales : List Locale) : Option Locale :=
  (locales.takeWhile (!Locale.settles · arguments id)).find?
    fun locale => (locale.partial? arguments id).isSome

def salvageIn? (locales : List Locale) : Option Found :=
  (salvaging? arguments id locales).bind (Locale.salvageFound? · arguments id)

variable {arguments id} {locale : Locale}

theorem settling?_of_settled (settled : locale.settles arguments id = true)
    (locales : List Locale) : settling? arguments id (locale :: locales) = some locale :=
  List.find?_cons_of_pos settled

theorem settling?_of_unsettled (unsettled : locale.settles arguments id = false)
    (locales : List Locale) :
    settling? arguments id (locale :: locales) = settling? arguments id locales :=
  List.find?_cons_of_neg (by simp [unsettled])

theorem salvageIn?_of_settled (settled : locale.settles arguments id = true)
    (locales : List Locale) : salvageIn? arguments id (locale :: locales) = none := by
  simp [salvageIn?, salvaging?, settled]

theorem salvageIn?_of_unsettled (unsettled : locale.settles arguments id = false)
    (locales : List Locale) :
    salvageIn? arguments id (locale :: locales) =
      (locale.salvageFound? arguments id).or (salvageIn? arguments id locales) := by
  simp only [salvageIn?, salvaging?, List.takeWhile_cons, unsettled, Bool.not_false, if_true,
    List.find?_cons]
  cases left : locale.partial? arguments id <;> simp [Locale.salvageFound?, left]

theorem search_entity (salvage? : Option Found) (locales : List Locale) :
    search arguments id false salvage? locales =
      match (settling? arguments id locales).bind (Locale.done? · arguments id) with
      | some text => ⟨some text, settling? arguments id locales⟩
      | none =>
          (salvage?.or (salvageIn? arguments id locales)).getD
            ⟨none, settling? arguments id locales⟩ := by
  induction locales generalizing salvage? with
  | nil => cases salvage? <;> rfl
  | cons locale locales ih =>
      rw [search]
      obtain ⟨text, done, settled, ends⟩ | ⟨undone, settled, ends⟩ | ⟨detail, unsettled, passes⟩ :=
        locale.judge_entity arguments id salvage?
      · rw [ends, settling?_of_settled settled, Option.bind_some, done]
      · rw [ends, settling?_of_settled settled, Option.bind_some, undone,
          salvageIn?_of_settled settled, Option.or_none]
      · rw [passes, settling?_of_unsettled unsettled, salvageIn?_of_unsettled unsettled,
          ← Option.or_assoc]
        exact ih _

theorem salvaging?_partial (locales : List Locale) {salvaging : Locale}
    (first : salvaging? arguments id locales = some salvaging) :
    ∃ text source, salvaging.attempt arguments id = .failed (.value text source) ∧
      salvageIn? arguments id locales = some ⟨some text, some salvaging⟩ := by
  have left := List.find?_some first
  simp only [salvageIn?, first, Option.bind_some, Locale.salvageFound?]
  unfold Locale.partial? at left ⊢
  split at left
  · rename_i text source attempted
    exact ⟨text, source, attempted, rfl⟩
  · cases left

theorem salvageIn?_of_none {locales : List Locale}
    (none : salvaging? arguments id locales = none) : salvageIn? arguments id locales = .none := by
  rw [salvageIn?, none]
  rfl

end Search

namespace Locale

variable {locale other : Locale} {arguments : Arguments} {id : String}

end Locale

namespace Session

end Session

end Phrasebook
