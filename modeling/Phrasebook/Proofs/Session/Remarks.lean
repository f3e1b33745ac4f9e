import Phrasebook.Proofs.Session.Contents
import Phrasebook.Proofs.Session.Entity

namespace Phrasebook

def Diagnostic.isLoad (diagnostic : Diagnostic) : Bool :=
  match diagnostic.detail with
  | .load _ _ => true
  | _ => false

/-- Diagnostics without those of failed loads. -/
def Diagnostic.remarksOf (sent : List Diagnostic) : List Diagnostic :=
  sent.filter (!isLoad ·)

/-- A store after some remarks were sent, maybe with diagnostics of failed loads among them. -/
def Store.Tells (store : Store) (remarks : List Diagnostic) (after : Store) : Prop :=
  ∃ sent, after.reports = store.reports ++ sent ∧ Diagnostic.remarksOf sent = remarks

namespace Store.Tells

variable {store middle after : Store} {remarks more : List Diagnostic}

theorem refl (store : Store) : store.Tells [] store :=
  ⟨[], (List.append_nil _).symm, rfl⟩

theorem trans (first : store.Tells remarks middle) (second : middle.Tells more after) :
    store.Tells (remarks ++ more) after := by
  obtain ⟨sent, told, rfl⟩ := first
  obtain ⟨sentThen, toldThen, rfl⟩ := second
  refine ⟨sent ++ sentThen, ?_, List.filter_append sent sentThen⟩
  rw [toldThen, told, List.append_assoc]

theorem reported (store : Store) (noLoad : ∀ remark ∈ remarks, remark.isLoad = false) :
    store.Tells remarks (store.reportAll remarks) :=
  ⟨remarks, rfl, List.filter_eq_self.mpr fun remark member => by simp [noLoad remark member]⟩

theorem ofLoaded (key : Key) (loaded : Loaded) :
    Diagnostic.remarksOf (Diagnostic.ofLoaded key loaded) = [] := by
  cases loaded <;> rfl

theorem shipped (env : Environment) (key : Key) (store : Store) :
    store.Tells [] (env.shipped key store).2 := by
  obtain ⟨loaded, -, same⟩ | ⟨-, same⟩ := env.shipped_cases key store
  · rw [same]
    exact refl store
  · rw [same]
    exact ⟨_, rfl, ofLoaded key _⟩

theorem resource (env : Environment) (key : Key) (store : Store) :
    store.Tells [] (env.resource key store).2 := by
  obtain ⟨loaded, -, same⟩ | ⟨plain, -, -⟩ | ⟨pseudo, -, -, same⟩ := env.resource_cases key store
  · rw [same]
    exact refl store
  · rw [Environment.resource_eq_shipped plain]
    exact shipped env key store
  · rw [same]
    exact shipped env (env.basis key) store

theorem resources (env : Environment) (language : String) (names : List String) (store : Store) :
    store.Tells [] (env.resources language names store).2 := by
  induction names generalizing store with
  | nil => exact refl store
  | cons name names ih => exact (resource env ⟨name, language⟩ store).trans (ih _)

theorem locale (env : Environment) (resources : List String) (link : Link) (store : Store) :
    store.Tells [] (link.locale env resources store).2 := by
  cases built : link.locale? with
  | some kept =>
      simp only [Link.locale, built]
      exact refl store
  | none =>
      simp only [Link.locale, built]
      exact Tells.resources env link.language.code resources store

end Store.Tells

namespace Locale

variable (locale : Locale) (arguments : Arguments) (id : String)

def faulty (label : String) (phrase : Phrase) : Bool :=
  !(locale.text arguments label phrase).isOk

/-- A remark on a phrase that has a fault. -/
def Faults (label : String) (phrase : Phrase) (remark : Diagnostic) : Prop :=
  ∃ fault, locale.text arguments label phrase = .error fault ∧
    remark = ⟨locale.code, .resolve label fault.kind fault.message⟩

/-- A remark on a language that was passed. -/
inductive Passed : Diagnostic → Prop
  | undefined (undefined : locale.entry? id = none) : Passed ⟨locale.code, .notFound id⟩
  | faulty {entry : Entry} {remark : Diagnostic} (defined : locale.entry? id = some entry)
      (faults : locale.Faults arguments id entry.phrase remark) : Passed remark

variable {locale arguments id}

theorem Faults.not_isLoad {label : String} {phrase : Phrase} {remark : Diagnostic}
    (faults : locale.Faults arguments label phrase remark) : remark.isLoad = false := by
  obtain ⟨fault, -, rfl⟩ := faults
  rfl

theorem Passed.not_isLoad {remark : Diagnostic} (passed : locale.Passed arguments id remark) :
    remark.isLoad = false := by
  cases passed with
  | undefined undefined => rfl
  | faulty defined faults => exact faults.not_isLoad

theorem text_of_valueless {phrase : Phrase} (valueless : phrase.hasValue = false) (label : String) :
    locale.text arguments label phrase = .error (.missingValue label) := by
  cases phrase with
  | bare text => cases valueless
  | complex value? index =>
      obtain rfl := Option.not_isSome_iff_eq_none.mp (Bool.not_eq_true _ ▸ valueless)
      have missing := (locale.scope arguments).outcome_valueless (.empty CallStack.defaultLimit)
        label index
      exact congrArg (Except.map Value.display) missing

theorem passed_of_judge {needsValue : Bool} {salvage? after? : Option Found} {remark : Diagnostic}
    (judged : locale.judge arguments id needsValue salvage? = .passes after? remark) :
    locale.Passed arguments id remark := by
  unfold judge attempt at judged
  cases known : locale.entry? id with
  | none =>
      simp only [known, Verdict.passes.injEq] at judged
      exact judged.2 ▸ .undefined known
  | some entry =>
      refine .faulty known ?_
      simp only [known] at judged
      cases valued : entry.phrase.hasValue with
      | false =>
          simp only [valued] at judged
          cases needsValue with
          | false => cases judged
          | true =>
              simp only [Bool.false_eq_true, if_false, if_true, Verdict.passes.injEq] at judged
              exact ⟨_, text_of_valueless valued id, judged.2.symm⟩
      | true =>
          simp only [valued, if_true] at judged
          cases evaluated : locale.text arguments id entry.phrase with
          | ok text => simp [evaluated] at judged
          | error fault =>
              simp only [evaluated, Verdict.passes.injEq] at judged
              exact ⟨fault, evaluated, judged.2.symm⟩

theorem attributeReports_not_isLoad {remark : Diagnostic}
    (member : remark ∈ locale.attributeReports arguments id) : remark.isLoad = false := by
  obtain ⟨named, -, reported⟩ := List.mem_filterMap.mp member
  split at reported
  · cases reported
  · cases reported
    rfl

end Locale

section Search

variable {arguments : Arguments} {id : String}

theorem remarks_passed (needsValue : Bool) (salvage? : Option Found) (locales : List Locale) :
    List.Forall₂ (fun locale => locale.Passed arguments id)
      (locales.takeWhile (Locale.passes · arguments id needsValue))
      (remarks arguments id needsValue salvage? locales) := by
  induction locales generalizing salvage? with
  | nil => exact .nil
  | cons locale locales ih =>
      obtain ⟨stops, found, ends⟩ | ⟨passes, after?, remark, judged⟩ :=
        locale.judge_cases arguments id needsValue salvage?
      · simp [remarks, ends, stops]
      · simp only [remarks, judged, List.takeWhile_cons, passes, if_true]
        exact .cons (Locale.passed_of_judge judged) (ih after?)

variable (arguments id)

/-- The language whose entity is answered. -/
def reported? (locales : List Locale) : Option Locale :=
  if ((settling? arguments id locales).bind (Locale.done? · arguments id)).isSome then
    settling? arguments id locales
  else (salvaging? arguments id locales).or (settling? arguments id locales)

variable {arguments id}

theorem search_reported (locales : List Locale) :
    (search arguments id false none locales).locale? = reported? arguments id locales := by
  rw [search_entity, Option.none_or, reported?]
  cases (settling? arguments id locales).bind (Locale.done? · arguments id) with
  | some text => rfl
  | none =>
      cases salvaging : salvaging? arguments id locales with
      | none =>
          rw [salvageIn?_of_none salvaging]
          rfl
      | some locale =>
          obtain ⟨text, source, -, left⟩ := salvaging?_partial locales salvaging
          rw [left]
          rfl

end Search

namespace Session

variable {session : Session} {name : String} {context : Context}

theorem entityOf_reported (arguments : Arguments) (id : String) (locales : List Locale) :
    let answered := Context.entityOf id arguments (search arguments id false none locales)
    answered.1.language? = (reported? arguments id locales).map Locale.code ∧
      answered.2 =
        ((reported? arguments id locales).map fun locale =>
          locale.attributeReports arguments id).getD [] := by
  simp only [← search_reported, Context.entityOf]
  cases (search arguments id false none locales).locale? <;> exact ⟨rfl, rfl⟩

end Session

end Phrasebook
