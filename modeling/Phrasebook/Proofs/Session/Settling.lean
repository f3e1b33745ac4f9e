import Phrasebook.Proofs.Session.Gain
import Phrasebook.Proofs.Session.Upkeep

/-! Locales that are settled before they are built. -/

namespace Phrasebook

namespace Link

variable (env : Environment) (resources : List String) (start : Store)

/-- The keys that the locale of a link takes, if it has to be built. -/
def Wants (link : Link) (key : Key) : Prop :=
  link.locale? = none ∧ key.resource ∈ resources ∧ key.language = link.language.code

def WantsFirst (count : Nat) (links : List Link) (key : Key) : Prop :=
  ∃ link ∈ links.take count, link.Wants resources key

/-- The locale that a link has or would be given. -/
def settled (link : Link) : Locale :=
  (link.locale env resources start).1

def settle (link : Link) : Link :=
  { link with locale? := some (link.settled env resources start) }

def settleFirst : Nat → List Link → List Link
  | _, [] => []
  | 0, links => links
  | count + 1, link :: links => link.settle env resources start :: settleFirst count links

variable {env resources start}

@[simp] theorem settleFirst_nil (count : Nat) : settleFirst env resources start count [] = [] := by
  cases count <;> rfl

@[simp] theorem settleFirst_zero (links : List Link) :
    settleFirst env resources start 0 links = links := by
  cases links <;> rfl

@[simp] theorem settleFirst_succ (count : Nat) (link : Link) (links : List Link) :
    settleFirst env resources start (count + 1) (link :: links) =
      link.settle env resources start :: settleFirst env resources start count links := rfl

theorem settleFirst_ne_nil (count : Nat) {links : List Link} (nonempty : links ≠ []) :
    settleFirst env resources start count links ≠ [] := by
  cases links with
  | nil => exact absurd rfl nonempty
  | cons link links => cases count <;> simp

@[simp] theorem settled_settle (link : Link) :
    (link.settle env resources start).settled env resources start =
      link.settled env resources start := rfl

@[simp] theorem settle_settle (link : Link) :
    (link.settle env resources start).settle env resources start =
      link.settle env resources start := rfl

theorem map_settled_settleFirst (count : Nat) (links : List Link) :
    (settleFirst env resources start count links).map (settled env resources start) =
      links.map (settled env resources start) := by
  induction links generalizing count with
  | nil => simp
  | cons link links ih =>
      cases count with
      | zero => simp
      | succ count => simp [ih count]

theorem settleFirst_settleFirst (count earlier : Nat) (links : List Link) :
    settleFirst env resources start count (settleFirst env resources start earlier links) =
      settleFirst env resources start (max count earlier) links := by
  induction links generalizing count earlier with
  | nil => simp
  | cons link links ih =>
      cases count with
      | zero => simp
      | succ count =>
          cases earlier with
          | zero => simp
          | succ earlier => simp [ih count earlier, Nat.succ_max_succ]

theorem fill_settled (count : Nat) (links : List Link) :
    fill links ((links.map (settled env resources start)).take count) =
      settleFirst env resources start count links := by
  induction links generalizing count with
  | nil => simp [fill]
  | cons link links ih =>
      cases count with
      | zero => simp
      | succ count => simp [fill, ih count, settle]

theorem wantsFirst_max (count other : Nat) (links : List Link) (key : Key) :
    WantsFirst resources (max count other) links key ↔
      WantsFirst resources count links key ∨ WantsFirst resources other links key := by
  constructor
  · rintro ⟨link, member, wants⟩
    rcases Nat.le_total count other with le | le
    · rw [Nat.max_eq_right le] at member
      exact .inr ⟨link, member, wants⟩
    · rw [Nat.max_eq_left le] at member
      exact .inl ⟨link, member, wants⟩
  · rintro (⟨link, member, wants⟩ | ⟨link, member, wants⟩)
    · exact ⟨link, List.take_subset_take_left links (Nat.le_max_left count other) member, wants⟩
    · exact ⟨link, List.take_subset_take_left links (Nat.le_max_right count other) member, wants⟩

theorem wantsFirst_cons (count : Nat) (link : Link) (links : List Link) (key : Key) :
    WantsFirst resources (count + 1) (link :: links) key ↔
      link.Wants resources key ∨ WantsFirst resources count links key := by
  simp [WantsFirst]

section Gains

variable (shippedDefault : env.derivedPseudo? env.defaultLanguage = none)
  {store : Store} {wanted : Key → Prop} {details : List Diagnostic}

include shippedDefault

theorem locale_gains (gains : Store.Gains env start wanted details store)
    (resources : List String) (link : Link) :
    (link.locale env resources store).1 = link.settled env resources start ∧
      Store.Gains env start (fun key => wanted key ∨ link.Wants resources key) details
        (link.locale env resources store).2 := by
  cases built : link.locale? with
  | some kept =>
      simp only [settled, locale, built]
      exact ⟨trivial, gains.congr (by simp [Wants, built])⟩
  | none =>
      obtain ⟨loaded, gainsAfter⟩ :=
        gains.resources shippedDefault link.language.code resources
      obtain ⟨loadedAtStart, -⟩ :=
        (Store.Gains.refl env start).resources shippedDefault link.language.code resources
      simp only [settled, locale, built, buildLocale, loaded, loadedAtStart]
      exact ⟨trivial, gainsAfter.congr (by simp [Wants, built])⟩

theorem locales_settled (gains : Store.Gains env start wanted details store)
    (resources : List String) (links : List Link) :
    locales env resources links store = links.map (settled env resources start) := by
  induction links generalizing store wanted with
  | nil => rfl
  | cons link links ih =>
      obtain ⟨here, gainsAfter⟩ := locale_gains shippedDefault gains resources link
      simp only [locales, here, ih gainsAfter, List.map_cons]

/-- It makes no difference to the first of some links how many of them have been settled. -/
theorem settleFirst_cons_gains (gains : Store.Gains env start wanted details store)
    (count : Nat) (link : Link) (links : List Link)
    (covered : ∀ key, WantsFirst resources count (link :: links) key → wanted key) :
    ∃ now, settleFirst env resources start count (link :: links) =
        now :: settleFirst env resources start (count - 1) links ∧
      { now with locale? := some (link.settled env resources start) } =
        link.settle env resources start ∧
      (now.locale env resources store).1 = link.settled env resources start ∧
      Store.Gains env start (fun key => wanted key ∨ link.Wants resources key) details
        (now.locale env resources store).2 := by
  cases count with
  | zero =>
      exact ⟨link, by simp, rfl, locale_gains shippedDefault gains resources link⟩
  | succ count =>
      have wants : ∀ key, link.Wants resources key → wanted key :=
        fun key wants => covered key ((wantsFirst_cons count link links key).mpr (.inl wants))
      exact ⟨link.settle env resources start, rfl, rfl, rfl,
        gains.congr fun key => (or_iff_left_of_imp (wants key)).symm⟩

end Gains

end Link

theorem walk_gains {env : Environment} {start store : Store} {wanted : Key → Prop}
    {details : List Diagnostic} {resources : List String} {count : Nat} {links : List Link}
    (shippedDefault : env.derivedPseudo? env.defaultLanguage = none)
    (gains : Store.Gains env start wanted details store)
    (covered : ∀ key, Link.WantsFirst resources count links key → wanted key)
    (arguments : Arguments) (id : String) (needsValue : Bool) (salvage? : Option Found) :
    let locales := links.map (Link.settled env resources start)
    Store.Gains env start
      (fun key => wanted key ∨ Link.WantsFirst resources
        (visited arguments id needsValue salvage? locales).length links key)
      (details ++ remarks arguments id needsValue salvage? locales)
      (walk env resources arguments id needsValue salvage?
        (Link.settleFirst env resources start count links) store).2.2 := by
  induction links generalizing count store wanted details salvage? with
  | nil =>
      simp only [Link.settleFirst_nil, walk, remarks, List.map_nil, List.append_nil]
      exact gains.congr (by simp [Link.WantsFirst])
  | cons link links ih =>
      obtain ⟨now, split, -, here, gainsHere⟩ :=
        Link.settleFirst_cons_gains shippedDefault gains count link links covered
      simp only [split, walk, here, List.map_cons, visited, remarks]
      cases (link.settled env resources start).judge arguments id needsValue salvage? with
      | ends found =>
          simp only [List.append_nil]
          refine gainsHere.congr ?_
          intro key
          simp [Link.WantsFirst]
      | passes salvage? detail =>
          have coveredLater : ∀ key, Link.WantsFirst resources (count - 1) links key →
              wanted key ∨ link.Wants resources key := by
            rintro key ⟨later, member, wants⟩
            cases count with
            | zero => simp at member
            | succ count =>
                exact .inl (covered key ⟨later, List.mem_cons_of_mem link member, wants⟩)
          have atEnd := ih (gainsHere.reported [detail]) coveredLater salvage?
          simp only [List.append_assoc, List.singleton_append] at atEnd
          refine atEnd.congr ?_
          intro key
          simp only [List.length_cons, Link.wantsFirst_cons, or_assoc]

end Phrasebook
