import Phrasebook.Proofs.Evaluation.Relabelling
import Phrasebook.Proofs.Session.Contents

namespace Phrasebook

/-- No phrase of a table is without a value. -/
def Phrase.AllValued (phrases : Table Phrase) : Prop :=
  ∀ named ∈ phrases, named.2.hasValue = true

theorem Phrase.hasValue_ofNode (bareAllowed : Bool) (value : Node) (index : List Node) :
    (Phrase.ofNode bareAllowed (some value) index).hasValue = true := by
  unfold Phrase.ofNode
  split <;> rfl

theorem AttributeNode.hasValue_compile (node : AttributeNode) : node.compile.hasValue = true := by
  cases node with
  | plain value => exact Phrase.hasValue_ofNode true value []
  | indexed value index => exact Phrase.hasValue_ofNode true value index

theorem Phrase.hasValue_mapLiterals (change : String → String) (phrase : Phrase) :
    (phrase.mapLiterals change).hasValue = phrase.hasValue := by
  match phrase with
  | .bare _ | .complex none _ | .complex (some _) _ => rfl

theorem Loaded.valued_pervades : Pervades (Loaded.EachAttributes Phrase.AllValued) := by
  refine attributes_pervade (fun node named member => ?_) fun change attributes valued named => ?_
  · obtain ⟨⟨label, source⟩, -, rfl⟩ := List.mem_map.mp (Table.mem_ofList member)
    exact source.hasValue_compile
  · intro member
    obtain ⟨before, present, rfl⟩ := List.mem_map.mp member
    exact (Phrase.hasValue_mapLiterals change before.2).trans (valued before present)

namespace Locale

variable {locale : Locale} {arguments : Arguments} {id : String} {phrase : Phrase}

theorem text_eq :
    locale.text arguments id phrase =
      ((locale.scope arguments).outcome (.empty CallStack.defaultLimit) id phrase).map
        Value.display := rfl

theorem text_renamed {left right : String} (valued : phrase.hasValue = true)
    (avoidsLeft : (locale.scope arguments).Avoids phrase left)
    (avoidsRight : (locale.scope arguments).Avoids phrase right) :
    locale.text arguments right phrase =
      (locale.text arguments left phrase).mapError (Fault.headed right) := by
  rw [text_eq, text_eq,
    Scope.outcome_renamed CallStack.defaultLimit valued avoidsLeft avoidsRight]
  cases (locale.scope arguments).outcome (.empty CallStack.defaultLimit) left phrase <;> rfl

theorem text_cyclic {fault : Fault} {chain : List String}
    (failed : locale.text arguments id phrase = .error fault) (root : fault.root = .cyclic chain) :
    ∃ path, (locale.scope arguments).Route phrase path ∧ chain = id :: path ∧ Loops chain := by
  rw [text_eq] at failed
  cases outcome : (locale.scope arguments).outcome (.empty CallStack.defaultLimit) id phrase with
  | ok value =>
      rw [outcome] at failed
      cases failed
  | error other =>
      rw [outcome] at failed
      cases failed
      exact (locale.scope arguments).outcome_cyclic List.nodup_nil outcome root

theorem avoids_of_undefined (undefined : locale.entry? id = none) :
    (locale.scope arguments).Avoids phrase id := by
  have unknown : (locale.scope arguments).phrase? id = none :=
    congrArg (Option.map Entry.phrase) undefined
  exact Scope.avoids_of_unknown unknown

end Locale

namespace Session

/-- What comes of an attribute does not depend on the id that it is evaluated under, as long as it
does not lead to an entry of this id: any other id that no entry has gives the same but at the head
of a chain. Then every cycle that is reported comes back to where its references have been. -/
theorem attribute_ids_only_head_chains {session : Session} (reached : session.Reachable)
    {name : String} {context : Context} (known : session.context? name = some context)
    {locale : Locale} (built : locale ∈ context.locales session.env session.store)
    {id label : String} {entry : Entry} {phrase : Phrase}
    (defined : locale.entry? id = some entry) (listed : (label, phrase) ∈ entry.attributes)
    (arguments : Arguments)
    (avoids : (locale.scope arguments).Avoids phrase (Locale.attributeId id label)) :
    let own := Locale.attributeId id label
    (∀ other, locale.entry? other = none →
      locale.text arguments own phrase =
        (locale.text arguments other phrase).mapError (Fault.headed own)) ∧
    ∀ fault chain, locale.text arguments own phrase = .error fault → fault.root = .cyclic chain →
      ∃ path, chain = own :: path ∧ (locale.scope arguments).Route phrase path ∧ Loops path := by
  intro own
  have contents := Loaded.valued_pervades.reachable reached
  have all := Loaded.valued_pervades.locales contents.sound (contents.holds name context known)
    locale built
  have valued : phrase.hasValue = true := all.attributes defined (label, phrase) listed
  refine ⟨fun other unknown => ?_, fun fault chain failed root => ?_⟩
  · exact Locale.text_renamed valued (Locale.avoids_of_undefined unknown) avoids
  · obtain ⟨path, route, rfl, loops⟩ := Locale.text_cyclic failed root
    exact ⟨path, rfl, route, loops.tail (avoids path route)⟩

/-- A session with one resource in one language, asked for in its only context. -/
def reading (resource text : String) : Session :=
  ((opened { defaultLanguage := "en", available := ["en"], registry := .standard }
    { texts := [(⟨resource, "en"⟩, text)] } 64 false).run
      [.context "front" [resource], .request "front" ["en"]]).2

def front (session : Session) : Context :=
  (session.context? "front").getD { resources := [] }

def frontLocale (session : Session) : Locale :=
  (session.front.locales session.env session.store).headD ⟨.ofCode "en", "en", []⟩

theorem reading_reachable (resource text : String) : (reading resource text).Reachable :=
  (Reachable.opened _ _ _ _).run _

theorem frontLocale_built {session : Session} (present : (session.context? "front").isSome = true)
    (requested : 0 < (session.front.locales session.env session.store).length) :
    session.context? "front" = some session.front ∧
      session.frontLocale ∈ session.front.locales session.env session.store := by
  obtain ⟨context, known⟩ := Option.isSome_iff_exists.mp present
  obtain ⟨locale, rest, same⟩ := List.exists_cons_of_length_pos requested
  refine ⟨by rw [front, known, Option.getD_some], ?_⟩
  rw [frontLocale, same]
  exact List.mem_cons_self

end Session

def Locale.attribute (locale : Locale) (id label : String) : Phrase :=
  ((locale.entry? id).bind (·.attributes.find? label)).getD (.bare "")

theorem Locale.attribute_listed {locale : Locale} {id label : String}
    (present : ((locale.entry? id).bind (·.attributes.find? label)).isSome = true) :
    ∃ entry, locale.entry? id = some entry ∧
      (label, locale.attribute id label) ∈ entry.attributes := by
  obtain ⟨phrase, found⟩ := Option.isSome_iff_exists.mp present
  obtain ⟨entry, defined, listed⟩ := Option.bind_eq_some_iff.mp found
  refine ⟨entry, defined, ?_⟩
  rw [Locale.attribute, found]
  exact Table.mem_of_find? listed

namespace Session

/-- A gate with a hint that refers to two signs, each of which refers to the other. -/
def signs : Session :=
  reading "signs.properties"
    ("gate.hint = \x7b\x7b left \x7d\x7d\nleft = \x7b\x7b right \x7d\x7d\n" ++
      "right = \x7b\x7b left \x7d\x7d")

theorem attribute_ids_only_head_chains_gate :
    let locale := signs.frontLocale
    let phrase := locale.attribute "gate" "hint"
    let own := Locale.attributeId "gate" "hint"
    signs.Reachable ∧ signs.context? "front" = some signs.front ∧
    locale ∈ signs.front.locales signs.env signs.store ∧
    (∃ entry, locale.entry? "gate" = some entry ∧ ("hint", phrase) ∈ entry.attributes) ∧
    (locale.scope []).Avoids phrase own ∧
    locale.text [] "other" phrase = .error (.cyclic ["other", "left", "right", "left"]) ∧
    locale.text [] own phrase = .error (.cyclic [own, "left", "right", "left"]) ∧
    (locale.scope []).Route phrase ["left", "right", "left"] := by
  intro locale phrase own
  have reached : signs.Reachable := reading_reachable _ _
  obtain ⟨present, requested, listed, undefined, unknown, elsewhere⟩ :
      (signs.context? "front").isSome = true ∧
      0 < (signs.front.locales signs.env signs.store).length ∧
      ((locale.entry? "gate").bind (·.attributes.find? "hint")).isSome = true ∧
      (locale.entry? own).isNone = true ∧ (locale.entry? "other").isNone = true ∧
      locale.text [] "other" phrase = .error (.cyclic ["other", "left", "right", "left"]) := by
    decide +kernel
  obtain ⟨known, built⟩ := frontLocale_built present requested
  obtain ⟨entry, defined, listed⟩ := Locale.attribute_listed listed
  have avoids : (locale.scope []).Avoids phrase own :=
    Locale.avoids_of_undefined (Option.isNone_iff_eq_none.mp undefined)
  obtain ⟨renamed, cyclic⟩ :=
    attribute_ids_only_head_chains reached known built defined listed [] avoids
  have here : locale.text [] own phrase = .error (.cyclic [own, "left", "right", "left"]) := by
    rw [renamed "other" (Option.isNone_iff_eq_none.mp unknown), elsewhere]
    rfl
  obtain ⟨path, same, route, -⟩ := cyclic _ _ here rfl
  obtain rfl := (List.cons.inj same).2
  exact ⟨reached, known, built, ⟨entry, defined, listed⟩, avoids, elsewhere, here, route⟩

/-- A form with a hint for one of its buttons, which is the text of another entry. This entry bears
the id that the hint is evaluated under. -/
def form : Session :=
  reading "form.json"
    ("[\x7b\"id\":\"save\",\"value\":\"Save\"," ++
      "\"attrs\":\x7b\"hint\":\x7b\"type\":\"identifier\",\"name\":\"save.hint\"\x7d\x7d\x7d," ++
      "\x7b\"id\":\"save.hint\",\"value\":\"Keeps \x7b\x7b what \x7d\x7d\"\x7d]")

/-- The hint is taken for a cycle, though the entry that it refers to has no reference but to an
argument. Under another id, it is evaluated. -/
theorem attribute_id_taken_for_cycle :
    let locale := form.frontLocale
    let phrase := locale.attribute "save" "hint"
    let own := Locale.attributeId "save" "hint"
    form.Reachable ∧ form.context? "front" = some form.front ∧
    locale ∈ form.front.locales form.env form.store ∧
    (∃ entry, locale.entry? "save" = some entry ∧ ("hint", phrase) ∈ entry.attributes) ∧
    locale.text [("what", .text "all")] own phrase = .error (.cyclic [own, own]) ∧
    locale.entry? "other" = none ∧
    locale.text [("what", .text "all")] "other" phrase = .ok ("Keeps " ++ isolate "all") := by
  intro locale phrase own
  have reached : form.Reachable := reading_reachable _ _
  obtain ⟨present, requested, listed, here, unknown, elsewhere⟩ :
      (form.context? "front").isSome = true ∧
      0 < (form.front.locales form.env form.store).length ∧
      ((locale.entry? "save").bind (·.attributes.find? "hint")).isSome = true ∧
      locale.text [("what", .text "all")] own phrase = .error (.cyclic [own, own]) ∧
      (locale.entry? "other").isNone = true ∧
      locale.text [("what", .text "all")] "other" phrase = .ok ("Keeps " ++ isolate "all") := by
    decide +kernel
  obtain ⟨known, built⟩ := frontLocale_built present requested
  exact ⟨reached, known, built, Locale.attribute_listed listed, here,
    Option.isNone_iff_eq_none.mp unknown, elsewhere⟩

end Session

end Phrasebook
