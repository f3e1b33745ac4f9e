import Mathlib.Data.List.DropRight
import Phrasebook.Resource.Properties

/-! What a slot holds, told from the lines that filled it. -/

namespace Phrasebook.Resource

/-- What a line says of its slot. -/
inductive Filling where
  | plain (text : List Char)
  | member (key text : List Char)
deriving DecidableEq

def Filling.isMember : Filling → Bool
  | .plain _ => false
  | .member _ _ => true

def Filling.item? : Filling → Option (String × Node)
  | .plain _ => none
  | .member key text => some (String.ofList key, .raw (String.ofList text))

def Assignment.filling (a : Assignment) : Filling :=
  match a.member? with
  | none => .plain a.value
  | some key => .member key a.value

/-- The members behind the last plain line. -/
def sincePlain (fillings : List Filling) : List Filling :=
  fillings.rtakeWhile Filling.isMember

def heldMembers (fillings : List Filling) : Table Node :=
  Table.ofList ((sincePlain fillings).filterMap Filling.item?)

def held? (fillings : List Filling) : Option SlotValue :=
  match fillings.getLast? with
  | none => none
  | some (.plain text) => some (.plain text)
  | some (.member _ _) => some (.members (heldMembers fillings))

/-- The selector that a line becomes when the next one is to a member. -/
def turned? : Filling → Option Filling → Option Node
  | .plain text, some (.member _ _) => readSelector? text
  | _, _ => none

/-- The last line that became a selector. -/
def declared? : List Filling → Option Node
  | [] => none
  | first :: rest => (declared? rest).or (turned? first rest.head?)

def Slot.ofFillings (fillings : List Filling) : Slot :=
  ⟨held? fillings, declared? fillings⟩

/-- The plain text that a member cannot follow because it is no selector. -/
def clash? (fillings : List Filling) : Filling → Option (List Char)
  | .plain _ => none
  | .member _ _ =>
      match fillings.getLast? with
      | some (.plain text) => if (readSelector? text).isSome then none else some text
      | _ => none

variable {fillings others before behind : List Filling}

section Values

theorem held?_eq_none_iff : held? fillings = none ↔ fillings = [] := by
  rw [held?]
  cases last : fillings.getLast? with
  | none => exact iff_of_true rfl (List.getLast?_eq_none_iff.mp last)
  | some filling =>
      have nonempty : fillings ≠ [] := by
        rintro rfl
        cases last
      cases filling <;> exact iff_of_false nofun nonempty

@[simp] theorem held?_concat_plain (text : List Char) :
    held? (fillings ++ [.plain text]) = some (.plain text) := by
  simp [held?]

@[simp] theorem held?_concat_member (key text : List Char) :
    held? (fillings ++ [.member key text]) =
      some (.members (heldMembers (fillings ++ [.member key text]))) := by
  simp [held?]

theorem heldMembers_of_plain {text : List Char} (last : fillings.getLast? = some (.plain text)) :
    heldMembers fillings = [] := by
  have nothing : sincePlain fillings = [] := by
    rw [sincePlain, List.rtakeWhile_eq_nil_iff]
    intro nonempty
    rw [List.getLast?_eq_some_getLast nonempty] at last
    rw [Option.some.inj last]
    exact nofun
  rw [heldMembers, nothing]
  rfl

theorem heldMembers_concat_member (key text : List Char) :
    heldMembers (fillings ++ [.member key text]) =
      Table.insert (String.ofList key) (.raw (String.ofList text)) (heldMembers fillings) := by
  rw [heldMembers, sincePlain, List.rtakeWhile_concat_pos _ _ _ rfl, List.filterMap_append]
  exact Table.ofList_concat _ _

theorem sincePlain_behind_plain (text : List Char) :
    sincePlain (before ++ .plain text :: behind) = sincePlain (.plain text :: behind) := by
  induction behind using List.reverseRecOn with
  | nil =>
      rw [sincePlain, List.rtakeWhile_concat_neg _ _ _ (by simp [Filling.isMember])]
      rfl
  | append_singleton behind last ih =>
      have regrouped : before ++ .plain text :: (behind ++ [last]) =
          before ++ .plain text :: behind ++ [last] := by simp
      rw [regrouped, ← List.cons_append, sincePlain, sincePlain, List.rtakeWhile_concat,
        List.rtakeWhile_concat]
      exact if_congr Iff.rfl (congrArg (· ++ [last]) ih) rfl

theorem held?_behind_plain (text : List Char) :
    held? (before ++ .plain text :: behind) = held? (.plain text :: behind) := by
  have last : (before ++ .plain text :: behind).getLast? =
      (Filling.plain text :: behind).getLast? := by
    rw [List.getLast?_append, List.getLast?_cons, Option.some_or]
  rw [held?, held?, last, heldMembers, heldMembers, sincePlain_behind_plain]

end Values

section Selectors

theorem declared?_append (before behind : List Filling) :
    declared? (before ++ behind) =
      (declared? behind).or
        ((before.getLast?.bind (turned? · behind.head?)).or (declared? before)) := by
  induction before with
  | nil => simp [declared?]
  | cons first before ih =>
      cases before with
      | nil => cases first <;> simp [declared?, turned?]
      | cons second rest =>
          rw [List.cons_append, declared?, ih, declared?, List.getLast?_cons_cons, Option.or_assoc,
            Option.or_assoc]
          rfl

theorem declared?_behind_plain (text : List Char) :
    declared? (before ++ .plain text :: behind) =
      (declared? (.plain text :: behind)).or (declared? before) := by
  have unturned : before.getLast?.bind (turned? · (some (.plain text))) = none := by
    cases before.getLast? with
    | none => rfl
    | some last => cases last <;> rfl
  rw [declared?_append, List.head?_cons, unturned, Option.none_or]

theorem declared?_concat_plain (text : List Char) :
    declared? (fillings ++ [.plain text]) = declared? fillings :=
  declared?_behind_plain text

theorem declared?_concat_member (key text : List Char) :
    declared? (fillings ++ [.member key text]) =
      (fillings.getLast?.bind (turned? · (some (.member key text)))).or (declared? fillings) := by
  rw [declared?_append]
  rfl

end Selectors

theorem Slot.ofFillings_plain (text : List Char) :
    Slot.ofFillings (fillings ++ [.plain text]) = (Slot.ofFillings fillings).setPlain text := by
  rw [ofFillings, held?_concat_plain, declared?_concat_plain]
  rfl

theorem Slot.ofFillings_member (key text : List Char) :
    Slot.ofFillings (fillings ++ [.member key text]) =
      ⟨some (.members (Table.insert (String.ofList key) (.raw (String.ofList text))
          (heldMembers fillings))),
        (fillings.getLast?.bind (turned? · (some (.member key text)))).or
          (declared? fillings)⟩ := by
  rw [ofFillings, held?_concat_member, heldMembers_concat_member, declared?_concat_member]

theorem Slot.eq_nil_of_ofFillings (same : Slot.ofFillings fillings = Slot.ofFillings others)
    (nothing : fillings = []) : others = [] := by
  rw [← held?_eq_none_iff, ← (Slot.mk.inj same).1, held?_eq_none_iff]
  exact nothing

/-- A line changes the slot as it should, or it is refused and the text in its way is told. -/
theorem Slot.assign_ofFillings (fillings : List Filling) (a : Assignment) :
    (Slot.ofFillings fillings).assign a =
      match clash? fillings a.filling with
      | some text => .error (.malformedIndex a.line (String.ofList text))
      | none => .ok (.ofFillings (fillings ++ [a.filling])) := by
  obtain ⟨line, name, member?, value⟩ := a
  cases member? with
  | none =>
      simp only [Assignment.filling, clash?, Slot.ofFillings_plain, Slot.assign]
  | some key =>
      simp only [Assignment.filling, Slot.ofFillings_member, Slot.assign, Slot.setMember]
      cases last : fillings.getLast? with
      | none =>
          obtain rfl := List.getLast?_eq_none_iff.mp last
          rfl
      | some filling =>
          cases filling with
          | plain text =>
              cases read : readSelector? text with
              | none => simp [ofFillings, held?, clash?, last, read]
              | some selector =>
                  simp [ofFillings, held?, clash?, turned?, last, read, heldMembers_of_plain last]
                  rfl
          | member previous text => simp [ofFillings, held?, clash?, turned?, last]

end Phrasebook.Resource
