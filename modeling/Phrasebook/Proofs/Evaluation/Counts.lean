import Phrasebook.Evaluation.Function
import Phrasebook.Proofs.Decimal.Whole

namespace Phrasebook

open Phrasebook.Decimal

def exactKeys : List (Nat × String) := [(0, "zero"), (1, "one"), (2, "two")]

theorem le_of_mem_exactKeys {k : Nat} {word : String} (named : (k, word) ∈ exactKeys) : k ≤ 2 := by
  have all : ∀ pair ∈ exactKeys, pair.1 ≤ 2 := by decide
  exact all _ named

def Value.isCount (value : Value) (k : Nat) : Bool :=
  match value with
  | .number n => n.toInt = k
  | .float x => x == Float.ofNat k
  | .text _ => false

theorem Value.isCount_iff {value : Value} {x : Float} (read : value.toNumber? = some x) {k : Nat}
    (small : k ≤ 2) :
    value.isCount k = true ↔ value.asNumber?.isSome = true ∧ (x == Float.ofNat k) = true := by
  have own := (Option.filter_eq_some_iff.mp read).1
  cases value with
  | number n =>
      cases own
      rw [isCount, decide_eq_true_iff, ofInt64_beq_iff n small]
      exact (and_iff_right rfl).symm
  | float y =>
      cases own
      exact (and_iff_right rfl).symm
  | text s => exact ⟨nofun, nofun⟩

theorem Function.exactKey?_plural (x : Float) :
    Function.plural.exactKey? x =
      if x == Float.ofNat 0 then some "zero"
      else if x == Float.ofNat 1 then some "one"
      else if x == Float.ofNat 2 then some "two"
      else none := rfl

theorem Function.exactKey?_eq_some_iff {x : Float} {word : String} :
    Function.plural.exactKey? x = some word ↔
      ∃ k, (k, word) ∈ exactKeys ∧ (x == Float.ofNat k) = true := by
  rw [exactKey?_plural]
  constructor
  · intro chosen
    split at chosen
    · rename_i same
      cases chosen
      exact ⟨0, by decide, same⟩
    · split at chosen
      · rename_i same
        cases chosen
        exact ⟨1, by decide, same⟩
      · split at chosen
        · rename_i same
          cases chosen
          exact ⟨2, by decide, same⟩
        · cases chosen
  · rintro ⟨k, named, same⟩
    have only : ∀ j ≤ 2, (x == Float.ofNat j) = true → j = k := fun j small other =>
      eq_of_beq_ofNat small (le_of_mem_exactKeys named) other same
    have zero := only 0 (by decide)
    have one := only 1 (by decide)
    simp only [exactKeys, List.mem_cons, List.not_mem_nil, or_false, Prod.mk.injEq] at named
    rcases named with ⟨rfl, rfl⟩ | ⟨rfl, rfl⟩ | ⟨rfl, rfl⟩
    · exact if_pos same
    · rw [if_neg fun other => absurd (zero other) (by decide)]
      exact if_pos same
    · rw [if_neg fun other => absurd (zero other) (by decide),
        if_neg fun other => absurd (one other) (by decide)]
      exact if_pos same

def Call.reading (value : Value) (x : Float) : Call where
  function := .plural
  number := x
  exact := value.asNumber?.isSome

theorem Call.exact_iff {value : Value} {x : Float} (read : value.toNumber? = some x)
    {word : String} :
    (if value.asNumber?.isSome then Function.plural.exactKey? x else none) = some word ↔
      ∃ k, (k, word) ∈ exactKeys ∧ value.isCount k = true := by
  constructor
  · intro chosen
    split at chosen
    · rename_i number
      obtain ⟨k, named, same⟩ := Function.exactKey?_eq_some_iff.mp chosen
      exact ⟨k, named, (Value.isCount_iff read (le_of_mem_exactKeys named)).mpr ⟨number, same⟩⟩
    · cases chosen
  · rintro ⟨k, named, count⟩
    obtain ⟨number, same⟩ := (Value.isCount_iff read (le_of_mem_exactKeys named)).mp count
    rw [if_pos number]
    exact Function.exactKey?_eq_some_iff.mpr ⟨k, named, same⟩

theorem Call.key_of_count {value : Value} {x : Float} (read : value.toNumber? = some x)
    (language : String) {keys : List String} {k : Nat} {word : String}
    (named : (k, word) ∈ exactKeys) (count : value.isCount k = true) (present : word ∈ keys) :
    (Call.reading value x).key language keys = word := by
  unfold key reading
  dsimp only
  rw [(exact_iff read).mpr ⟨k, named, count⟩]
  exact if_pos (List.contains_iff_mem.mpr present)

theorem Call.key_of_no_count {value : Value} {x : Float} (read : value.toNumber? = some x)
    (language : String) {keys : List String}
    (absent : ∀ k word, (k, word) ∈ exactKeys → value.isCount k = true → word ∉ keys) :
    (Call.reading value x).key language keys = (Plural.category language x).name := by
  unfold key reading
  dsimp only
  cases chosen : if value.asNumber?.isSome then Function.plural.exactKey? x else none with
  | none => rfl
  | some word =>
      obtain ⟨k, named, count⟩ := (exact_iff read).mp chosen
      have missing := absent k word named count
      exact if_neg fun present => missing (List.contains_iff_mem.mp present)

end Phrasebook
