import Mathlib.Order.Bounds.Basic
import Phrasebook.Text.Distance

namespace Phrasebook.Text

/-- One character put in, taken out or replaced. -/
inductive Edit : List α → List α → Prop
  | insert (front : List α) (c : α) (back : List α) : Edit (front ++ back) (front ++ c :: back)
  | delete (front : List α) (c : α) (back : List α) : Edit (front ++ c :: back) (front ++ back)
  | replace (front : List α) (c d : α) (back : List α) :
      Edit (front ++ c :: back) (front ++ d :: back)

/-- A number of edits, one after the other. -/
inductive Edits : Nat → List α → List α → Prop
  | nil (text : List α) : Edits 0 text text
  | cons {text next last : List α} {count : Nat} (edit : Edit text next)
      (rest : Edits count next last) : Edits (count + 1) text last

section Scripts

variable {c d : α} {text next last source target : List α} {count : Nat}

theorem Edit.behind (edit : Edit text next) (c : α) : Edit (c :: text) (c :: next) := by
  cases edit with
  | insert front d back => exact .insert (c :: front) d back
  | delete front d back => exact .delete (c :: front) d back
  | replace front d e back => exact .replace (c :: front) d e back

namespace Edits

theorem behind (edits : Edits count text last) (c : α) : Edits count (c :: text) (c :: last) := by
  induction edits with
  | nil text => exact .nil (c :: text)
  | cons edit _ ih => exact .cons (edit.behind c) ih

theorem deleteAll (text : List α) : Edits text.length text [] := by
  induction text with
  | nil => exact .nil []
  | cons c text ih => exact .cons (.delete [] c text) ih

theorem insert (edits : Edits count text last) (c : α) : Edits (count + 1) text (c :: last) := by
  induction edits with
  | nil text => exact .cons (.insert [] c text) (.nil (c :: text))
  | cons edit _ ih => exact .cons edit ih

theorem delete (edits : Edits count text last) (c : α) : Edits (count + 1) (c :: text) last :=
  .cons (.delete [] c text) edits

theorem replace (edits : Edits count text last) (c d : α) :
    Edits (count + 1) (c :: text) (d :: last) :=
  .cons (.replace [] c d text) (edits.behind d)

theorem insertAll (text : List α) : Edits text.length [] text := by
  induction text with
  | nil => exact .nil []
  | cons c text ih => exact ih.insert c

end Edits

end Scripts

section Recursion

theorem emptyRow_cons (c : α) (source : List α) :
    emptyRow (c :: source) = (source.length + 1) :: emptyRow source := by
  rw [emptyRow, List.length_cons, List.range_succ, List.reverse_append]
  rfl

variable [DecidableEq α]

theorem distanceRow_cons (c : α) (source target : List α) :
    distanceRow (c :: source) target =
      distance (c :: source) target :: distanceRow source target := by
  have starts : ∃ entry, distanceRow (c :: source) target = entry :: distanceRow source target := by
    induction target with
    | nil => exact ⟨_, emptyRow_cons c source⟩
    | cons d target ih =>
        obtain ⟨entry, row⟩ := ih
        rw [distanceRow, row]
        exact ⟨_, rfl⟩
  obtain ⟨entry, row⟩ := starts
  rw [distance, row]
  rfl

theorem distance_nil_left (target : List α) : distance [] target = target.length := by
  have row : distanceRow [] target = [target.length] := by
    induction target with
    | nil => rfl
    | cons d target ih =>
        rw [distanceRow, ih]
        rfl
  rw [distance, row]
  rfl

theorem distance_nil_right (source : List α) : distance source [] = source.length := by
  cases source with
  | nil => rfl
  | cons c source =>
      rw [distance, distanceRow, emptyRow_cons]
      rfl

theorem distance_cons_cons (c d : α) (source target : List α) :
    distance (c :: source) (d :: target) =
      if c = d then distance source target
      else min (min (distance (c :: source) target) (distance source (d :: target)))
        (distance source target) + 1 := by
  conv_lhs => rw [distance, distanceRow, distanceRow_cons]
  rfl

theorem distance_cons_self (c : α) (source target : List α) :
    distance (c :: source) (c :: target) = distance source target := by
  rw [distance_cons_cons, if_pos rfl]

end Recursion

section Steps

variable [DecidableEq α] {c d : α} {source target text next last : List α} {count : Nat}

theorem distance_comm (source target : List α) :
    distance source target = distance target source := by
  induction source generalizing target with
  | nil => rw [distance_nil_left, distance_nil_right]
  | cons c source ih =>
      induction target with
      | nil => rw [distance_nil_left, distance_nil_right]
      | cons d target ihTarget =>
          rw [distance_cons_cons, distance_cons_cons, ih, ih, ihTarget,
            min_comm (distance target (c :: source))]
          by_cases same : c = d
          · rw [if_pos same, if_pos same.symm]
          · rw [if_neg same, if_neg (Ne.symm same)]

theorem distance_le_cons_left_of
    (grows : ∀ d target, distance source (d :: target) ≤ distance source target + 1) (c : α)
    (target : List α) : distance source target ≤ distance (c :: source) target + 1 := by
  induction target with
  | nil =>
      rw [distance_nil_right, distance_nil_right, List.length_cons]
      omega
  | cons d target ih =>
      have longer := grows d target
      rw [distance_cons_cons]
      split <;> omega

theorem distance_cons_right_le (source : List α) (d : α) (target : List α) :
    distance source (d :: target) ≤ distance source target + 1 := by
  induction source generalizing d target with
  | nil => rw [distance_nil_left, distance_nil_left, List.length_cons]
  | cons c source ih =>
      rw [distance_cons_cons]
      split
      · exact distance_le_cons_left_of ih c target
      · omega

theorem distance_le_cons_left (source : List α) (c : α) (target : List α) :
    distance source target ≤ distance (c :: source) target + 1 :=
  distance_le_cons_left_of (distance_cons_right_le source) c target

theorem distance_cons_left_le (c : α) (source target : List α) :
    distance (c :: source) target ≤ distance source target + 1 := by
  rw [distance_comm, distance_comm source]
  exact distance_cons_right_le target c source

theorem distance_le_cons_right (source : List α) (d : α) (target : List α) :
    distance source target ≤ distance source (d :: target) + 1 := by
  rw [distance_comm, distance_comm source]
  exact distance_le_cons_left target d source

theorem distance_le_cons_cons (c d : α) (source target : List α) :
    distance source target ≤ distance (c :: source) (d :: target) := by
  have fewer := distance_le_cons_left source c target
  have more := distance_le_cons_right source d target
  rw [distance_cons_cons]
  split <;> omega

theorem distance_replace_le (c d : α) (source target : List α) :
    distance (c :: source) target ≤ distance (d :: source) target + 1 := by
  cases target with
  | nil =>
      rw [distance_nil_right, distance_nil_right]
      exact Nat.le_succ _
  | cons e target =>
      have kept := distance_le_cons_cons d e source target
      rw [distance_cons_cons c e]
      split <;> omega

/-- What holds of the distances to two texts holds behind a front that they share. -/
theorem distance_append_le (nearer : ∀ target, distance text target ≤ distance next target + 1)
    (front target : List α) :
    distance (front ++ text) target ≤ distance (front ++ next) target + 1 := by
  induction front generalizing target with
  | nil => exact nearer target
  | cons c front ih =>
      induction target with
      | nil =>
          have lengths := ih []
          rw [distance_nil_right, distance_nil_right] at lengths ⊢
          exact Nat.succ_le_succ lengths
      | cons d target ihTarget =>
          have here := ih target
          have further := ih (d :: target)
          rw [List.cons_append, List.cons_append] at ihTarget ⊢
          rw [distance_cons_cons, distance_cons_cons]
          split <;> omega

theorem Edit.distance_le (edit : Edit text next) (target : List α) :
    distance text target ≤ distance next target + 1 := by
  cases edit with
  | insert front c back => exact distance_append_le (distance_le_cons_left back c) front target
  | delete front c back => exact distance_append_le (distance_cons_left_le c back) front target
  | replace front c d back => exact distance_append_le (distance_replace_le c d back) front target

end Steps

section Minimum

variable [DecidableEq α] {source target : List α} {count : Nat}

theorem Edits.distance_le (edits : Edits count source target) : distance source target ≤ count := by
  induction edits with
  | nil text =>
      induction text with
      | nil => exact Nat.le_refl 0
      | cons c text ih => rwa [distance_cons_self]
  | @cons _ _ last _ edit _ ih =>
      have step := edit.distance_le last
      omega

theorem min_min_cases (a b c : Nat) :
    min (min a b) c = a ∨ min (min a b) c = b ∨ min (min a b) c = c := by
  omega

theorem edits_distance (source target : List α) : Edits (distance source target) source target := by
  induction source generalizing target with
  | nil =>
      rw [distance_nil_left]
      exact .insertAll target
  | cons c source ih =>
      induction target with
      | nil =>
          rw [distance_nil_right]
          exact .deleteAll (c :: source)
      | cons d target ihTarget =>
          rw [distance_cons_cons]
          split
          · rename_i same
            subst same
            exact (ih target).behind c
          · -- the least of the three neighbours tells which edit comes first
            obtain least | least | least := min_min_cases (distance (c :: source) target)
              (distance source (d :: target)) (distance source target)
            all_goals rw [least]
            · exact ihTarget.insert d
            · exact (ih (d :: target)).delete c
            · exact (ih target).replace c d

/-- The distance is the least number of edits that turn one text into the other. -/
theorem distance_isLeast (source target : List α) :
    IsLeast {count | Edits count source target} (distance source target) :=
  ⟨edits_distance source target, fun _ edits => edits.distance_le⟩

end Minimum

end Phrasebook.Text
