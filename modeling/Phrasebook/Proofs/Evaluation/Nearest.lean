import Phrasebook.Evaluation.Suggestion
import Phrasebook.Proofs.Text.ByteOrder
import Phrasebook.Proofs.Text.EditDistance

namespace Phrasebook

open Phrasebook.Text

variable {name : String} {available : List String} {first second third : Nat × String}

theorem suggestionOrder_iff :
    suggestionOrder first second = true ↔
      first.1 < second.1 ∨ first.1 = second.1 ∧ first.2 ≤ second.2 := by
  simp only [suggestionOrder, Bool.or_eq_true, Bool.and_eq_true, decide_eq_true_iff]

theorem suggestionOrder_trans (left : suggestionOrder first second = true)
    (right : suggestionOrder second third = true) : suggestionOrder first third = true := by
  rw [suggestionOrder_iff] at *
  rcases left with nearer | ⟨same, before⟩
  · exact .inl (by omega)
  · rcases right with nearer | ⟨sameToo, beforeToo⟩
    · exact .inl (by omega)
    · exact .inr ⟨same.trans sameToo, before.trans beforeToo⟩

theorem suggestionOrder_total (first second : Nat × String) :
    (suggestionOrder first second || suggestionOrder second first) = true := by
  rw [Bool.or_eq_true, suggestionOrder_iff, suggestionOrder_iff]
  rcases Nat.lt_trichotomy first.1 second.1 with nearer | same | farther
  · exact .inl (.inl nearer)
  · rcases le_total first.2 second.2 with before | behind
    · exact .inl (.inr ⟨same, before⟩)
    · exact .inr (.inr ⟨same.symm, behind⟩)
  · exact .inr (.inl farther)

theorem candidates_scored (member : first ∈ candidates name available) :
    first.1 = distance name.toList first.2.toList := by
  obtain ⟨other, -, rfl⟩ := List.mem_map.mp (List.mem_of_mem_filter member)
  rfl

theorem map_snd_candidates (name : String) (available : List String) :
    (candidates name available).map Prod.snd =
      available.filter fun other =>
        0 < distance name.toList other.toList ∧
          distance name.toList other.toList ≤ reach name := by
  rw [candidates, List.filter_map, List.map_map]
  exact (List.map_id _).trans (List.filter_congr fun other _ => (Bool.decide_and _ _).symm)

/-- What is suggested for a name are the first three of a ranking. It holds just those of the
available names, each as often as it is available, which the least number of edits puts within
reach: one at least, and two at most where the name has more than three characters, else one. The
ranking goes by the number of edits, and then by the bytes of the names. -/
theorem suggestions_nearest (name : String) (available : List String) :
    ∃ apart : String → Nat,
      (∀ other, IsLeast {count | Edits count name.toList other.toList} (apart other)) ∧
      ∃ ranked : List String,
        ranked.Perm (available.filter fun other =>
          1 ≤ apart other ∧ apart other ≤ if 3 < name.length then 2 else 1) ∧
        ranked.Pairwise (fun left right =>
          apart left < apart right ∨
            apart left = apart right ∧ (left = right ∨ utf8 left < utf8 right)) ∧
        suggestions name available = ranked.take 3 := by
  let scored := (candidates name available).mergeSort suggestionOrder
  have perm : scored.Perm (candidates name available) := List.mergeSort_perm _ _
  refine ⟨fun other => distance name.toList other.toList,
    fun other => distance_isLeast name.toList other.toList, scored.map Prod.snd, ?_, ?_, ?_⟩
  · rw [← reach]
    exact (perm.map Prod.snd).trans (.of_eq (map_snd_candidates name available))
  · have ordered : scored.Pairwise fun left right => suggestionOrder left right = true :=
      @List.pairwise_mergeSort _ suggestionOrder (fun _ _ _ => suggestionOrder_trans)
        suggestionOrder_total _
    rw [List.pairwise_map]
    refine ordered.imp_of_mem fun leftMember rightMember inOrder => ?_
    rw [suggestionOrder_iff, candidates_scored (perm.mem_iff.mp leftMember),
      candidates_scored (perm.mem_iff.mp rightMember)] at inOrder
    refine inOrder.imp_right fun equallyNear => ⟨equallyNear.1, ?_⟩
    rw [utf8_lt_iff]
    exact equallyNear.2.eq_or_lt
  · rw [suggestions, List.map_take]

end Phrasebook
