import Inlay.Text.Basic

/-!
# Texts between marks

Cutting a text at a mark and joining pieces by it are what the library knows as splitting and
intercalating lists, so its equations hold for texts.
-/

set_option autoImplicit false

namespace Inlay.Text

variable {mark : CodePoint} {text piece : Text} {pieces : List Text}

theorem splitOn_eq (mark : CodePoint) (text : Text) :
    splitOn mark text = List.splitOn mark text := by
  induction text with
  | nil => rfl
  | cons c text ih =>
      rw [List.splitOn_cons_eq_if_modifyHead, splitOn, ih]
      by_cases here : c = mark
      · simp [here]
      · cases cut : List.splitOn mark text with
        | nil => exact absurd cut (List.splitOn_ne_nil mark text)
        | cons piece pieces => simp [here]

theorem joinWith_eq (separator : Text) (pieces : List Text) :
    joinWith separator pieces = separator.intercalate pieces := by
  induction pieces with
  | nil => rfl
  | cons piece pieces ih =>
      cases pieces with
      | nil => simp [joinWith]
      | cons next pieces => simp [joinWith, ih]

theorem splitOn_append_cons (mark : CodePoint) (front behind : Text) :
    splitOn mark (front ++ mark :: behind) = splitOn mark front ++ splitOn mark behind := by
  simp only [splitOn_eq, List.splitOn_append_cons_self]

theorem splitOn_joinWith (nonempty : pieces ≠ []) (unmarked : ∀ piece ∈ pieces, mark ∉ piece) :
    splitOn mark (joinWith [mark] pieces) = pieces := by
  rw [splitOn_eq, joinWith_eq]
  exact List.splitOn_intercalate mark unmarked nonempty

theorem mem_of_mem_splitOn {c : CodePoint} (member : piece ∈ splitOn mark text) (inside : c ∈ piece) :
    c ∈ text ∧ c ≠ mark := by
  induction text generalizing piece with
  | nil =>
      rw [List.mem_singleton.mp member] at inside
      cases inside
  | cons first text ih =>
      unfold splitOn at member
      split at member
      · rcases List.mem_cons.mp member with rfl | behind
        · cases inside
        · exact (ih behind inside).imp_left (.tail _)
      · next apart =>
          split at member
          · rw [List.mem_singleton.mp member] at inside
            obtain rfl := List.mem_singleton.mp inside
            exact ⟨.head _, apart⟩
          · next front behind cut =>
              rw [cut] at ih
              rcases List.mem_cons.mp member with rfl | among
              · rcases List.mem_cons.mp inside with rfl | later
                · exact ⟨.head _, apart⟩
                · exact (ih (.head _) later).imp_left (.tail _)
              · exact (ih (.tail _ among) inside).imp_left (.tail _)

theorem not_mem_of_mem_splitOn (member : piece ∈ splitOn mark text) : mark ∉ piece :=
  fun inside => (mem_of_mem_splitOn member inside).2 rfl

end Inlay.Text
