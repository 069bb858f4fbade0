import Inlay.Host
import Mathlib.Data.List.Basic

/-!
# Outcomes

What two steps return one after another, and what the outcomes of a list return together: their
values, or one fault among them: the first one, or the one that wins a race.
-/

set_option autoImplicit false

namespace Inlay

theorem bind_eq_ok_iff {ε α β : Type} {outcome : Except ε α} {next : α → Except ε β} {value : β} :
    outcome >>= next = .ok value ↔
      ∃ first, outcome = .ok first ∧ next first = .ok value := by
  cases outcome with
  | error fault =>
      constructor
      · intro done
        cases done
      · intro ⟨first, done, _⟩
        cases done
  | ok first =>
      constructor
      · intro done
        exact ⟨first, rfl, done⟩
      · intro ⟨other, same, done⟩
        cases same
        exact done

theorem allOf_eq_ok_iff {α : Type} {outcomes : List (Except Fault α)} {values : List α} :
    allOf outcomes = .ok values ↔ outcomes = values.map .ok := by
  induction outcomes generalizing values with
  | nil => cases values <;> simp [allOf]
  | cons outcome outcomes ih =>
      cases outcome with
      | error fault => cases values <;> simp [allOf]
      | ok value =>
          cases later : allOf outcomes with
          | error fault =>
              have never : ∀ others, outcomes ≠ List.map .ok others := by
                intro others same
                rw [ih.mpr same] at later
                cases later
              cases values <;> simp [allOf, later, never]
          | ok others =>
              have same := ih.mp later
              subst same
              cases values with
              | nil => simp [allOf, later]
              | cons first values =>
                  have injective : Function.Injective (Except.ok : α → Except Fault α) :=
                    fun _ _ => Except.ok.inj
                  simp [allOf, later, List.map_inj_right, injective.eq_iff]

theorem allOf_of_error {α : Type} {before : List (Except Fault α)} {fault : Fault}
    (done : ∀ outcome ∈ before, ∃ value, outcome = .ok value) (behind : List (Except Fault α)) :
    allOf (before ++ .error fault :: behind) = .error fault := by
  induction before with
  | nil => rfl
  | cons first before ih =>
      obtain ⟨⟨value, rfl⟩, later⟩ := List.forall_mem_cons.mp done
      rw [List.cons_append, allOf, ih later]

theorem mem_faultsOf {α : Type} {outcomes : List (Except Fault α)} {fault : Fault} :
    fault ∈ faultsOf outcomes ↔ .error fault ∈ outcomes := by
  unfold faultsOf
  rw [List.mem_filterMap]
  constructor
  · rintro ⟨_ | value, member, same⟩
    · cases same
      exact member
    · cases same
  · exact fun member => ⟨_, member, rfl⟩

/-- What is among the lists that all starts return is what each start is known to return. -/
theorem mem_iff_of_allOf_flatten {α β : Type} {f : α → Except Fault (List β)} {starts : List α}
    {found : List β} {x : β} {leads : α → Prop}
    (done : (allOf (starts.map f)).map List.flatten = .ok found)
    (each : ∀ start ∈ starts, ∀ own, f start = .ok own → (x ∈ own ↔ leads start)) :
    x ∈ found ↔ ∃ start ∈ starts, leads start := by
  cases all : allOf (starts.map f) with
  | error fault =>
      rw [all] at done
      cases done
  | ok lists =>
      rw [all] at done
      cases done
      have images := allOf_eq_ok_iff.mp all
      rw [List.mem_flatten]
      constructor
      · intro ⟨own, listed, member⟩
        have returned : .ok own ∈ starts.map f := images ▸ List.mem_map.mpr ⟨own, listed, rfl⟩
        obtain ⟨start, among, same⟩ := List.mem_map.mp returned
        exact ⟨start, among, (each start among own same).mp member⟩
      · intro ⟨start, among, leads⟩
        have returned : f start ∈ lists.map .ok := images ▸ List.mem_map_of_mem among
        obtain ⟨own, listed, same⟩ := List.mem_map.mp returned
        exact ⟨own, listed, (each start among own same.symm).mpr leads⟩

theorem mem_of_allOf_error {α : Type} {outcomes : List (Except Fault α)} {fault : Fault}
    (failed : allOf outcomes = .error fault) : .error fault ∈ outcomes := by
  induction outcomes with
  | nil => cases failed
  | cons outcome outcomes ih =>
      cases outcome with
      | error own =>
          cases failed
          exact .head _
      | ok value =>
          simp only [allOf] at failed
          split at failed
          · cases failed
          · next later =>
              cases failed
              exact .tail _ (ih later)

/-! ## Races -/

section

variable {α : Type} {race : Race} {outcomes : List (Except Fault α)} {values : List α}
  {fault : Fault}

theorem gather_eq_ok_iff : gather race outcomes = .ok values ↔ outcomes = values.map .ok := by
  rw [← allOf_eq_ok_iff, gather]
  cases allOf outcomes <;> simp

/-- In order, the first fault is the one that is told. -/
theorem gather_inOrder : gather Race.inOrder outcomes = allOf outcomes := by
  have first : ∀ {fault}, allOf outcomes = .error fault → (faultsOf outcomes)[0]? = some fault := by
    intro fault failed
    induction outcomes with
    | nil => cases failed
    | cons outcome outcomes ih =>
        cases outcome with
        | error own =>
            cases failed
            rfl
        | ok value =>
            simp only [allOf] at failed
            split at failed
            · cases failed
            · next later =>
                cases failed
                exact ih later
  unfold gather
  cases all : allOf outcomes with
  | ok values => rfl
  | error fault => simp only [mapError_error, Race.inOrder, first all, Option.getD_some]

/-- What wins a race has taken part in it. -/
theorem mem_of_gather_error (failed : gather race outcomes = .error fault) :
    .error fault ∈ outcomes := by
  unfold gather at failed
  cases all : allOf outcomes with
  | ok values =>
      rw [all] at failed
      cases failed
  | error first =>
      rw [all] at failed
      simp only [mapError_error, Except.error.injEq] at failed
      cases won : (faultsOf outcomes)[race (faultsOf outcomes)]? with
      | none =>
          rw [won, Option.getD_none] at failed
          exact failed ▸ mem_of_allOf_error all
      | some winner =>
          rw [won, Option.getD_some] at failed
          exact mem_faultsOf.mp (failed ▸ List.mem_of_getElem? won)

theorem exists_gather_error (race : Race) (member : .error fault ∈ outcomes) :
    ∃ told, gather race outcomes = .error told ∧ .error told ∈ outcomes := by
  cases gathered : gather race outcomes with
  | error told => exact ⟨told, rfl, mem_of_gather_error gathered⟩
  | ok values =>
      rw [gather_eq_ok_iff.mp gathered] at member
      obtain ⟨value, -, same⟩ := List.mem_map.mp member
      cases same

end

end Inlay
