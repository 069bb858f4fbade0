import Inlay.Proofs.Discovery.Searching

/-!
# The order of candidate files

Candidate files come in the order of their parts, so each of them comes once, and each of them
leads to a file.
-/

set_option autoImplicit false

namespace Inlay

namespace CodePoint

instance : Trans (· < · : CodePoint → CodePoint → Prop) (· < ·) (· < ·) :=
  ⟨fun first second => Nat.lt_trans first second⟩

instance : Std.Irrefl (· < · : CodePoint → CodePoint → Prop) := ⟨fun c => Nat.lt_irrefl c.toNat⟩

end CodePoint

instance : Trans (· < · : Text → Text → Prop) (· < ·) (· < ·) := ⟨List.lt_trans⟩

instance : Std.Irrefl (· < · : Text → Text → Prop) := ⟨List.lt_irrefl⟩

namespace Discovery

variable {limits : Text → SearchLimits} {files : FileSystem} {root path other : Path}
  {paths : List Path}
  {includes excludes : List Text}

abbrev Precedes (path other : Path) : Prop := path.parts < other.parts

theorem mem_insertPath (member : other ∈ insertPath path paths) : other = path ∨ other ∈ paths := by
  induction paths with
  | nil => exact .inl (List.mem_singleton.mp member)
  | cons next paths ih =>
      unfold insertPath at member
      split at member
      · exact List.mem_cons.mp member
      · split at member
        · rcases List.mem_cons.mp member with rfl | later
          · exact .inr (.head _)
          · rcases ih later with same | among
            · exact .inl same
            · exact .inr (.tail _ among)
        · exact .inr member

theorem pairwise_insertPath (ordered : paths.Pairwise Precedes) (path : Path) :
    (insertPath path paths).Pairwise Precedes := by
  induction paths with
  | nil => exact List.pairwise_singleton _ _
  | cons next paths ih =>
      obtain ⟨first, others⟩ := List.pairwise_cons.mp ordered
      unfold insertPath
      split
      · next before =>
          refine List.pairwise_cons.mpr ⟨fun later member => ?_, ordered⟩
          rcases List.mem_cons.mp member with rfl | among
          · exact before
          · exact List.lt_trans before (first later among)
      · split
        · next behind =>
            refine List.pairwise_cons.mpr ⟨fun later member => ?_, ih others⟩
            rcases mem_insertPath member with rfl | among
            · exact behind
            · exact first later among
        · exact ordered

theorem mem_inOrder (member : path ∈ inOrder paths) : path ∈ paths := by
  induction paths with
  | nil => cases member
  | cons first paths ih =>
      rcases mem_insertPath member with rfl | among
      · exact .head _
      · exact .tail _ (ih among)

theorem pairwise_inOrder (paths : List Path) : (inOrder paths).Pairwise Precedes := by
  induction paths with
  | nil => exact .nil
  | cons path paths ih => exact pairwise_insertPath ih path

theorem nodup_of_pairwise (ordered : paths.Pairwise Precedes) : paths.Nodup := by
  refine ordered.imp ?_
  rintro path other before rfl
  exact List.lt_irrefl path.parts before

/-- Candidate files are files, each of them is listed once, and they come in the order of their
parts. -/
theorem candidates_spec
    (found : candidates limits files root includes excludes = .ok paths) :
    paths.Pairwise Precedes ∧ paths.Nodup ∧ ∀ path ∈ paths, files.isFile path = true := by
  unfold candidates at found
  split at found
  · cases found
  · next all listed =>
      cases found
      have ordered := pairwise_inOrder (all.filter fun path =>
        !isExcluded excludes (relativeText root path))
      refine ⟨ordered, nodup_of_pairwise ordered, fun path member => ?_⟩
      exact isFile_of_included listed (List.mem_filter.mp (mem_inOrder member)).1

end Discovery

end Inlay
