import Inlay.Config.Load
import Inlay.Proofs.Config.Merging

/-!
# Loaded configurations

The values of common documents have no two fields of one name in a mapping. Wherever a host reads
such values, what a configuration file yields follows the paths of its document over those of the
defaults.
-/

set_option autoImplicit false

namespace Inlay

open Fields (names)

/-!
## Values of documents
-/

namespace Document

theorem Outcome.of_both {α β γ : Type} {combine : α → β → γ} {left : Outcome α}
    {right : Outcome β} {value : γ} (done : Outcome.both combine left right = .ok value) :
    ∃ first second, left = .ok first ∧ right = .ok second ∧ combine first second = value := by
  cases left with
  | error fault => cases right <;> cases done
  | ok first =>
      cases right with
      | error fault => cases done
      | ok second =>
          cases done
          exact ⟨first, second, rfl, rfl, rfl⟩

theorem Outcome.mem_of_all {α : Type} {outcomes : List (Outcome α)} {values : List α}
    (done : Outcome.all outcomes = .ok values) :
    ∀ value ∈ values, Except.ok value ∈ outcomes := by
  induction outcomes generalizing values with
  | nil =>
      cases done
      exact nofun
  | cons outcome outcomes ih =>
      obtain ⟨first, rest, rfl, others, rfl⟩ := Outcome.of_both done
      intro value member
      rcases List.mem_cons.mp member with rfl | later
      · exact .head _
      · exact .tail _ (ih others value later)

theorem exists_of_map {α β ε : Type} {make : α → β} {outcome : Except ε α} {value : β}
    (done : outcome.map make = .ok value) :
    ∃ content, outcome = .ok content ∧ make content = value := by
  cases outcome with
  | error fault => cases done
  | ok content =>
      cases done
      exact ⟨content, rfl, rfl⟩

theorem isMapping_of_map {α ε : Type} {make : α → Value} {outcome : Except ε α} {value : Value}
    (leaf : ∀ content, (make content).isMapping = false) (done : outcome.map make = .ok value) :
    value.isMapping = false := by
  obtain ⟨content, _, rfl⟩ := exists_of_map done
  exact leaf content

theorem isMapping_standardValue {tag text : Text} {value : Value}
    (told : standardValue? tag text = some (.ok value)) : value.isMapping = false := by
  unfold standardValue? at told
  split_ifs at told
  case pos | pos => cases told; rfl
  all_goals exact isMapping_of_map (fun _ => rfl) (Option.some.inj told)

theorem isMapping_scalarValue {tag text : Text} {mark : Mark} {value : Value}
    (done : scalarValue tag text mark = .ok value) : value.isMapping = false := by
  unfold scalarValue at done
  split_ifs at done
  · split at done <;> cases done
    rfl
  · split at done
    · next told =>
        cases done
        exact isMapping_standardValue told
    all_goals cases done

namespace Node

theorem isMapping_onLevel {level : Nat} {content : Except DocumentFault Value} {value : Value}
    (leaf : ∀ value, content = .ok value → value.isMapping = false)
    (done : Outcome.onLevel level content = .ok value) : value.isMapping = false := by
  cases content with
  | error fault => cases done
  | ok content =>
      cases done
      exact leaf value rfl

theorem isMapping_scalarLike {level : Nat} {node : Node} {value : Value}
    (done : scalarLike level node = .ok value) : value.isMapping = false := by
  unfold scalarLike at done
  split at done
  · refine isMapping_onLevel (fun value read => ?_) done
    cases own : node.ownText with
    | error fault =>
        rw [own] at read
        cases read
    | ok text =>
        rw [own] at read
        exact isMapping_scalarValue read
  · cases done

theorem hasDistinctNames_foldl_set {fields sofar : Fields}
    (distinct : (Value.mapping sofar).HasDistinctNames)
    (each : ∀ field ∈ fields, field.2.HasDistinctNames) :
    (Value.mapping (fields.foldl (fun sofar (name, value) => Fields.set name value sofar)
      sofar)).HasDistinctNames := by
  induction fields generalizing sofar with
  | nil => exact distinct
  | cons field fields ih =>
      obtain ⟨first, others⟩ := List.forall_mem_cons.mp each
      exact ih (distinct.set first field.1) others

theorem hasDistinctNames_ofFields {tag : Text} {fields : Fields}
    (each : ∀ field ∈ fields, field.2.HasDistinctNames) :
    (ofFields tag fields).HasDistinctNames := by
  unfold ofFields
  dsimp only
  split
  · exact .leaf rfl
  · exact hasDistinctNames_foldl_set (.mapping .nil nofun) each

theorem hasDistinctNames_value {bound level : Nat} {node : Node} {value : Value}
    (done : node.value bound level = .ok value) : value.HasDistinctNames := by
  induction bound generalizing level node value with
  | zero => cases done
  | succ bound ih =>
      cases node with
      | scalar tag text mark =>
          rw [Node.value] at done
          split at done
          · cases done
          · exact .leaf (isMapping_onLevel (fun _ => isMapping_scalarValue) done)
      | sequence tag items mark =>
          rw [Node.value] at done
          split_ifs at done
          · exact .leaf (isMapping_of_map (fun _ => rfl) done)
          · split at done
            · exact .leaf (isMapping_of_map (fun _ => rfl) done)
            · cases done
          · split at done
            · exact .leaf (isMapping_of_map (fun _ => rfl) done)
            · exact .leaf (isMapping_scalarLike done)
      | mapping tag fields mark =>
          rw [Node.value] at done
          split_ifs at done
          · split at done
            · cases done
            · next fields _ =>
                obtain ⟨entries, all, rfl⟩ := exists_of_map done
                refine hasDistinctNames_ofFields fun entry member => ?_
                obtain ⟨⟨name, content⟩, _, made⟩ :=
                  List.mem_map.mp (Outcome.mem_of_all all entry member)
                obtain ⟨key, held, _, valued, rfl⟩ := Outcome.of_both made
                exact ih valued
          · exact .leaf (isMapping_scalarLike done)

end Node

theorem hasDistinctNames_read {supply : Supply} {value : Value} (done : read supply = .ok value) :
    value.HasDistinctNames := by
  unfold read at done
  split at done
  · cases done
  · cases done
    exact .leaf rfl
  · next node _ =>
      split at done
      · next valued =>
          cases done
          exact Node.hasDistinctNames_value valued
      · cases done

theorem hasDistinctNames_ofFile {name : Text} {bytes : Bytes} {value : Value}
    (done : Document.readFile name bytes = .ok value) : value.HasDistinctNames := by
  unfold Document.readFile at done
  cases valued : read (.ofBytes bytes) with
  | error fault =>
      rw [valued] at done
      cases done
  | ok own =>
      rw [valued] at done
      cases done
      exact hasDistinctNames_read valued

end Document

/-- A host whose documents have no two fields of one name in a mapping. -/
def Host.NamesApart (host : Host) : Prop :=
  ∀ name bytes value, host.readDocument name bytes = .ok value → value.HasDistinctNames

theorem Host.namesApart_common (compile : Text → Except Text Text) :
    (Host.common compile).NamesApart :=
  fun _ _ _ done => Document.hasDistinctNames_ofFile done

/-!
## References to the environment
-/

theorem isMapping_substitute (environment : Environment) (value : Value) :
    (substitute environment value).isMapping = value.isMapping := by
  cases value <;> rfl

theorem substituteFields_eq_map (environment : Environment) (fields : Fields) :
    substituteFields environment fields =
      fields.map fun field => (field.1, substitute environment field.2) := by
  induction fields with
  | nil => rfl
  | cons field fields ih => rw [substituteFields, ih, List.map_cons]

theorem names_substituteFields (environment : Environment) (fields : Fields) :
    names (substituteFields environment fields) = names fields := by
  rw [substituteFields_eq_map, names, List.map_map]
  rfl

theorem hasDistinctNames_substitute {value : Value} (distinct : value.HasDistinctNames)
    (environment : Environment) : (substitute environment value).HasDistinctNames := by
  induction distinct with
  | leaf leaf => exact .leaf ((isMapping_substitute environment _).trans leaf)
  | @mapping fields distinct _ ih =>
      refine .mapping (names_substituteFields environment fields ▸ distinct) fun field member => ?_
      rw [substituteFields_eq_map] at member
      obtain ⟨old, among, rfl⟩ := List.mem_map.mp member
      exact ih old among

namespace Config

variable {host : Host} {files : FileSystem} {environment : Environment} {path : Text}

theorem hasDistinctNames_readFile {fields : Fields} (apart : host.NamesApart)
    (done : readFile host files path = .ok fields) : (Value.mapping fields).HasDistinctNames := by
  unfold readFile at done
  split at done
  · cases done
  · split at done
    · cases done
    · next value valued =>
        have distinct : (value.orElse (.mapping [])).HasDistinctNames := by
          unfold Value.orElse
          split
          · exact .mapping .nil nofun
          · exact apart _ _ _ valued
        split at done
        · next same =>
            cases done
            exact same ▸ distinct
        · cases done

theorem followsPaths_ofFile {loaded : Value} (apart : host.NamesApart)
    (done : ofFile host files environment path = .ok loaded) :
    ∃ fields, readFile host files path = .ok fields ∧
      FollowsPaths (.mapping defaults) (substitute environment (.mapping fields)) loaded := by
  unfold ofFile at done
  cases given : readFile host files path with
  | error fault =>
      rw [given] at done
      cases done
  | ok fields =>
      rw [given] at done
      refine ⟨fields, rfl, ?_⟩
      have distinct :=
        hasDistinctNames_substitute (hasDistinctNames_readFile apart given) environment
      dsimp only [bind, Except.bind] at done
      split at done
      · cases done
      · cases done
        exact followsPaths_mergeValue distinct

/-- A loaded configuration is that of the defaults, or it follows the paths of a document, whose
references to the environment are replaced, over those of the defaults. -/
theorem followsPaths_load {file project : Option Text} {loaded : Value} (apart : host.NamesApart)
    (done : load host files environment file project = .ok loaded) :
    loaded = .mapping defaults ∨
      ∃ path fields, readFile host files path = .ok fields ∧
        FollowsPaths (.mapping defaults) (substitute environment (.mapping fields)) loaded := by
  unfold load at done
  split at done
  · next path =>
      split at done
      · exact .inr ⟨path, followsPaths_ofFile apart done⟩
      all_goals cases done
  · split at done
    · next path _ => exact .inr ⟨path, followsPaths_ofFile apart done⟩
    · cases done
      exact .inl rfl
    · cases done

end Config

end Inlay
