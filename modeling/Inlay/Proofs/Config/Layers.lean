import Inlay.Proofs.Config.Merging

/-!
# Configurations in layers

A layer that is laid over another one twice is laid once. Three layers may be taken together from
either end, as long as none of them holds a mapping where another one holds something else.
-/

set_option autoImplicit false

namespace Inlay

open Fields (names)

section Repeated

variable {value : Value} {base layer : Fields}

/-- Fields that already are what they become when they are laid over the others change nothing. -/
theorem mergeFields_eq_self
    (settled : ∀ field ∈ layer, ∃ old, Fields.get? field.1 base = some old ∧
      mergeValue (some old) field.2 = old) : mergeFields base layer = base := by
  induction layer with
  | nil => rfl
  | cons field layer ih =>
      obtain ⟨first, others⟩ := List.forall_mem_cons.mp settled
      obtain ⟨old, held, same⟩ := first
      rw [mergeFields_cons, held, same, Fields.set_of_get? held, ih others]

theorem exists_mergeValue_mapping (distinct : (names layer).Nodup) (old : Option Value) :
    ∃ merged, mergeValue old (.mapping layer) = .mapping merged ∧
      ∀ field ∈ layer, ∃ below, Fields.get? field.1 merged = some (mergeValue below field.2) := by
  have alone : ∀ field ∈ layer,
      ∃ below, Fields.get? field.1 layer = some (mergeValue below field.2) := by
    intro field member
    refine ⟨none, ?_⟩
    rw [mergeValue_none, Fields.get?_of_mem distinct member]
  cases old with
  | none => exact ⟨layer, mergeValue_none _, alone⟩
  | some old =>
      rcases mergeValue_cases old (.mapping layer) with ⟨base, upper, rfl, same⟩ | ⟨_, taken⟩
      · cases same
        refine ⟨mergeFields base layer, rfl, fun field member => ⟨Fields.get? field.1 base, ?_⟩⟩
        exact get?_mergeFields_of_get? distinct (Fields.get?_of_mem distinct member) base
      · exact ⟨layer, taken, alone⟩

theorem mergeValue_again (distinct : value.HasDistinctNames) (old : Option Value) :
    mergeValue (some (mergeValue old value)) value = mergeValue old value := by
  induction distinct generalizing old with
  | leaf leaf => rw [mergeValue_of_leaf leaf, mergeValue_of_leaf leaf]
  | mapping distinct _ ih =>
      obtain ⟨merged, atOnce, each⟩ := exists_mergeValue_mapping distinct old
      rw [atOnce, mergeValue_mapping]
      congr 1
      refine mergeFields_eq_self fun field member => ?_
      obtain ⟨below, held⟩ := each field member
      exact ⟨_, held, ih field member below⟩

end Repeated

/-!
## Three layers
-/

/-- There is no path at which one of two values holds a mapping and the other one something
else. -/
def KindsAgree (value other : Value) : Prop :=
  ∀ path inner outer, value.at? path = some inner → other.at? path = some outer →
    inner.isMapping = outer.isMapping

section Layers

variable {name : Key} {value upper : Value} {base layer fields others : Fields}

theorem KindsAgree.below {inner outer : Value}
    (agree : KindsAgree (.mapping fields) (.mapping others))
    (held : Fields.get? name fields = some inner)
    (heldToo : Fields.get? name others = some outer) : KindsAgree inner outer := by
  intro path left right found foundToo
  refine agree (name :: path) left right ?_ ?_
  · rw [Value.at?_mapping_cons, held, Option.bind_some, found]
  · rw [Value.at?_mapping_cons, heldToo, Option.bind_some, foundToo]

theorem KindsAgree.at_root {other : Value} (agree : KindsAgree value other) :
    value.isMapping = other.isMapping :=
  agree [] value other rfl rfl

/-- A field that is there, and not among those that are laid over, may be set before them. -/
theorem set_mergeFields (present : name.normal ∈ names base) (absent : name.normal ∉ names layer)
    (value : Value) :
    Fields.set name value (mergeFields base layer) =
      mergeFields (Fields.set name value base) layer := by
  induction layer generalizing base with
  | nil => rfl
  | cons field layer ih =>
      obtain ⟨apart, later⟩ := not_or.mp (mt List.mem_cons.mpr absent)
      have stillPresent : name.normal ∈
          names (Fields.set field.1 (mergeValue (Fields.get? field.1 base) field.2) base) :=
        (Fields.mem_names_set _ _ _ _).mpr (.inr present)
      rw [mergeFields_cons, mergeFields_cons, ih stillPresent later,
        Fields.set_comm apart present, Fields.get?_set_of_ne apart]

theorem mergeFields_set (distinct : (names layer).Nodup) (name : Key) (value : Value)
    (base : Fields) :
    mergeFields base (Fields.set name value layer) =
      Fields.set name (mergeValue (Fields.get? name base) value) (mergeFields base layer) := by
  induction layer generalizing base with
  | nil => rfl
  | cons field layer ih =>
      obtain ⟨fresh, others⟩ := Fields.nodup_names_cons.mp distinct
      rw [Fields.set_cons]
      split
      · next same =>
          -- The old value is laid over the lower one in passing and then set anew.
          have present : name.normal ∈
              names (Fields.set field.1 (mergeValue (Fields.get? field.1 base) field.2) base) :=
            (Fields.mem_names_set _ _ _ _).mpr (.inl same.symm)
          rw [mergeFields_cons, mergeFields_cons, set_mergeFields present (same ▸ fresh),
            Fields.set_set same, Fields.get?_congr same]
      · next apart =>
          rw [mergeFields_cons, mergeFields_cons, ih others, Fields.get?_set_of_ne apart]

/-- Layers of fields may be taken together from either end if each field of the uppermost one
may. -/
theorem mergeFields_assoc_of_fields (distinct : (names layer).Nodup) (once : (names fields).Nodup)
    (each : ∀ field ∈ fields, ∀ middle, Fields.get? field.1 layer = some middle →
      mergeValue (some (mergeValue (Fields.get? field.1 base) middle)) field.2 =
        mergeValue (Fields.get? field.1 base) (mergeValue (some middle) field.2)) :
    mergeFields (mergeFields base layer) fields = mergeFields base (mergeFields layer fields) := by
  induction fields generalizing layer with
  | nil => rfl
  | cons field fields ih =>
      obtain ⟨fresh, later⟩ := Fields.nodup_names_cons.mp once
      obtain ⟨first, rest⟩ := List.forall_mem_cons.mp each
      have atFirst : mergeValue (Fields.get? field.1 (mergeFields base layer)) field.2 =
          mergeValue (Fields.get? field.1 base)
            (mergeValue (Fields.get? field.1 layer) field.2) := by
        cases held : Fields.get? field.1 layer with
        | none => rw [get?_mergeFields_of_absent distinct held, mergeValue_none]
        | some middle => rw [get?_mergeFields_of_get? distinct held, first middle held]
      rw [mergeFields_cons, mergeFields_cons, atFirst, ← mergeFields_set distinct]
      refine ih (Fields.nodup_names_set distinct _ _) later fun other member middle held => ?_
      -- The field set in the middle layer does not come again, so all others find theirs there.
      have apart : field.1.normal ≠ other.1.normal :=
        fun same => fresh (same ▸ Fields.normal_mem_names member)
      rw [Fields.get?_set_of_ne apart] at held
      exact rest other member middle held

theorem mergeValue_assoc {lower middle upper : Value} (distinct : middle.HasDistinctNames)
    (once : upper.HasDistinctNames) (lowerMiddle : KindsAgree lower middle)
    (lowerUpper : KindsAgree lower upper) (middleUpper : KindsAgree middle upper) :
    mergeValue (some (mergeValue (some lower) middle)) upper =
      mergeValue (some lower) (mergeValue (some middle) upper) := by
  induction once generalizing lower middle with
  | leaf leaf => simp only [mergeValue_of_leaf leaf]
  | @mapping fields once _ ih =>
      obtain ⟨base, rfl⟩ := Value.exists_fields lowerUpper.at_root
      obtain ⟨layer, rfl⟩ := Value.exists_fields middleUpper.at_root
      simp only [mergeValue_mapping]
      congr 1
      refine mergeFields_assoc_of_fields distinct.nodup once fun field member middle held => ?_
      have top := Fields.get?_of_mem once member
      cases inBase : Fields.get? field.1 base with
      | none => rw [mergeValue_none, mergeValue_none]
      | some lower =>
          exact ih field member (distinct.of_get? held) (lowerMiddle.below inBase held)
            (lowerUpper.below inBase top) (middleUpper.below held top)

end Layers

/-!
## Mappings
-/

section Closed

variable {value : Value} {base layer : Fields}

theorem hasDistinctNames_mergeFields (distinct : (Value.mapping base).HasDistinctNames)
    (each : ∀ field ∈ layer, ∀ old : Option Value, (∀ held ∈ old, held.HasDistinctNames) →
      (mergeValue old field.2).HasDistinctNames) :
    (Value.mapping (mergeFields base layer)).HasDistinctNames := by
  induction layer generalizing base with
  | nil => exact distinct
  | cons field layer ih =>
      obtain ⟨first, others⟩ := List.forall_mem_cons.mp each
      rw [mergeFields_cons]
      exact ih (distinct.set (first _ fun _ held => distinct.of_get? held) field.1) others

theorem hasDistinctNames_mergeValue (distinct : value.HasDistinctNames) (old : Option Value)
    (below : ∀ held ∈ old, held.HasDistinctNames) : (mergeValue old value).HasDistinctNames := by
  induction distinct generalizing old with
  | leaf leaf =>
      rw [mergeValue_of_leaf leaf]
      exact .leaf leaf
  | @mapping layer distinct each ih =>
      have alone : (Value.mapping layer).HasDistinctNames := .mapping distinct each
      cases old with
      | none => exact (mergeValue_none (.mapping layer)).symm ▸ alone
      | some lower =>
          rcases mergeValue_cases lower (.mapping layer) with ⟨base, upper, rfl, same⟩ | ⟨_, taken⟩
          · cases same
            exact hasDistinctNames_mergeFields (below _ rfl) ih
          · rw [taken]
            exact alone

end Closed

/-- A mapping in which no two fields have the same name, at any depth. -/
@[ext]
structure Mapping where
  fields : Fields
  distinct : (Value.mapping fields).HasDistinctNames

namespace Mapping

def value (mapping : Mapping) : Value := .mapping mapping.fields

def merge (base layer : Mapping) : Mapping where
  fields := mergeFields base.fields layer.fields
  distinct := hasDistinctNames_mergeFields base.distinct fun _ member old below =>
    hasDistinctNames_mergeValue (layer.distinct.of_mem member) old below

theorem value_injective {mapping other : Mapping} (same : mapping.value = other.value) :
    mapping = other := by
  ext1
  exact Value.mapping.inj same

/-- A mapping with one setting in one group. -/
def ofSetting (group name : Text) (setting : Value) (leaf : setting.isMapping = false) :
    Mapping where
  fields := [(group, .mapping [(name, setting)])]
  distinct := by
    refine .mapping (List.nodup_singleton _) (List.forall_mem_singleton.mpr ?_)
    exact .mapping (List.nodup_singleton _) (List.forall_mem_singleton.mpr (.leaf leaf))

theorem at?_of_at?_singleton {name first : Key} {path : List Key} {value inner : Value}
    (found : (Value.mapping [(name, value)]).at? (first :: path) = some inner) :
    value.at? path = some inner := by
  obtain ⟨held, same, below⟩ := Option.bind_eq_some_iff.mp found
  obtain ⟨field, member, rfl⟩ := Fields.exists_mem_of_get? same
  cases List.mem_singleton.mp member
  exact below

/-- In a mapping with one setting, the mappings are those on the upper two levels. -/
theorem isMapping_of_at?_ofSetting {group name : Text} {setting inner : Value}
    {leaf : setting.isMapping = false} {path : List Key}
    (found : (ofSetting group name setting leaf).value.at? path = some inner) :
    inner.isMapping = decide (path.length < 2) := by
  match path with
  | [] =>
      cases found
      rfl
  | [_] =>
      cases at?_of_at?_singleton found
      rfl
  | _ :: _ :: path =>
      have below := at?_of_at?_singleton (at?_of_at?_singleton found)
      cases path with
      | nil =>
          cases below
          simpa using leaf
      | cons third path =>
          rw [Value.at?_cons_of_leaf leaf] at below
          cases below

theorem kindsAgree_ofSetting {group name otherGroup otherName : Text} {setting other : Value}
    {leaf : setting.isMapping = false} {otherLeaf : other.isMapping = false} :
    KindsAgree (ofSetting group name setting leaf).value
      (ofSetting otherGroup otherName other otherLeaf).value := by
  intro path inner outer found foundToo
  rw [isMapping_of_at?_ofSetting found, isMapping_of_at?_ofSetting foundToo]

/-- A mapping laid over another one is followed along its paths, and laid over once for all.
Three layers of mappings that agree on where the mappings are may be taken together from either
end. -/
theorem merge_follows_paths :
    (∀ base layer : Mapping, FollowsPaths base.value layer.value (base.merge layer).value ∧
      (base.merge layer).merge layer = base.merge layer) ∧
    ∀ lower middle upper : Mapping, KindsAgree lower.value middle.value →
      KindsAgree lower.value upper.value → KindsAgree middle.value upper.value →
      (lower.merge middle).merge upper = lower.merge (middle.merge upper) := by
  refine ⟨fun base layer => ⟨?_, ?_⟩, ?_⟩
  · exact followsPaths_mergeValue layer.distinct
  · exact value_injective (mergeValue_again layer.distinct (some base.value))
  · intro lower middle upper lowerMiddle lowerUpper middleUpper
    exact value_injective
      (mergeValue_assoc middle.distinct upper.distinct lowerMiddle lowerUpper middleUpper)

theorem merge_follows_paths_in_settings :
    let shipped := ofSetting "logging" "level" (.text "INFO") rfl
    let project := ofSetting "logging" "file" (.text "run.log") rfl
    let given := ofSetting "logging" "level" (.text "DEBUG") rfl
    (shipped.merge given).value.at? [.text "logging", .text "level"] = some (.text "DEBUG") ∧
      (shipped.merge project).merge given = shipped.merge (project.merge given) := by
  constructor
  · exact ((merge_follows_paths.1 _ _).1 _).taken _ rfl (.inl rfl)
  · exact merge_follows_paths.2 _ _ _ kindsAgree_ofSetting kindsAgree_ofSetting
      kindsAgree_ofSetting

end Mapping

end Inlay
