import Inlay.Config.Merge
import Inlay.Proofs.Config.Fields

/-!
# Merged configurations by their paths

A path goes down into a value by the names of fields. Where both of two configurations hold a
mapping, both are looked into; everywhere else a path of the merged one leads to the value of one
of the two.
-/

set_option autoImplicit false

namespace Inlay

open Fields (names)

/-!
## Paths
-/

namespace Value

/-- The value to which a path of names leads. -/
def at? : List Key → Value → Option Value
  | [], value => some value
  | name :: path, .mapping fields => (Fields.get? name fields).bind (at? path)
  | _ :: _, _ => none

def HoldsMapping (value : Value) (path : List Key) : Prop :=
  ∃ fields, value.at? path = some (.mapping fields)

/-- A path lies below one at which there is a value that is no mapping. -/
def CutsOff (value : Value) (path : List Key) : Prop :=
  ∃ front behind leaf, path = front ++ behind ∧ behind ≠ [] ∧
    value.at? front = some leaf ∧ leaf.isMapping = false

/-- No two fields of a mapping have the same name, and so it is in the mappings among its
values. -/
inductive HasDistinctNames : Value → Prop where
  | leaf {value : Value} : value.isMapping = false → HasDistinctNames value
  | mapping {fields : Fields} :
      (names fields).Nodup → (∀ field ∈ fields, HasDistinctNames field.2) →
      HasDistinctNames (.mapping fields)

variable {name : Key} {path : List Key} {value : Value} {fields : Fields}

theorem exists_fields (holds : value.isMapping = true) : ∃ fields, value = .mapping fields := by
  cases value with
  | mapping fields => exact ⟨fields, rfl⟩
  | _ => cases holds

theorem at?_cons_of_leaf (leaf : value.isMapping = false) (name : Key) (path : List Key) :
    value.at? (name :: path) = none := by
  cases value with
  | mapping fields => cases leaf
  | _ => rfl

theorem at?_mapping_cons (name : Key) (path : List Key) (fields : Fields) :
    at? (name :: path) (.mapping fields) = (Fields.get? name fields).bind (at? path) := rfl

theorem cutsOff_of_leaf (leaf : value.isMapping = false) (name : Key) (path : List Key) :
    value.CutsOff (name :: path) :=
  ⟨[], name :: path, value, rfl, List.cons_ne_nil _ _, rfl, leaf⟩

theorem cutsOff_cons_iff :
    (Value.mapping fields).CutsOff (name :: path) ↔
      ∃ inner, Fields.get? name fields = some inner ∧ inner.CutsOff path := by
  constructor
  · intro ⟨front, behind, leaf, split, below, found, plain⟩
    cases front with
    | nil =>
        cases found
        cases plain
    | cons first front =>
        obtain ⟨rfl, rest⟩ := List.cons.inj split
        obtain ⟨inner, held, inside⟩ := Option.bind_eq_some_iff.mp found
        exact ⟨inner, held, front, behind, leaf, rest, below, inside, plain⟩
  · intro ⟨inner, held, front, behind, leaf, split, below, found, plain⟩
    refine ⟨name :: front, behind, leaf, congrArg (name :: ·) split, below, ?_, plain⟩
    rw [at?_mapping_cons, held]
    exact found

theorem HasDistinctNames.nodup (distinct : (Value.mapping fields).HasDistinctNames) :
    (names fields).Nodup := by
  cases distinct with
  | leaf leaf => cases leaf
  | mapping distinct _ => exact distinct

theorem HasDistinctNames.of_mem (distinct : (Value.mapping fields).HasDistinctNames)
    {field : Key × Value} (member : field ∈ fields) : field.2.HasDistinctNames := by
  cases distinct with
  | leaf leaf => cases leaf
  | mapping _ each => exact each field member

theorem HasDistinctNames.of_get? (distinct : (Value.mapping fields).HasDistinctNames)
    (held : Fields.get? name fields = some value) : value.HasDistinctNames := by
  obtain ⟨field, member, rfl⟩ := Fields.exists_mem_of_get? held
  exact distinct.of_mem member

theorem HasDistinctNames.set (distinct : (Value.mapping fields).HasDistinctNames)
    (inner : value.HasDistinctNames) (name : Key) :
    (Value.mapping (Fields.set name value fields)).HasDistinctNames := by
  refine .mapping (Fields.nodup_names_set distinct.nodup name value) fun field member => ?_
  rcases Fields.eq_or_mem_of_mem_set member with same | old
  · exact same ▸ inner
  · exact distinct.of_mem old

end Value

/-!
## One field, one step
-/

section Steps

variable {old value : Value} {base layer : Fields}

theorem mergeFields_cons (base : Fields) (field : Key × Value) (layer : Fields) :
    mergeFields base (field :: layer) =
      mergeFields (Fields.set field.1 (mergeValue (Fields.get? field.1 base) field.2) base)
        layer := rfl

theorem mergeValue_of_leaf (leaf : value.isMapping = false) (old : Option Value) :
    mergeValue old value = value := by
  cases value with
  | mapping fields => cases leaf
  | _ => rfl

theorem mergeValue_none (value : Value) : mergeValue none value = value := by
  cases value <;> rfl

theorem mergeValue_over_leaf (leaf : old.isMapping = false) (value : Value) :
    mergeValue (some old) value = value := by
  cases value with
  | mapping fields =>
      cases old with
      | mapping base => cases leaf
      | _ => rfl
  | _ => rfl

theorem mergeValue_mapping (base layer : Fields) :
    mergeValue (some (.mapping base)) (.mapping layer) = .mapping (mergeFields base layer) := rfl

theorem mergeValue_cases (old value : Value) :
    (∃ base layer, old = .mapping base ∧ value = .mapping layer) ∨
      ((old.isMapping = false ∨ value.isMapping = false) ∧
        mergeValue (some old) value = value) := by
  cases lower : old.isMapping with
  | false => exact .inr ⟨.inl rfl, mergeValue_over_leaf lower value⟩
  | true =>
      cases upper : value.isMapping with
      | false => exact .inr ⟨.inr rfl, mergeValue_of_leaf upper _⟩
      | true =>
          obtain ⟨base, rfl⟩ := Value.exists_fields lower
          obtain ⟨layer, rfl⟩ := Value.exists_fields upper
          exact .inl ⟨base, layer, rfl, rfl⟩

/-- A field of merged ones is the lower one, or the upper one laid over the lower one. -/
theorem get?_mergeFields (distinct : (names layer).Nodup) (name : Key) (base : Fields) :
    Fields.get? name (mergeFields base layer) =
      match Fields.get? name layer with
      | none => Fields.get? name base
      | some value => some (mergeValue (Fields.get? name base) value) := by
  induction layer generalizing base with
  | nil => rfl
  | cons field layer ih =>
      obtain ⟨fresh, others⟩ := Fields.nodup_names_cons.mp distinct
      rw [mergeFields_cons, ih others, Fields.get?_cons]
      by_cases same : field.1.normal = name.normal
      · have absent : Fields.get? name layer = none := Fields.get?_eq_none_iff.mpr (same ▸ fresh)
        rw [if_pos same, absent]
        dsimp only
        rw [Fields.get?_set_of_same same, Fields.get?_congr same]
      · rw [if_neg same, Fields.get?_set_of_ne same]

theorem get?_mergeFields_of_absent (distinct : (names layer).Nodup) {name : Key}
    (absent : Fields.get? name layer = none) (base : Fields) :
    Fields.get? name (mergeFields base layer) = Fields.get? name base := by
  rw [get?_mergeFields distinct, absent]

theorem get?_mergeFields_of_get? (distinct : (names layer).Nodup) {name : Key}
    (held : Fields.get? name layer = some value) (base : Fields) :
    Fields.get? name (mergeFields base layer) =
      some (mergeValue (Fields.get? name base) value) := by
  rw [get?_mergeFields distinct, held]

end Steps

/-!
## The law of paths
-/

/-- What the merged value of two values holds at a path: the upper value where it is no mapping
or the lower one holds none, and the lower value where the upper one neither holds anything nor
cuts the path off. Where both hold a mapping there is one, and there is nothing else. -/
structure FollowsAt (path : List Key) (base layer merged : Value) : Prop where
  taken : ∀ value, layer.at? path = some value →
    value.isMapping = false ∨ ¬ base.HoldsMapping path → merged.at? path = some value
  joined : layer.HoldsMapping path → base.HoldsMapping path → merged.HoldsMapping path
  kept : ∀ value, base.at? path = some value → layer.at? path = none →
    ¬ layer.CutsOff path → merged.at? path = some value
  nothingElse : ∀ value, merged.at? path = some value →
    layer.at? path ≠ none ∨
      (base.at? path = some value ∧ layer.at? path = none ∧ ¬ layer.CutsOff path)

def FollowsPaths (base layer merged : Value) : Prop :=
  ∀ path, FollowsAt path base layer merged

section Paths

variable {name : Key} {path : List Key} {base layer merged lower upper joint : Value}

theorem followsAt_root (below lower upper : Fields) :
    FollowsAt [] (.mapping lower) (.mapping upper) (.mapping below) := by
  constructor
  case taken =>
    intro value held apart
    cases held
    rcases apart with leaf | absent
    · cases leaf
    · exact absurd ⟨lower, rfl⟩ absent
  case joined => exact fun _ _ => ⟨below, rfl⟩
  case kept => exact fun _ _ absent => by cases absent
  case nothingElse => exact fun _ _ => .inl nofun

theorem followsAt_of_upper (same : merged.at? path = layer.at? path)
    (shut : layer.at? path = none → base.at? path = none ∨ layer.CutsOff path) :
    FollowsAt path base layer merged := by
  constructor
  case taken => exact fun _ held _ => same.trans held
  case joined =>
    intro ⟨fields, held⟩ _
    exact ⟨fields, same.trans held⟩
  case kept =>
    intro value held absent whole
    rcases shut absent with none | cut
    · rw [none] at held
      cases held
    · exact absurd cut whole
  case nothingElse =>
    intro value found
    rw [same] at found
    exact .inl (by simp [found])

theorem followsAt_of_lower (same : merged.at? path = base.at? path)
    (absent : layer.at? path = none) (whole : ¬ layer.CutsOff path) :
    FollowsAt path base layer merged := by
  constructor
  case taken =>
    intro value held
    rw [absent] at held
    cases held
  case joined =>
    intro ⟨fields, held⟩
    rw [absent] at held
    cases held
  case kept => exact fun _ held _ _ => same.trans held
  case nothingElse => exact fun _ found => .inr ⟨same.symm.trans found, absent, whole⟩

theorem FollowsAt.below (follows : FollowsAt path lower upper joint)
    (atBase : base.at? (name :: path) = lower.at? path)
    (atLayer : layer.at? (name :: path) = upper.at? path)
    (atMerged : merged.at? (name :: path) = joint.at? path)
    (cut : layer.CutsOff (name :: path) ↔ upper.CutsOff path) :
    FollowsAt (name :: path) base layer merged := by
  obtain ⟨taken, joined, kept, nothingElse⟩ := follows
  constructor
  all_goals
    simp only [Value.HoldsMapping, atBase, atLayer, atMerged, cut]
    assumption

theorem followsPaths_over (apart : base.isMapping = false ∨ layer.isMapping = false) :
    FollowsPaths base layer layer := by
  intro path
  refine followsAt_of_upper rfl fun absent => ?_
  cases path with
  | nil => cases absent
  | cons name path =>
      rcases apart with leaf | leaf
      · exact .inl (Value.at?_cons_of_leaf leaf name path)
      · exact .inr (Value.cutsOff_of_leaf leaf name path)

theorem followsPaths_mergeValue (distinct : layer.HasDistinctNames) :
    FollowsPaths base layer (mergeValue (some base) layer) := by
  intro path
  -- The first name leads into a field of one side, or of both; what is merged there is followed
  -- along the rest of the path.
  induction path generalizing base layer with
  | nil =>
      rcases mergeValue_cases base layer with ⟨lower, upper, rfl, rfl⟩ | ⟨apart, same⟩
      · exact followsAt_root _ lower upper
      · rw [same]
        exact followsPaths_over apart []
  | cons name path ih =>
      rcases mergeValue_cases base layer with ⟨lower, upper, rfl, rfl⟩ | ⟨apart, same⟩
      · rw [mergeValue_mapping]
        cases inUpper : Fields.get? name upper with
        | none =>
            have atMerged := get?_mergeFields_of_absent distinct.nodup inUpper lower
            refine followsAt_of_lower ?_ ?_ fun cut => ?_
            · rw [Value.at?_mapping_cons, Value.at?_mapping_cons, atMerged]
            · rw [Value.at?_mapping_cons, inUpper, Option.bind_none]
            · obtain ⟨inner, held, _⟩ := Value.cutsOff_cons_iff.mp cut
              cases inUpper.symm.trans held
        | some value =>
            have atMerged := get?_mergeFields_of_get? distinct.nodup inUpper lower
            cases inLower : Fields.get? name lower with
            | none =>
                rw [inLower, mergeValue_none] at atMerged
                refine followsAt_of_upper ?_ fun _ => .inl ?_
                · rw [Value.at?_mapping_cons, Value.at?_mapping_cons, atMerged, inUpper]
                · rw [Value.at?_mapping_cons, inLower, Option.bind_none]
            | some old =>
                rw [inLower] at atMerged
                have inner := @ih old value (distinct.of_get? inUpper)
                refine inner.below ?_ ?_ ?_ ?_
                · rw [Value.at?_mapping_cons, inLower, Option.bind_some]
                · rw [Value.at?_mapping_cons, inUpper, Option.bind_some]
                · rw [Value.at?_mapping_cons, atMerged, Option.bind_some]
                · rw [Value.cutsOff_cons_iff, inUpper]
                  simp
      · rw [same]
        exact followsPaths_over apart _

end Paths

end Inlay
