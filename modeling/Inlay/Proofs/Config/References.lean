import Inlay.Proofs.Config.Loaded
import Mathlib.Data.List.Forall2

/-!
# References to the environment

A text is read from left to right, and wherever a reference begins, as that reference
(`reads_iff`). What is put for the references is not read again, and nothing else of a value
changes (`substituted_iff`), so that only the names that it refers to matter and a merged
configuration has its references replaced as its layers have.
-/

set_option autoImplicit false

namespace Inlay

/-! ## Texts -/

namespace VariableReference

/-- What may stand between the braces of a reference. -/
structure IsFormed (reference : VariableReference) : Prop where
  filled : reference.body ≠ []
  braced : .char '}' ∉ reference.body

/-- A text as characters and the references that begin at the first places possible. -/
inductive Reads : Text → List (Piece VariableReference) → Prop where
  | nil : Reads [] []
  | reference {reference : VariableReference} {rest : Text}
      {pieces : List (Piece VariableReference)} :
      reference.IsFormed → Reads rest pieces →
      Reads (spelling reference ++ rest) (.token reference :: pieces)
  | char {c : CodePoint} {text : Text} {pieces : List (Piece VariableReference)} :
      (∀ reference rest, IsFormed reference → c :: text ≠ spelling reference ++ rest) →
      Reads text pieces → Reads (c :: text) (.char c :: pieces)

/-- What is put for a reference. The name of its variable ends at the first colon. -/
inductive StandsFor (environment : Environment) : VariableReference → Text → Prop where
  | set {name value : Text} :
      .char ':' ∉ name → environment.lookup name = some value → StandsFor environment ⟨name⟩ value
  | unset {name : Text} :
      .char ':' ∉ name → environment.lookup name = none →
      StandsFor environment ⟨name⟩ (spelling (⟨name⟩ : VariableReference))
  | setBefore {name default value : Text} :
      .char ':' ∉ name → environment.lookup name = some value →
      StandsFor environment ⟨name ++ .char ':' :: default⟩ value
  | default {name default : Text} :
      .char ':' ∉ name → environment.lookup name = none →
      StandsFor environment ⟨name ++ .char ':' :: default⟩ default

/-- What is written for pieces: characters stay, and each reference is replaced. -/
inductive Writes (environment : Environment) : List (Piece VariableReference) → Text → Prop where
  | nil : Writes environment [] []
  | char {c : CodePoint} {pieces : List (Piece VariableReference)} {rest : Text} :
      Writes environment pieces rest → Writes environment (.char c :: pieces) (c :: rest)
  | reference {reference : VariableReference} {pieces : List (Piece VariableReference)}
      {image rest : Text} :
      StandsFor environment reference image → Writes environment pieces rest →
      Writes environment (.token reference :: pieces) (image ++ rest)

variable {environment : Environment} {reference : VariableReference} {text rest : Text}
  {pieces : List (Piece VariableReference)}

theorem read?_eq_some_iff :
    scan.read? text = some (reference, rest) ↔
      reference.IsFormed ∧ text = spelling reference ++ rest := by
  obtain ⟨body⟩ := reference
  constructor
  · intro outcome
    refine ⟨?_, scan.splits outcome⟩
    change read? text = _ at outcome
    unfold read? at outcome
    split at outcome
    · cases outcome
    · split at outcome
      · next cut =>
          cases outcome
          exact ⟨List.cons_ne_nil _ _, (Text.cut?_eq_some_iff.mp cut).2⟩
      · cases outcome
  · intro written
    obtain ⟨⟨filled, braced⟩, split⟩ := written
    obtain ⟨c, body, rfl⟩ := List.exists_cons_of_ne_nil filled
    have after : Text.after? opening text = some ((c :: body) ++ .char '}' :: rest) := by
      rw [Text.after?_eq_some_iff, split]
      simp [spelling, Text.ofString]
    change read? text = _
    rw [read?, after]
    dsimp only
    rw [Text.cut?_eq_some_iff.mpr ⟨rfl, braced⟩]

/-- The first step of a scan. -/
theorem pieces_cases (text : Text) :
    text = [] ∨
      (∃ reference rest, scan.read? text = some (reference, rest) ∧
        scan.pieces text = .token reference :: scan.pieces rest) ∨
      ∃ c rest, text = c :: rest ∧ scan.read? text = none ∧
        scan.pieces text = .char c :: scan.pieces rest := by
  cases text with
  | nil => exact .inl rfl
  | cons c text =>
      cases outcome : scan.read? (c :: text) with
      | none => exact .inr (.inr ⟨c, text, rfl, rfl, Recognizer.pieces_cons_of_none outcome⟩)
      | some result =>
          exact .inr (.inl ⟨result.1, result.2, rfl, Recognizer.pieces_of_read? outcome⟩)

theorem unread_iff :
    scan.read? text = none ↔
      ∀ reference rest, IsFormed reference → text ≠ spelling reference ++ rest := by
  rw [Option.eq_none_iff_forall_not_mem]
  constructor
  · intro unread reference rest formed split
    exact unread (reference, rest) (read?_eq_some_iff.mpr ⟨formed, split⟩)
  · intro unread result outcome
    obtain ⟨formed, split⟩ := read?_eq_some_iff.mp outcome
    exact unread result.1 result.2 formed split

/-- A text is read in one way only, and so the scan reads it. -/
theorem reads_iff : Reads text pieces ↔ scan.pieces text = pieces := by
  constructor
  · intro reads
    induction reads with
    | nil => exact Recognizer.pieces_nil
    | reference formed _ ih =>
        rw [Recognizer.pieces_of_read? (read?_eq_some_iff.mpr ⟨formed, rfl⟩), ih]
    | char unread _ ih => rw [Recognizer.pieces_cons_of_none (unread_iff.mpr unread), ih]
  · intro scanned
    induction pieces generalizing text with
    | nil =>
        rcases pieces_cases text with rfl | ⟨reference, rest, _, same⟩ | ⟨c, rest, _, _, same⟩
        · exact .nil
        · cases same.symm.trans scanned
        · cases same.symm.trans scanned
    | cons piece pieces ih =>
        rcases pieces_cases text with rfl | ⟨reference, rest, outcome, same⟩ |
          ⟨c, rest, rfl, unread, same⟩
        · cases Recognizer.pieces_nil.symm.trans scanned
        · obtain ⟨rfl, later⟩ := List.cons.inj (same.symm.trans scanned)
          obtain ⟨formed, rfl⟩ := read?_eq_some_iff.mp outcome
          exact .reference formed (ih later)
        · obtain ⟨rfl, later⟩ := List.cons.inj (same.symm.trans scanned)
          exact .char (unread_iff.mp unread) (ih later)

theorem image_of_cut {name default : Text} (unmarked : .char ':' ∉ name) :
    image environment ⟨name ++ .char ':' :: default⟩ =
      (environment.lookup name).getD default := by
  have cut : Text.cut? (.char ':') (name ++ .char ':' :: default) = some (name, default) :=
    Text.cut?_eq_some_iff.mpr ⟨rfl, unmarked⟩
  simp only [image, VariableReference.name, fallback, cut]

theorem image_of_uncut {name : Text} (unmarked : .char ':' ∉ name) :
    image environment ⟨name⟩ =
      (environment.lookup name).getD (spelling (⟨name⟩ : VariableReference)) := by
  have uncut : Text.cut? (.char ':') name = none := Text.cut?_eq_none_iff.mpr unmarked
  simp only [image, VariableReference.name, fallback, uncut]

theorem standsFor_iff :
    StandsFor environment reference text ↔ reference.image environment = text := by
  constructor
  · intro stands
    cases stands with
    | set unmarked found => rw [image_of_uncut unmarked, found, Option.getD_some]
    | unset unmarked absent => rw [image_of_uncut unmarked, absent, Option.getD_none]
    | setBefore unmarked found => rw [image_of_cut unmarked, found, Option.getD_some]
    | default unmarked absent => rw [image_of_cut unmarked, absent, Option.getD_none]
  · intro same
    obtain ⟨body⟩ := reference
    cases cut : Text.cut? (.char ':') body with
    | none =>
        have unmarked := Text.cut?_eq_none_iff.mp cut
        rw [image_of_uncut unmarked] at same
        cases found : environment.lookup body with
        | none => exact same ▸ found ▸ .unset unmarked found
        | some value => exact same ▸ found ▸ .set unmarked found
    | some parts =>
        obtain ⟨name, default⟩ := parts
        obtain ⟨rfl, unmarked⟩ := Text.cut?_eq_some_iff.mp cut
        rw [image_of_cut unmarked] at same
        cases found : environment.lookup name with
        | none => exact same ▸ found ▸ .default unmarked found
        | some value => exact same ▸ found ▸ .setBefore unmarked found

theorem writes_iff :
    Writes environment pieces text ↔
      pieces.flatMap (Piece.render (image environment)) = text := by
  constructor
  · intro writes
    induction writes with
    | nil => rfl
    | char _ ih => rw [List.flatMap_cons, ih]; rfl
    | reference stands _ ih => rw [List.flatMap_cons, ih, Piece.render, standsFor_iff.mp stands]
  · intro same
    induction pieces generalizing text with
    | nil => exact same ▸ .nil
    | cons piece pieces ih =>
        rw [List.flatMap_cons] at same
        cases piece with
        | char c => exact same ▸ .char (ih rfl)
        | token reference => exact same ▸ .reference (standsFor_iff.mpr rfl) (ih rfl)

theorem substituteText_eq_iff {result : Text} :
    substituteText environment text = result ↔
      ∃ pieces, Reads text pieces ∧ Writes environment pieces result := by
  constructor
  · intro same
    exact ⟨_, reads_iff.mpr rfl, writes_iff.mpr same⟩
  · intro ⟨pieces, reads, writes⟩
    rw [substituteText, Recognizer.replace, reads_iff.mp reads, writes_iff.mp writes]

end VariableReference

/-! ## Values -/

/-- What holds of a value if it holds of the values in it holds of all values. -/
theorem Value.induction {motive : Value → Prop} (null : motive .null)
    (bool : ∀ value, motive (.bool value)) (int : ∀ value, motive (.int value))
    (float : ∀ value, motive (.float value)) (text : ∀ value, motive (.text value))
    (moment : ∀ value, motive (.moment value)) (bytes : ∀ value, motive (.bytes value))
    (set : ∀ items, motive (.set items)) (pairs : ∀ wordings, motive (.pairs wordings))
    (list : ∀ items, (∀ item ∈ items, motive item) → motive (.list items))
    (mapping : ∀ fields : Fields, (∀ field ∈ fields, motive field.2) → motive (.mapping fields)) :
    ∀ value, motive value
  | .null => null
  | .bool value => bool value
  | .int value => int value
  | .float value => float value
  | .text value => text value
  | .moment value => moment value
  | .bytes value => bytes value
  | .set items => set items
  | .pairs wordings => pairs wordings
  | .list items => list items fun item _ =>
      Value.induction null bool int float text moment bytes set pairs list mapping item
  | .mapping fields => mapping fields fun field member =>
      have _ : sizeOf field.2 < sizeOf fields := by
        have inside := List.sizeOf_lt_of_mem member
        rw [Prod.mk.sizeOf_spec] at inside
        omega
      Value.induction null bool int float text moment bytes set pairs list mapping field.2

/-- Values of the same shape, with the same names of fields, that differ in their texts only: the
second one has its references replaced. -/
inductive Substituted (environment : Environment) : Value → Value → Prop where
  | null : Substituted environment .null .null
  | bool {value : Bool} : Substituted environment (.bool value) (.bool value)
  | int {value : Int} : Substituted environment (.int value) (.int value)
  | float {value : Binary64} : Substituted environment (.float value) (.float value)
  | moment {value : Moment} : Substituted environment (.moment value) (.moment value)
  | bytes {value : List UInt8} : Substituted environment (.bytes value) (.bytes value)
  | set {items : List Key} : Substituted environment (.set items) (.set items)
  | pairs {wordings : List Text} : Substituted environment (.pairs wordings) (.pairs wordings)
  | text {text result : Text} {pieces : List (Piece VariableReference)} :
      VariableReference.Reads text pieces → VariableReference.Writes environment pieces result →
      Substituted environment (.text text) (.text result)
  | noItems : Substituted environment (.list []) (.list [])
  | item {item result : Value} {items results : List Value} :
      Substituted environment item result →
      Substituted environment (.list items) (.list results) →
      Substituted environment (.list (item :: items)) (.list (result :: results))
  | noFields : Substituted environment (.mapping []) (.mapping [])
  | field {name : Key} {value result : Value} {fields results : Fields} :
      Substituted environment value result →
      Substituted environment (.mapping fields) (.mapping results) →
      Substituted environment (.mapping ((name, value) :: fields))
        (.mapping ((name, result) :: results))

section Values

variable {environment other : Environment} {value result : Value}

theorem substituted_substitute (environment : Environment) (value : Value) :
    Substituted environment value (substitute environment value) := by
  induction value using Value.induction with
  | null => exact .null
  | bool => exact .bool
  | int => exact .int
  | float => exact .float
  | moment => exact .moment
  | bytes => exact .bytes
  | set => exact .set
  | pairs => exact .pairs
  | text text =>
      obtain ⟨pieces, reads, writes⟩ := VariableReference.substituteText_eq_iff.mp rfl
      exact .text reads writes
  | list items each =>
      induction items with
      | nil => exact .noItems
      | cons item items ih =>
          obtain ⟨first, others⟩ := List.forall_mem_cons.mp each
          exact .item first (ih others)
  | mapping fields each =>
      induction fields with
      | nil => exact .noFields
      | cons field fields ih =>
          obtain ⟨first, others⟩ := List.forall_mem_cons.mp each
          exact .field first (ih others)

theorem Substituted.eq (substituted : Substituted environment value result) :
    substitute environment value = result := by
  induction substituted with
  | null | bool | int | float | moment | bytes | set | pairs | noItems | noFields => rfl
  | text reads writes =>
      exact congrArg Value.text
        (VariableReference.substituteText_eq_iff.mpr ⟨_, reads, writes⟩)
  | item _ _ first later =>
      rw [substitute, Value.list.injEq] at later
      rw [substitute, substituteItems, first, later]
  | field _ _ first later =>
      rw [substitute, Value.mapping.injEq] at later
      rw [substitute, substituteFields, first, later]

theorem substituted_iff :
    Substituted environment value result ↔ substitute environment value = result :=
  ⟨Substituted.eq, fun same => same ▸ substituted_substitute environment value⟩

/-! ## Names -/

/-- The names of the variables that a text refers to, from first to last. -/
def VariableReference.namesIn (text : Text) : List Text :=
  (tokensOf (VariableReference.scan.pieces text)).map VariableReference.name

/-- The names of the variables that the texts of a value refer to, from first to last. -/
def Value.variables (value : Value) : List Text :=
  value.texts.flatMap VariableReference.namesIn

theorem referenceFault?_eq (text : Text) :
    referenceFault? text = (VariableReference.namesIn text).findSome? Utf8.nameFault? :=
  List.findSome?_map.symm

theorem findSome?_variables (value : Value) :
    value.texts.findSome? referenceFault? = value.variables.findSome? Utf8.nameFault? := by
  unfold Value.variables
  induction value.texts with
  | nil => rfl
  | cons text texts ih =>
      rw [List.flatMap_cons, List.findSome?_append, List.findSome?_cons, ih, referenceFault?_eq]
      cases (VariableReference.namesIn text).findSome? Utf8.nameFault? <;> rfl

theorem substituteChecked_eq_ok_iff :
    substituteChecked environment value = .ok result ↔
      (∀ name ∈ value.variables, Utf8.nameFault? name = none) ∧
        Substituted environment value result := by
  rw [substituted_iff, ← List.findSome?_eq_none_iff, ← findSome?_variables]
  unfold substituteChecked
  cases value.texts.findSome? referenceFault? <;> simp

theorem substituteChecked_eq_error_iff {fault : EncodeFault} :
    substituteChecked environment value = .error fault ↔
      ∃ before name behind, value.variables = before ++ name :: behind ∧
        Utf8.nameFault? name = some fault ∧
        ∀ earlier ∈ before, Utf8.nameFault? earlier = none := by
  rw [← List.findSome?_eq_some_iff, ← findSome?_variables]
  unfold substituteChecked
  cases value.texts.findSome? referenceFault? <;> simp

theorem itemTexts_eq_flatMap (items : List Value) :
    Value.itemTexts items = items.flatMap Value.texts := by
  induction items with
  | nil => rfl
  | cons item items ih => rw [Value.itemTexts, ih, List.flatMap_cons]

theorem fieldTexts_eq_flatMap (fields : Fields) :
    Value.fieldTexts fields = fields.flatMap fun field => field.2.texts := by
  induction fields with
  | nil => rfl
  | cons field fields ih => rw [Value.fieldTexts, ih, List.flatMap_cons]

theorem substituteItems_eq_map (environment : Environment) (items : List Value) :
    substituteItems environment items = items.map (substitute environment) := by
  induction items with
  | nil => rfl
  | cons item items ih => rw [substituteItems, ih, List.map_cons]

theorem substituteText_congr {text : Text}
    (agree : ∀ name ∈ VariableReference.namesIn text, environment.lookup name = other.lookup name) :
    substituteText environment text = substituteText other text := by
  unfold VariableReference.namesIn at agree
  unfold substituteText Recognizer.replace
  generalize VariableReference.scan.pieces text = pieces at agree ⊢
  induction pieces with
  | nil => rfl
  | cons piece pieces ih =>
      cases piece with
      | char c => rw [List.flatMap_cons, List.flatMap_cons, ih agree]; rfl
      | token reference =>
          obtain ⟨here, later⟩ := List.forall_mem_cons.mp agree
          have image : reference.image environment = reference.image other := by
            rw [VariableReference.image, VariableReference.image, here]
          rw [List.flatMap_cons, List.flatMap_cons, ih later, Piece.render, Piece.render, image]

theorem substitute_congr (agree : ∀ text ∈ value.texts, ∀ name ∈ VariableReference.namesIn text,
    environment.lookup name = other.lookup name) :
    substitute environment value = substitute other value := by
  induction value using Value.induction with
  | null | bool | int | float | moment | bytes | set | pairs => rfl
  | text text => exact congrArg Value.text (substituteText_congr (agree text (.head _)))
  | list items ih =>
      rw [substitute, substitute, substituteItems_eq_map, substituteItems_eq_map]
      refine congrArg Value.list (List.map_congr_left fun item member => ih item member ?_)
      intro text held
      refine agree text ?_
      rw [Value.texts, itemTexts_eq_flatMap]
      exact List.mem_flatMap.mpr ⟨item, member, held⟩
  | mapping fields ih =>
      rw [substitute, substitute, substituteFields_eq_map, substituteFields_eq_map]
      refine congrArg Value.mapping (List.map_congr_left fun field member => ?_)
      rw [ih field member fun text held => agree text ?_]
      rw [Value.texts, fieldTexts_eq_flatMap]
      exact List.mem_flatMap.mpr ⟨field, member, held⟩

end Values

/-! ## Layers -/

section Layers

variable {environment : Environment} {base layer : Fields} {text : Text}

theorem get?_substituteFields (environment : Environment) (name : Key) (fields : Fields) :
    Fields.get? name (substituteFields environment fields) =
      (Fields.get? name fields).map (substitute environment) := by
  induction fields with
  | nil => rfl
  | cons field fields ih =>
      rw [substituteFields, Fields.get?_cons, Fields.get?_cons, ih]
      split <;> rfl

theorem substituteFields_set (environment : Environment) (name : Key) (value : Value)
    (fields : Fields) :
    substituteFields environment (Fields.set name value fields) =
      Fields.set name (substitute environment value) (substituteFields environment fields) := by
  induction fields with
  | nil => rfl
  | cons field fields ih =>
      rw [substituteFields, Fields.set_cons, Fields.set_cons]
      split
      · rfl
      · rw [substituteFields, ih]

theorem substituteFields_mergeFields
    (each : ∀ field ∈ layer, ∀ old, substitute environment (mergeValue old field.2) =
      mergeValue (old.map (substitute environment)) (substitute environment field.2)) :
    substituteFields environment (mergeFields base layer) =
      mergeFields (substituteFields environment base) (substituteFields environment layer) := by
  induction layer generalizing base with
  | nil => rfl
  | cons field layer ih =>
      obtain ⟨first, others⟩ := List.forall_mem_cons.mp each
      rw [mergeFields_cons, ih others, substituteFields_set, first, substituteFields,
        mergeFields_cons, get?_substituteFields]

/-- Values are laid over others before or after their references are replaced. -/
theorem substitute_mergeValue (environment : Environment) (value : Value) (old : Option Value) :
    substitute environment (mergeValue old value) =
      mergeValue (old.map (substitute environment)) (substitute environment value) := by
  induction value using Value.induction generalizing old with
  | null | bool | int | float | moment | bytes | set | pairs | text | list => rfl
  | mapping fields ih =>
      cases old with
      | none => rfl
      | some lower =>
          cases lower with
          | mapping base => exact congrArg Value.mapping (substituteFields_mergeFields ih)
          | _ => rfl

theorem mem_fieldTexts {fields : Fields} :
    text ∈ Value.fieldTexts fields ↔ ∃ field ∈ fields, text ∈ field.2.texts := by
  rw [fieldTexts_eq_flatMap, List.mem_flatMap]

theorem mem_fieldTexts_mergeFields
    (each : ∀ field ∈ layer, ∀ old, text ∈ (mergeValue old field.2).texts →
      text ∈ field.2.texts ∨ ∃ held ∈ old, text ∈ held.texts)
    (member : text ∈ Value.fieldTexts (mergeFields base layer)) :
    text ∈ Value.fieldTexts layer ∨ text ∈ Value.fieldTexts base := by
  induction layer generalizing base with
  | nil => exact .inr member
  | cons field layer ih =>
      obtain ⟨first, others⟩ := List.forall_mem_cons.mp each
      rcases ih others member with later | set
      · obtain ⟨other, among, held⟩ := mem_fieldTexts.mp later
        exact .inl (mem_fieldTexts.mpr ⟨other, .tail _ among, held⟩)
      · obtain ⟨other, among, held⟩ := mem_fieldTexts.mp set
        rcases Fields.eq_or_mem_of_mem_set among with same | old
        · rw [same] at held
          rcases first _ held with upper | ⟨lower, found, inside⟩
          · exact .inl (mem_fieldTexts.mpr ⟨field, .head _, upper⟩)
          · obtain ⟨under, below, rfl⟩ := Fields.exists_mem_of_get? found
            exact .inr (mem_fieldTexts.mpr ⟨under, below, inside⟩)
        · exact .inr (mem_fieldTexts.mpr ⟨other, old, held⟩)

/-- A text of a merged value comes from one of the two. -/
theorem mem_texts_mergeValue (value : Value) (old : Option Value)
    (member : text ∈ (mergeValue old value).texts) :
    text ∈ value.texts ∨ ∃ held ∈ old, text ∈ held.texts := by
  induction value using Value.induction generalizing old with
  | null | bool | int | float | moment | bytes | set | pairs | text | list => exact .inl member
  | mapping fields ih =>
      cases old with
      | none => exact .inl member
      | some lower =>
          cases lower with
          | mapping base =>
              exact (mem_fieldTexts_mergeFields ih member).imp_right fun held => ⟨_, rfl, held⟩
          | _ => exact .inl member

theorem mem_variables_mergeFields {name : Text}
    (member : name ∈ (Value.mapping (mergeFields base layer)).variables) :
    name ∈ (Value.mapping base).variables ∨ name ∈ (Value.mapping layer).variables := by
  obtain ⟨text, held, named⟩ := List.mem_flatMap.mp member
  rcases mem_texts_mergeValue (.mapping layer) (some (.mapping base)) held with
    upper | ⟨lower, same, under⟩
  · exact .inr (List.mem_flatMap.mpr ⟨text, upper, named⟩)
  · cases same
    exact .inl (List.mem_flatMap.mpr ⟨text, under, named⟩)

end Layers

/-- In a configuration whose variables can be asked for, the references are replaced, and nothing
else changes; the first variable that cannot be asked for is a fault. Only the values of the
variables that are named matter, and layers are merged before or after. -/
theorem substitution_is_local (environment : Environment) (value : Value) :
    (∀ result, substituteChecked environment value = .ok result ↔
      (∀ name ∈ value.variables, Utf8.nameFault? name = none) ∧
        Substituted environment value result) ∧
    (∀ fault, substituteChecked environment value = .error fault ↔
      ∃ before name behind, value.variables = before ++ name :: behind ∧
        Utf8.nameFault? name = some fault ∧
        ∀ earlier ∈ before, Utf8.nameFault? earlier = none) ∧
    (∀ other : Environment,
      (∀ name ∈ value.variables, environment.lookup name = other.lookup name) →
        substituteChecked environment value = substituteChecked other value) ∧
    ∀ base layer base' layer' : Fields,
      substituteChecked environment (.mapping base) = .ok (.mapping base') →
      substituteChecked environment (.mapping layer) = .ok (.mapping layer') →
        substituteChecked environment (.mapping (mergeFields base layer)) =
          .ok (.mapping (mergeFields base' layer')) := by
  refine ⟨fun _ => substituteChecked_eq_ok_iff, fun _ => substituteChecked_eq_error_iff, ?_, ?_⟩
  · intro other agree
    have same : substitute environment value = substitute other value := by
      refine substitute_congr fun text held name named => agree name ?_
      exact List.mem_flatMap.mpr ⟨text, held, named⟩
    rw [substituteChecked, substituteChecked, same]
  · intro base layer base' layer' lower upper
    obtain ⟨lowerNamed, lowerSame⟩ := substituteChecked_eq_ok_iff.mp lower
    obtain ⟨upperNamed, upperSame⟩ := substituteChecked_eq_ok_iff.mp upper
    refine substituteChecked_eq_ok_iff.mpr ⟨fun name member => ?_, substituted_iff.mpr ?_⟩
    · rcases mem_variables_mergeFields member with under | above
      · exact lowerNamed name under
      · exact upperNamed name above
    · have merged := substitute_mergeValue environment (.mapping layer) (some (.mapping base))
      rw [Option.map_some, lowerSame.eq, upperSame.eq] at merged
      exact merged

theorem substitution_is_local_in_settings :
    let environment : Environment := [("LEVEL", "$\x7bFILE\x7d")]
    let shipped : Fields := [(.text "level", .text "$\x7bLEVEL:INFO\x7d")]
    let project : Fields := [(.text "level", .text "to $\x7bLEVEL\x7d"), (.text "file", .null)]
    let shipped' : Fields := [(.text "level", .text "$\x7bFILE\x7d")]
    let project' : Fields := [(.text "level", .text "to $\x7bFILE\x7d"), (.text "file", .null)]
    substituteChecked environment (.mapping shipped) = .ok (.mapping shipped') ∧
      substituteChecked environment (.mapping (mergeFields shipped project)) =
        .ok (.mapping (mergeFields shipped' project')) := by
  intro environment shipped project shipped' project'
  refine ⟨rfl, ?_⟩
  exact (substitution_is_local environment (.mapping shipped)).2.2.2 _ _ _ _ rfl rfl

/-- The environment cannot be asked for a half of a character, although a variable of this name is
never set. -/
theorem variable_may_not_be_askable :
    let reference : VariableReference := ⟨[.half 0]⟩
    ¬ ∃ result, substituteChecked [] (.text (spelling reference)) = .ok result := by
  intro reference ⟨result, done⟩
  cases done

end Inlay
