import Inlay.Proofs.Config.Fields
import Inlay.Proofs.Config.Settings
import Inlay.Proofs.Outcomes

/-!
# List settings

Four settings hold a list of texts. Each of them decides one part of the options only
(`decides`): the entries that are not blank, in their order, or what stands for none of them. A
single text is taken as it is, blank or not.
-/

set_option autoImplicit false

namespace Inlay

/-! ## Texts of values -/

theorem natNumeral_ne_nil (n : Nat) : natNumeral n ≠ [] :=
  mt List.map_eq_nil_iff.mp Nat.toDigits_ne_nil

theorem intNumeral_ne_nil (i : Int) : intNumeral i ≠ [] := by
  unfold intNumeral
  split
  · exact List.cons_ne_nil _ _
  · exact natNumeral_ne_nil _

theorem Binary64.ShortDecimal.text_ne_nil (decimal : ShortDecimal) : decimal.text ≠ [] := by
  unfold ShortDecimal.text
  split
  · simp [Text.ofString]
  · split
    · simp [Text.ofString]
    · dsimp only
      split <;> simp [Text.ofString]

theorem Binary64.text_ne_nil (number : Binary64) : number.text ≠ [] := by
  unfold Binary64.text
  have sized : number.shortest.text ≠ [] := number.shortest.text_ne_nil
  dsimp only
  repeat' split
  all_goals simp [Text.ofString, sized]

namespace Value

/-- A value that counts as given has a text. -/
theorem asText_ne_nil {value : Value} (given : value.isVoid = false) : value.asText ≠ [] := by
  cases value with
  | null => cases given
  | bool value => cases value <;> decide
  | int value => exact intNumeral_ne_nil value
  | float value => exact value.text_ne_nil
  | text value => exact List.isEmpty_eq_false_iff.mp given
  | moment value => simp [asText, Moment.text, Text.ofString]
  | bytes value => simp [asText, shown, Key.shown, quotedBytes]
  | list items => simp [asText, shown, Text.ofString]
  | mapping fields => simp [asText, shown, Text.ofString]
  | set items =>
      simp only [asText, shown]
      split <;> simp [Text.ofString]
  | pairs wordings => simp [asText, shown, Text.ofString]

theorem asText_orElse_ne_nil (value : Value) {replacement : Value}
    (given : replacement.isVoid = false) : (value.orElse replacement).asText ≠ [] := by
  unfold orElse
  split
  · exact asText_ne_nil given
  · next own => exact asText_ne_nil (by simpa using own)

/-- The entries that a value gives for a list, each as a text. A single text is one entry. -/
def entries : Value → List Text
  | .text value => [value]
  | value => value.itemWordings?.getD []

/-- A single text of blanks. -/
def IsBlankText (value : Value) : Prop := ∃ text, value = .text text ∧ Text.isBlankText text = true

theorem toTexts_singleton (text : Text) :
    (Value.list [.text text]).toTexts = .ok (if Text.isBlankText text then [] else [text]) := by
  cases blank : Text.isBlankText text <;> simp [toTexts, itemWordings?, asText, blank]

theorem toTexts_eq {value : Value} {texts : List Text} (taken : value.toTexts = .ok texts)
    (unblank : ¬ value.IsBlankText) :
    texts = value.entries.filter fun text => !Text.isBlankText text := by
  cases value with
  | text value =>
      cases taken
      have filled : Text.isBlankText value = false := by
        simpa [IsBlankText] using unblank
      simp [entries, filled]
  | null | bytes _ | list _ | mapping _ | set _ | pairs _ =>
      cases taken
      rfl
  | bool _ | int _ | float _ | moment _ => cases taken

end Value

/-! ## Settings -/

/-- The settings that hold a list of texts. -/
inductive ListSetting where
  | includes
  | excludes
  | packageRoots
  | lessExtensions
deriving DecidableEq

namespace ListSetting

/-- The section in which a setting stands. -/
def group : ListSetting → Text
  | .includes | .excludes => "inline"
  | .packageRoots | .lessExtensions => "styles"

def name : ListSetting → String
  | .includes => "include"
  | .excludes => "exclude"
  | .packageRoots => "package_roots"
  | .lessExtensions => "less_extensions"

/-- What stands for a setting that is not given. -/
def default : ListSetting → Value
  | .lessExtensions => .list [.text ".less"]
  | _ => .null

/-- The value of a setting in a configuration. -/
def given (setting : ListSetting) (config : Fields) : Value :=
  (Config.sectionOf setting.group config).field setting.name setting.default

def taken (setting : ListSetting) (config : Fields) : Except Fault (List Text) := do
  (← Config.setting setting.name setting.default (Config.sectionOf setting.group config)).toTexts

def orUsual (usual texts : List Text) : List Text := if texts = [] then usual else texts

/-- Options hold what a setting contributes: the texts themselves, or the paths or extensions that
they write. No texts at all leave the usual ones, where there have to be some. -/
def Holds (options : InlineOptions) (texts : List Text) : ListSetting → Prop
  | .includes => options.includes = orUsual ["**/*.ts"] texts
  | .excludes => options.excludes = texts
  | .packageRoots => options.styles.packageRoots = texts.map Path.ofText
  | .lessExtensions =>
      options.styles.lessExtensions = orUsual [".less"] (texts.map Config.dotted)

/-- A configuration in which a setting has a value. Its section has other fields, and so has the
configuration. -/
def written (setting : ListSetting) (value : Value) (others config : Fields) : Fields :=
  Fields.set (.text setting.group)
    (.mapping (Fields.set (.text (Text.ofString setting.name)) value others)) config

end ListSetting

namespace Config

/-- The options from what is examined, in the order in which it is. -/
def assembled (taken : ListSetting → Except Fault (List Text)) (mark encoding : Except Fault Value)
    (number : Except Fault Int) : Except Fault InlineOptions := do
  let extensions ← taken .lessExtensions
  let mark ← mark
  let roots ← taken .packageRoots
  let number ← number
  let includes ← taken .includes
  let excludes ← taken .excludes
  let encoding ← encoding
  return {
    includes := if includes = [] then ["**/*.ts"] else includes
    excludes := excludes
    encodingName := (encoding.orElse (.text "utf-8")).asText
    maxConcurrency := number
    styles := {
      packageMark := (mark.orElse (.text ['~'])).asText
      packageRoots := roots.map Path.ofText
      lessExtensions := if extensions = [] then [".less"] else extensions.map dotted } }

theorem inlineOptions_mapping (config : Fields) :
    inlineOptions (.mapping config) =
      assembled (fun setting => setting.taken config)
        (setting "import_prefix" .null (sectionOf "styles" config))
        (setting "encoding" .null (sectionOf "inline" config))
        (concurrency (sectionOf "inline" config)) := by
  simp only [inlineOptions, styleOptions, fieldsOf, assembled, ListSetting.taken, bind_assoc,
    pure_bind]
  rfl

theorem holds_of_assembled {taken : ListSetting → Except Fault (List Text)}
    {mark encoding : Except Fault Value} {number : Except Fault Int} {options : InlineOptions}
    (done : assembled taken mark encoding number = .ok options) :
    (∀ setting, ∃ texts, taken setting = .ok texts ∧ setting.Holds options texts) ∧
      number = .ok options.maxConcurrency ∧ options.styles.packageMark ≠ [] ∧
      options.encodingName ≠ [] := by
  unfold assembled at done
  obtain ⟨extensions, extended, done⟩ := bind_eq_ok_iff.mp done
  obtain ⟨mark, _, done⟩ := bind_eq_ok_iff.mp done
  obtain ⟨roots, rooted, done⟩ := bind_eq_ok_iff.mp done
  obtain ⟨number, numbered, done⟩ := bind_eq_ok_iff.mp done
  obtain ⟨includes, included, done⟩ := bind_eq_ok_iff.mp done
  obtain ⟨excludes, excluded, done⟩ := bind_eq_ok_iff.mp done
  obtain ⟨encoding, _, done⟩ := bind_eq_ok_iff.mp done
  cases done
  refine ⟨fun setting => ?_, numbered, mark.asText_orElse_ne_nil rfl,
    encoding.asText_orElse_ne_nil rfl⟩
  cases setting with
  | includes => exact ⟨includes, included, rfl⟩
  | excludes => exact ⟨excludes, excluded, rfl⟩
  | packageRoots => exact ⟨roots, rooted, rfl⟩
  | lessExtensions =>
      refine ⟨extensions, extended, ?_⟩
      simp only [ListSetting.Holds, ListSetting.orUsual, List.map_eq_nil_iff]

theorem nonneg_of_concurrency {inlining : Value} {number : Int}
    (done : concurrency inlining = .ok number) : 0 ≤ number := by
  unfold concurrency at done
  obtain ⟨value, _, done⟩ := bind_eq_ok_iff.mp done
  split at done
  · cases done
  · split at done
    · cases done
    · next bound =>
        cases done
        exact Int.not_lt.mp bound

theorem head?_dotted (extension : Text) : (dotted extension).head? = some (.char '.') := by
  unfold dotted
  split <;> rfl

end Config

/-- What every run may rely on. -/
structure InlineOptions.IsWellFormed (options : InlineOptions) : Prop where
  includes : options.includes ≠ []
  encodingName : options.encodingName ≠ []
  maxConcurrency : 0 ≤ options.maxConcurrency
  packageMark : options.styles.packageMark ≠ []
  lessExtensions : options.styles.lessExtensions ≠ []
  dotted : ∀ extension ∈ options.styles.lessExtensions, extension.head? = some (.char '.')

namespace ListSetting

variable {setting : ListSetting} {options : InlineOptions} {texts : List Text} {config : Fields}

theorem orUsual_ne_nil {usual : List Text} (filled : usual ≠ []) (texts : List Text) :
    orUsual usual texts ≠ [] := by
  unfold orUsual
  split
  · exact filled
  · assumption

/-- What a setting contributes, where the options can be made. -/
theorem exists_of_inlineOptions (setting : ListSetting)
    (done : Config.inlineOptions (.mapping config) = .ok options) :
    ∃ texts, (setting.given config).toTexts = .ok texts ∧ setting.Holds options texts := by
  rw [Config.inlineOptions_mapping] at done
  obtain ⟨texts, taken, holds⟩ := (Config.holds_of_assembled done).1 setting
  refine ⟨texts, ?_, holds⟩
  obtain ⟨value, found, listed⟩ := bind_eq_ok_iff.mp taken
  rw [Config.setting_eq] at found
  split at found
  · cases found
    exact listed
  · cases found

theorem isWellFormed_of_inlineOptions
    (done : Config.inlineOptions (.mapping config) = .ok options) : options.IsWellFormed := by
  obtain ⟨patterns, -, included⟩ := exists_of_inlineOptions .includes done
  obtain ⟨extensions, -, extended⟩ := exists_of_inlineOptions .lessExtensions done
  rw [Config.inlineOptions_mapping] at done
  obtain ⟨-, numbered, marked, encoded⟩ := Config.holds_of_assembled done
  simp only [Holds] at included extended
  constructor
  case includes => exact included ▸ orUsual_ne_nil (List.cons_ne_nil _ _) patterns
  case encodingName => exact encoded
  case maxConcurrency => exact Config.nonneg_of_concurrency numbered
  case packageMark => exact marked
  case lessExtensions => exact extended ▸ orUsual_ne_nil (List.cons_ne_nil _ _) _
  case dotted =>
    rw [extended]
    unfold orUsual
    split
    · exact List.forall_mem_singleton.mpr rfl
    · exact List.forall_mem_map.mpr fun extension _ => Config.head?_dotted extension

/-- A blank text that is taken is not the same as no text. -/
theorem Holds.not_nil {text : Text} (blank : Text.isBlankText text = true)
    (holds : setting.Holds options [text]) : ¬ setting.Holds options [] := by
  intro empty
  cases setting with
  | includes =>
      obtain rfl := List.singleton_inj.mp (holds.symm.trans empty)
      revert blank
      decide
  | excludes => cases holds.symm.trans empty
  | packageRoots => cases holds.symm.trans empty
  | lessExtensions =>
      have same : Config.dotted text = ".less" := List.singleton_inj.mp (holds.symm.trans empty)
      unfold Config.dotted at same
      split at same
      · rw [same] at blank
        revert blank
        decide
      · obtain rfl := (List.cons.inj same).2
        revert blank
        decide

/-! ## Configurations with a setting -/

theorem ofString_injective : Function.Injective Text.ofString := by
  intro first second same
  exact String.toList_injective (List.map_injective_iff.mpr (fun _ _ => CodePoint.char.inj) same)

theorem normal_text_ne {first second : Text} (apart : first ≠ second) :
    (Key.text first).normal ≠ (Key.text second).normal :=
  fun same => apart (Key.text.inj same)

theorem sectionOf_written_of_ne {group : Text} (apart : group ≠ setting.group) (value : Value)
    (others config : Fields) :
    Config.sectionOf group (setting.written value others config) =
      Config.sectionOf group config := by
  unfold Config.sectionOf written
  rw [Fields.get?_set_of_ne (normal_text_ne apart.symm)]

theorem sectionOf_written (setting : ListSetting) (value : Value) (others config : Fields) :
    Config.sectionOf setting.group (setting.written value others config) =
      .mapping (Fields.set (.text (Text.ofString setting.name)) value others) := by
  unfold Config.sectionOf written
  rw [Fields.get?_set_of_same rfl, Option.getD_some, Value.orElse]
  split
  · next void => rw [List.isEmpty_iff.mp void]
  · rfl

theorem given_written (setting : ListSetting) (value : Value) (others config : Fields) :
    setting.given (setting.written value others config) = value := by
  unfold given
  rw [sectionOf_written, Value.field, Fields.get?_set_of_same rfl, Option.getD_some]

/-- All other settings are the same, whichever value one setting has. -/
theorem setting_written_of_ne {group : Text} {name : String}
    (apart : group ≠ setting.group ∨ name ≠ setting.name) (default value value' : Value)
    (others config : Fields) :
    Config.setting name default
        (Config.sectionOf group (setting.written value others config)) =
      Config.setting name default
        (Config.sectionOf group (setting.written value' others config)) := by
  by_cases here : group = setting.group
  · have named : Text.ofString setting.name ≠ Text.ofString name :=
      fun same => apart.elim (· here) fun other => other (ofString_injective same).symm
    rw [here, sectionOf_written, sectionOf_written, Config.setting_eq, Config.setting_eq,
      Value.field, Value.field, Fields.get?_set_of_ne (normal_text_ne named),
      Fields.get?_set_of_ne (normal_text_ne named)]
    rfl
  · rw [sectionOf_written_of_ne here, sectionOf_written_of_ne here]

theorem group_or_name_ne {other : ListSetting} (apart : other ≠ setting) :
    other.group ≠ setting.group ∨ other.name ≠ setting.name := by
  revert apart
  cases other <;> cases setting <;> decide

theorem taken_written (setting : ListSetting) (value : Value) (others config : Fields) :
    setting.taken (setting.written value others config) = value.toTexts := by
  have given := given_written setting value others config
  unfold ListSetting.given at given
  unfold taken
  rw [Config.setting_eq, given, sectionOf_written]
  rfl

/-- Values of which the same texts are taken make the same options. -/
theorem inlineOptions_written_congr {value value' : Value} (same : value.toTexts = value'.toTexts)
    (others config : Fields) :
    Config.inlineOptions (.mapping (setting.written value others config)) =
      Config.inlineOptions (.mapping (setting.written value' others config)) := by
  have taken : (fun other : ListSetting => other.taken (setting.written value others config)) =
      fun other => other.taken (setting.written value' others config) := by
    funext other
    by_cases here : other = setting
    · rw [here, taken_written, taken_written, same]
    · unfold ListSetting.taken
      rw [setting_written_of_ne (group_or_name_ne here)]
  have apart (name : String) (unlisted : ∀ other : ListSetting, name ≠ other.name) (group : Text)
      (default : Value) :
      Config.setting name default
          (Config.sectionOf group (setting.written value others config)) =
        Config.setting name default
          (Config.sectionOf group (setting.written value' others config)) :=
    setting_written_of_ne (.inr (unlisted setting)) default value value' others config
  have number : Config.concurrency
        (Config.sectionOf "inline" (setting.written value others config)) =
      Config.concurrency (Config.sectionOf "inline" (setting.written value' others config)) := by
    unfold Config.concurrency
    rw [apart "max_concurrency" (by intro other; cases other <;> decide)]
  rw [Config.inlineOptions_mapping, Config.inlineOptions_mapping, taken, number,
    apart "import_prefix" (by intro other; cases other <;> decide),
    apart "encoding" (by intro other; cases other <;> decide)]

end ListSetting

namespace Config

/-- Options that are made are well formed, and blank entries contribute nothing to them unless the
whole setting is a single blank text. A single text that is not blank may be written as a list;
a blank one never makes the same options as the list. -/
theorem inlineOptions_wellFormed (config : Value) (setting : ListSetting) :
    (∀ options, inlineOptions config = .ok options →
      options.IsWellFormed ∧ ∃ fields, config = .mapping fields ∧
        (¬ (setting.given fields).IsBlankText →
          setting.Holds options
            ((setting.given fields).entries.filter fun text => !Text.isBlankText text)) ∧
        ∀ text, setting.given fields = .text text → setting.Holds options [text]) ∧
    ∀ (text : Text) (others fields : Fields),
      (Text.isBlankText text = false →
        inlineOptions (.mapping (setting.written (.text text) others fields)) =
          inlineOptions (.mapping (setting.written (.list [.text text]) others fields))) ∧
      (Text.isBlankText text = true → ∀ options,
        inlineOptions (.mapping (setting.written (.text text) others fields)) = .ok options →
        inlineOptions (.mapping (setting.written (.list [.text text]) others fields)) ≠
          .ok options) := by
  refine ⟨fun options done => ?_, fun text others fields => ⟨?_, ?_⟩⟩
  · obtain ⟨fields, opened, -⟩ := bind_eq_ok_iff.mp done
    cases config with
    | mapping fields =>
        refine ⟨ListSetting.isWellFormed_of_inlineOptions done, fields, rfl, ?_⟩
        obtain ⟨texts, taken, holds⟩ := ListSetting.exists_of_inlineOptions setting done
        constructor
        · intro unblank
          exact Value.toTexts_eq taken unblank ▸ holds
        · intro text given
          rw [given] at taken
          cases taken
          exact holds
    | _ => cases opened
  · intro filled
    refine ListSetting.inlineOptions_written_congr ?_ others fields
    rw [Value.toTexts_singleton, filled]
    rfl
  · intro blank options single several
    obtain ⟨texts, taken, holds⟩ := ListSetting.exists_of_inlineOptions setting single
    obtain ⟨texts', taken', holds'⟩ := ListSetting.exists_of_inlineOptions setting several
    rw [ListSetting.given_written] at taken taken'
    rw [Value.toTexts_singleton, blank] at taken'
    cases taken
    cases taken'
    exact holds.not_nil blank holds'

theorem inlineOptions_of_blankEntry :
    let config : Fields := [(.text "inline", .mapping
      [(.text "include", .list [.text "src/*.ts", .text " "]), (.text "exclude", .text "lib/*")])]
    let options : InlineOptions := { includes := ["src/*.ts"], excludes := ["lib/*"] }
    inlineOptions (.mapping config) = .ok options ∧ options.IsWellFormed ∧
      ListSetting.includes.Holds options ["src/*.ts"] := by
  intro config options
  have done : inlineOptions (.mapping config) = .ok options := rfl
  obtain ⟨wellFormed, fields, same, contributed, -⟩ :=
    (inlineOptions_wellFormed (.mapping config) .includes).1 _ done
  cases same
  exact ⟨done, wellFormed, contributed nofun⟩

/-- A pattern that is blank survives if it is the whole setting. -/
theorem blank_exclude_survives :
    inlineOptions (.mapping [(.text "inline", .mapping [(.text "exclude", .text " ")])]) =
      .ok { excludes := [" "] } := rfl

end Config

end Inlay
