import Inlay.Command.Run
import Inlay.Proofs.Config.Settings

/-!
# Shapes of settings

Whether the command reports a fault in the settings is decided by the shapes of their values, in
the order in which they are examined. A section that is no mapping, texts that cannot be listed
and a number of a kind that no integer is read from are not reported
(`Config.escapesIff_inlineOptions`).
-/

set_option autoImplicit false

namespace Inlay

/-! ## Shapes of values -/

namespace Value

/-- Whether a value is of a kind that integers are read from. A text is one even if it holds no
numeral, and so are bytes, and a number that is undefined is one, but no infinite number. -/
def isConvertible : Value → Bool
  | .bool _ | .int _ | .text _ | .bytes _ => true
  | .float value => value.isUndefined || value.isFinite
  | _ => false

end Value

namespace Config

def StylesMisshapen (styles : Value) : Prop :=
  styles.isMapping = false ∨
    (styles.field "less_extensions" (.list [.text ".less"])).isListable = false ∨
    (styles.field "package_roots" .null).isListable = false

def ConcurrencyMisshapen (inlining : Value) : Prop :=
  inlining.isMapping = false ∨
    ((inlining.field "max_concurrency" (.int 16)).orElse (.int 0)).isConvertible = false

def PatternsMisshapen (inlining : Value) : Prop :=
  (inlining.field "include" .null).isListable = false ∨
    (inlining.field "exclude" .null).isListable = false

/-- A setting for inlining has a shape that it cannot have, and none that is examined before is
reported. The patterns are examined last. -/
def Misshapen (fields : Fields) : Prop :=
  StylesMisshapen (sectionOf "styles" fields) ∨
    ConcurrencyMisshapen (sectionOf "inline" fields) ∨
    (∃ number, concurrency (sectionOf "inline" fields) = .ok number) ∧
      PatternsMisshapen (sectionOf "inline" fields)

end Config

/-! ## Faults that are reported -/

namespace Command

/-- An outcome ends with a fault that the command does not report if something holds, and
otherwise with a fault that it reports or with a value. -/
inductive EscapesIff {α : Type} (escapes : Prop) (value : α → Prop) : Except Fault α → Prop where
  | escaped {fault : Fault} : escapes → isReported fault = false →
      EscapesIff escapes value (.error fault)
  | reported {fault : Fault} : ¬ escapes → isReported fault = true →
      EscapesIff escapes value (.error fault)
  | returned {result : α} : ¬ escapes → value result → EscapesIff escapes value (.ok result)

namespace EscapesIff

variable {α β : Type} {escapes later : Prop} {value : α → Prop} {last : β → Prop}
  {outcome : Except Fault α}

theorem congr (same : escapes ↔ later) (ends : EscapesIff escapes value outcome) :
    EscapesIff later value outcome := by
  rwa [← propext same]

/-- A fault ends a run at any later step as it ended the step that met it. -/
theorem of_error {fault : Fault} (ends : EscapesIff escapes value (.error fault)) :
    EscapesIff escapes last (.error fault) := by
  cases ends with
  | escaped here unreported => exact .escaped here unreported
  | reported shaped expected => exact .reported shaped expected

theorem of_ok {result : α} {returned : β} (ends : EscapesIff escapes value (.ok result))
    (valued : last returned) : EscapesIff escapes last (.ok returned) := by
  cases ends with
  | returned shaped _ => exact .returned shaped valued

theorem map {f : α → β} (ends : EscapesIff escapes value outcome)
    (mapped : ∀ result, value result → last (f result)) :
    EscapesIff escapes last (outcome.map f) := by
  cases outcome with
  | error fault => exact ends.of_error
  | ok result =>
      cases ends with
      | returned shaped valued => exact .returned shaped (mapped _ valued)

theorem imp {other : α → Prop} (ends : EscapesIff escapes value outcome)
    (weaker : ∀ result, value result → other result) : EscapesIff escapes other outcome := by
  have mapped : EscapesIff escapes other (outcome.map id) := ends.map weaker
  rwa [Except.map_id] at mapped

/-- Of two steps the second one decides only where the first one returns. -/
theorem andThen {next : α → Except Fault β} (first : EscapesIff escapes value outcome)
    (second : ∀ result, outcome = .ok result → value result →
      EscapesIff later last (next result)) :
    EscapesIff (escapes ∨ (∃ result, outcome = .ok result) ∧ later) last (outcome >>= next) := by
  cases first with
  | escaped here unreported => exact .escaped (.inl here) unreported
  | reported shaped expected =>
      refine .reported ?_ expected
      rintro (here | ⟨⟨result, returned⟩, -⟩)
      · exact shaped here
      · cases returned
  | @returned result shaped valued =>
      refine (second result rfl valued).congr ⟨fun here => .inr ⟨⟨result, rfl⟩, here⟩, ?_⟩
      rintro (here | ⟨-, here⟩)
      · exact absurd here shaped
      · exact here

end EscapesIff

end Command

/-! ## Settings -/

namespace Config

open Command

theorem numeral_cases (read : Except NumeralFault Int) :
    (∃ cause, read.mapError ConfigCause.numeral = .error cause ∧
        isReported (.config cause) = true) ∨
      ∃ number, read.mapError ConfigCause.numeral = .ok number := by
  cases read with
  | error fault => exact .inl ⟨_, rfl, rfl⟩
  | ok number => exact .inr ⟨number, rfl⟩

theorem toInteger_cases (value : Value) :
    (value.isConvertible = false ∧
        ∃ cause, value.toInteger = .error cause ∧ isReported (.config cause) = false) ∨
      (value.isConvertible = true ∧
        ((∃ cause, value.toInteger = .error cause ∧ isReported (.config cause) = true) ∨
          ∃ number, value.toInteger = .ok number)) := by
  cases value with
  | null | list _ | mapping _ | moment _ | set _ | pairs _ => exact .inl ⟨rfl, _, rfl, rfl⟩
  | bool _ | int _ => exact .inr ⟨rfl, .inr ⟨_, rfl⟩⟩
  | text value => exact .inr ⟨rfl, numeral_cases (integerOfText value)⟩
  | bytes value => exact .inr ⟨rfl, numeral_cases (integerOfBytes value)⟩
  | float number =>
      simp only [Value.toInteger, Value.isConvertible]
      cases number.isUndefined with
      | true => exact .inr ⟨rfl, .inl ⟨_, rfl, rfl⟩⟩
      | false =>
          cases number.isFinite with
          | true => exact .inr ⟨rfl, .inr ⟨_, rfl⟩⟩
          | false => exact .inl ⟨rfl, _, rfl, rfl⟩

theorem styleOptions_cases (styles : Value) :
    (StylesMisshapen styles ∧
        ∃ fault, styleOptions styles = .error fault ∧ isReported fault = false) ∨
      (¬ StylesMisshapen styles ∧ ∃ options, styleOptions styles = .ok options) := by
  unfold styleOptions
  simp only [setting_eq]
  cases shape : styles.isMapping with
  | false => exact .inl ⟨.inl shape, _, rfl, rfl⟩
  | true =>
      simp only [if_true, bind, Except.bind]
      rcases toTexts_cases (styles.field "less_extensions" (.list [.text ".less"])) with
        ⟨listable, extensions, first⟩ | ⟨unlistable, first⟩
      · rcases toTexts_cases (styles.field "package_roots" .null) with
          ⟨rootsListable, roots, second⟩ | ⟨unlistable, second⟩
        · refine .inr ⟨by simp [StylesMisshapen, shape, listable, rootsListable], ?_⟩
          simp only [first, second]
          exact ⟨_, rfl⟩
        · simp only [first, second]
          exact .inl ⟨.inr (.inr unlistable), _, rfl, rfl⟩
      · simp only [first]
        exact .inl ⟨.inr (.inl unlistable), _, rfl, rfl⟩

theorem escapesIff_concurrency (inlining : Value) :
    EscapesIff (ConcurrencyMisshapen inlining) (0 ≤ ·) (concurrency inlining) := by
  unfold concurrency
  rw [setting_eq]
  cases shape : inlining.isMapping with
  | false => exact .escaped (.inl shape) rfl
  | true =>
      simp only [if_true, bind, Except.bind]
      rcases toInteger_cases ((inlining.field "max_concurrency" (.int 16)).orElse (.int 0)) with
        ⟨unconvertible, cause, failed, unreported⟩ |
        ⟨convertible, ⟨cause, failed, reported⟩ | ⟨number, done⟩⟩
      · rw [failed]
        exact .escaped (.inr unconvertible) unreported
      · rw [failed]
        exact .reported (by simp [ConcurrencyMisshapen, shape, convertible]) reported
      · have shaped : ¬ ConcurrencyMisshapen inlining := by
          simp [ConcurrencyMisshapen, shape, convertible]
        rw [done]
        dsimp only
        split
        · exact .reported shaped rfl
        · next bound => exact .returned shaped (Int.not_lt.mp bound)

theorem isMapping_of_concurrency {inlining : Value} {number : Int}
    (done : concurrency inlining = .ok number) : inlining.isMapping = true := by
  unfold concurrency at done
  rw [setting_eq] at done
  cases shape : inlining.isMapping with
  | true => rfl
  | false =>
      rw [shape] at done
      cases done

theorem escapesIff_patterns {inlining : Value} (shape : inlining.isMapping = true)
    (concurrent : Int) (styles : StyleOptions) :
    EscapesIff (PatternsMisshapen inlining)
      (fun options : InlineOptions => options.maxConcurrency = concurrent)
      (do
        let includes ← (← setting "include" .null inlining).toTexts
        let excludes ← (← setting "exclude" .null inlining).toTexts
        let encoding ← setting "encoding" .null inlining
        return {
          includes := if includes = [] then ["**/*.ts"] else includes
          excludes := excludes
          encodingName := (encoding.orElse (.text "utf-8")).asText
          maxConcurrency := concurrent
          styles := styles }) := by
  simp only [setting_eq, shape, if_true, bind, Except.bind]
  rcases toTexts_cases (inlining.field "include" .null) with
    ⟨listable, includes, first⟩ | ⟨unlistable, first⟩
  · rcases toTexts_cases (inlining.field "exclude" .null) with
      ⟨excludesListable, excludes, second⟩ | ⟨unlistable, second⟩
    · simp only [first, second]
      exact .returned (by simp [PatternsMisshapen, listable, excludesListable]) rfl
    · simp only [first, second]
      exact .escaped (.inr unlistable) rfl
  · simp only [first]
    exact .escaped (.inl unlistable) rfl

theorem escapesIff_inlineOptions (fields : Fields) :
    EscapesIff (Misshapen fields) (fun options : InlineOptions => 0 ≤ options.maxConcurrency)
      (inlineOptions (.mapping fields)) := by
  unfold inlineOptions
  simp only [fieldsOf, bind, Except.bind]
  rcases styleOptions_cases (sectionOf "styles" fields) with
    ⟨here, fault, failed, unreported⟩ | ⟨shaped, styles, styled⟩
  · rw [failed]
    exact .escaped (.inl here) unreported
  · rw [styled]
    -- The patterns are examined only where the number of files at a time was accepted.
    have ends := (escapesIff_concurrency (sectionOf "inline" fields)).andThen
      fun number done bound =>
        (escapesIff_patterns (isMapping_of_concurrency done) number styles).imp
          fun options same => same ▸ bound
    exact ends.congr ⟨.inr, fun here => here.resolve_left shaped⟩

end Config

end Inlay
