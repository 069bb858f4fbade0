import Inlay.Fault

/-!
# Integers of a configuration

The integer that a value stands for: a number without its fraction, a truth value as zero or
one, or the numeral in a text or in bytes.
-/

set_option autoImplicit false

namespace Inlay

def Value.toInteger : Value → Except ConfigCause Int
  | .int value => .ok value
  | .bool value => .ok (if value then 1 else 0)
  | .float value =>
      if value.isUndefined then .error .undefinedInteger
      else if !value.isFinite then .error .infiniteInteger
      else .ok value.truncate
  | .text value => (integerOfText value).mapError .numeral
  | .bytes value => (integerOfBytes value).mapError .numeral
  | value => .error (.notNumeric value.kind)

end Inlay
