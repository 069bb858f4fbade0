import Inlay.Text.Basic

/-!
# Literal bodies

A template or stylesheet is embedded in a double-quoted literal on one line. Its body has
every line break, with the blanks behind it, replaced by one space, and a backslash before
each double quote that is not already escaped.
-/

set_option autoImplicit false

namespace Inlay

/-- Replaces each line break and the blanks behind it by one space. The flag tells whether
the text continues a run of blanks that a line break began. -/
def collapseFrom : Bool → Text → Text
  | _, [] => []
  | inBreak, c :: text =>
      if isLineBreak c then
        if inBreak then collapseFrom true text else ' ' :: collapseFrom true text
      else if inBreak && isBlank c then collapseFrom true text
      else c :: collapseFrom false text

/-- The text on one line: each line break and the blanks behind it become one space. -/
def collapseBreaks (text : Text) : Text := collapseFrom false text

/-- Escapes the double quotes of a text that follows a run of backslashes; the flag tells
whether the run is odd, so that it escapes the next character. -/
def escapeFrom : Bool → Text → Text
  | _, [] => []
  | escaped, c :: text =>
      if c = '\\' then c :: escapeFrom (!escaped) text
      else if c = '"' && !escaped then '\\' :: c :: escapeFrom false text
      else c :: escapeFrom false text

/-- Puts a backslash before each double quote that an even run of backslashes precedes. -/
def escapeQuotes (text : Text) : Text := escapeFrom false text

def literalBody (text : Text) : Text := escapeQuotes (collapseBreaks text)

end Inlay
