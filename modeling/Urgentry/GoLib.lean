import Urgentry.Clock
import Urgentry.Internal.GoText

/-!
# The parts of the Go library that stay abstract

Functions of the Go standard library whose behaviour is a table or a grammar of its own: the lower
case of a code point, case folding, and which texts are numbers or timestamps. The code only passes
texts through them, and nothing below depends on what they answer, so they are a parameter without
assumptions. What is proved about the code holds for Go's functions in particular.
-/

namespace Urgentry

/-- The library functions that the development does not define. -/
structure GoLib where
  /-- `unicode.ToLower`. -/
  toLower : Char → Char
  /-- `strings.EqualFold`. -/
  equalFold : String → String → Bool
  /-- `strconv.ParseFloat(s, 64)` returns no error. -/
  isFloat : String → Bool
  /-- `time.Parse(time.RFC3339, s)`. -/
  parseRFC3339 : String → Option Time

namespace GoLib

variable (lib : GoLib)

/-- `strings.ToLower`. -/
def lower (s : String) : String := String.ofList (s.toList.map lib.toLower)

/-- `strings.ToLower(strings.TrimSpace(s))`. -/
def canonical (s : String) : String := lib.lower (GoText.trimSpace s)

end GoLib

/-- The library on ASCII texts, for runs of the code in which no number and no timestamp is read. -/
def asciiLib : GoLib where
  toLower := Char.toLower
  equalFold a b := a.toList.map Char.toLower = b.toList.map Char.toLower
  isFloat _ := false
  parseRFC3339 _ := none

end Urgentry
