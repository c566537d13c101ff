import VisualRules.Json.Basic

/-!
# JSON numbers

An optional minus sign, digits without a leading zero, then a fraction and an exponent that may be
missing. Each reader takes as much as it can and returns what it took and what it left.
-/

namespace VisualRules.Json

/-- Takes digits, of which there has to be one. -/
def readDigits (cs : List Char) : Option (List Char × List Char) :=
  if cs.takeWhile Char.isDigit = [] then none
  else some (cs.takeWhile Char.isDigit, cs.dropWhile Char.isDigit)

/-- Takes the digits before a fraction. -/
def readWhole (cs : List Char) : Option (List Char × List Char) := do
  let (digits, rest) ← readDigits cs
  if digits.head? = some '0' ∧ digits ≠ ['0'] then none else return (digits, rest)

def readSign : List Char → List Char × List Char
  | '-' :: rest => (['-'], rest)
  | cs => ([], cs)

def readFraction : List Char → Option (List Char × List Char)
  | '.' :: rest => do
    let (digits, rest) ← readDigits rest
    return ('.' :: digits, rest)
  | cs => some ([], cs)

def readExponentSign : List Char → List Char × List Char
  | '+' :: rest => (['+'], rest)
  | cs => readSign cs

def readExponent : List Char → Option (List Char × List Char)
  | [] => some ([], [])
  | c :: rest =>
    if c = 'e' ∨ c = 'E' then do
      let (sign, rest) := readExponentSign rest
      let (digits, rest) ← readDigits rest
      return (c :: sign ++ digits, rest)
    else some ([], c :: rest)

/-- The number of these parts. -/
def ofNumeral (sign whole tail : List Char) : Json :=
  let magnitude := Nat.ofDigitChars 10 whole 0
  if tail ≠ [] then .decimal (String.ofList (sign ++ whole ++ tail))
  else if sign = [] then .int magnitude
  else if magnitude = 0 then .decimal (String.ofList (sign ++ whole))
  else .int (-magnitude)

def readNumber (cs : List Char) : Option (Json × List Char) := do
  let (sign, rest) := readSign cs
  let (whole, rest) ← readWhole rest
  let (fraction, rest) ← readFraction rest
  let (exponent, rest) ← readExponent rest
  return (ofNumeral sign whole (fraction ++ exponent), rest)

end VisualRules.Json
