/-!
# JSON strings

A string is written between quotes, with escapes for quotes, backslashes and control characters.
In the other direction an escape can name any 16-bit unit. Two surrogates in the right order stand
for one character; a surrogate alone leaves the string without a text, although it is well formed.
-/

namespace VisualRules.Json

def hexDigits (unit : Nat) : List Char :=
  [unit / 4096 % 16, unit / 256 % 16, unit / 16 % 16, unit % 16].map Nat.digitChar

/-- The letter of a short escape and the character that it stands for. -/
def shortEscapes : List (Char × Char) :=
  [('"', '"'), ('\\', '\\'), ('b', '\x08'), ('t', '\t'), ('n', '\n'), ('f', '\x0c'), ('r', '\r')]

/-- A character inside a written string. Only quotes, backslashes and control characters are
escaped, by a short escape where there is one. -/
def escape (c : Char) : List Char :=
  match shortEscapes.find? (·.2 = c) with
  | some (letter, _) => ['\\', letter]
  | none => if c.toNat < 0x20 then '\\' :: 'u' :: hexDigits c.toNat else [c]

/-- A written string. What has no text is written as a surrogate alone. -/
def quote : Option String → List Char
  | some text => '"' :: text.toList.flatMap escape ++ ['"']
  | none => ['"', '\\', 'u', 'd', '8', '0', '0', '"']

def hexValue? (c : Char) : Option Nat :=
  if '0' ≤ c ∧ c ≤ '9' then some (c.toNat - '0'.toNat)
  else if 'a' ≤ c ∧ c ≤ 'f' then some (c.toNat - 'a'.toNat + 10)
  else if 'A' ≤ c ∧ c ≤ 'F' then some (c.toNat - 'A'.toNat + 10)
  else none

def hexUnit? (a b c d : Char) : Option Nat := do
  return (((← hexValue? a) * 16 + (← hexValue? b)) * 16 + (← hexValue? c)) * 16 + (← hexValue? d)

/-- The character of a short escape. A slash can be escaped too, though it need not be. -/
def unescape? (letter : Char) : Option Char :=
  if letter = '/' then some '/' else shortEscapes.lookup letter

def isHighSurrogate (unit : Nat) : Bool := 0xD800 ≤ unit && unit < 0xDC00

def isLowSurrogate (unit : Nat) : Bool := 0xDC00 ≤ unit && unit < 0xE000

/-- The character that two surrogates stand for. -/
def joinSurrogates (high low : Nat) : Char :=
  Char.ofNat (0x10000 + (high - 0xD800) * 0x400 + (low - 0xDC00))

/-- The text of units and code points. The characters found so far come last first. -/
def decodeUnits (found : List Char) : List Nat → Option String
  | [] => some (String.ofList found.reverse)
  | unit :: rest =>
    if isLowSurrogate unit then none
    else if isHighSurrogate unit then
      match rest with
      | [] => none
      | low :: rest =>
        if isLowSurrogate low then decodeUnits (joinSurrogates unit low :: found) rest else none
    else decodeUnits (Char.ofNat unit :: found) rest

/-- Reads up to the closing quote: what was read, last first, and what follows the quote. -/
def readUnits (units : List Nat) : List Char → Option (List Nat × List Char)
  | [] => none
  | '"' :: rest => some (units, rest)
  | '\\' :: 'u' :: a :: b :: c :: d :: rest =>
    match hexUnit? a b c d with
    | some unit => readUnits (unit :: units) rest
    | none => none
  | '\\' :: letter :: rest =>
    match unescape? letter with
    | some c => readUnits (c.toNat :: units) rest
    | none => none
  | c :: rest => if c.toNat < 0x20 then none else readUnits (c.toNat :: units) rest

/-- Reads a string after its opening quote: its text, and what follows it. -/
def readText (cs : List Char) : Option (Option String × List Char) :=
  match readUnits [] cs with
  | some (units, rest) => some (decodeUnits [] units.reverse, rest)
  | none => none

end VisualRules.Json
