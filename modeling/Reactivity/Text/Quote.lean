import Reactivity.Text.Classes

/-!
# Quoted text

Two ways of writing a string between double quotes. `showQuoted` is the quoting of
diagnostic texts: the usual backslash escapes, and `\u{…}` for every character that is not
shown as itself or that extends the grapheme before it. `jsonQuoted` is the quoting of JSON
documents: a quote, a backslash and the control characters below the space are escaped,
everything else is written as itself.
-/

namespace Reactivity.Text

/-- Lower-case hexadecimal digits of `n`. -/
def hexDigits (n : Nat) : List Char := Nat.toDigits 16 n

/-- One character of a diagnostic string. -/
def showChar (c : Char) : List Char :=
  if c = '\x00' then ['\\', '0']
  else if c = '\t' then ['\\', 't']
  else if c = '\r' then ['\\', 'r']
  else if c = '\n' then ['\\', 'n']
  else if c = '\\' then ['\\', '\\']
  else if c = '"' then ['\\', '"']
  else if isExtending c || !isShown c then ['\\', 'u', '\x7b'] ++ hexDigits c.toNat ++ ['\x7d']
  else [c]

/-- A string between double quotes as diagnostics write it. -/
def showQuoted (s : String) : String :=
  String.ofList ('"' :: (s.toList.flatMap showChar ++ ['"']))

/-- One character of a JSON string. -/
def jsonChar (c : Char) : List Char :=
  if c = '"' then ['\\', '"']
  else if c = '\\' then ['\\', '\\']
  else if c = '\n' then ['\\', 'n']
  else if c = '\r' then ['\\', 'r']
  else if c = '\t' then ['\\', 't']
  else if c = '\x08' then ['\\', 'b']
  else if c = '\x0c' then ['\\', 'f']
  else if c.toNat < 0x20 then
    let h := hexDigits c.toNat
    ['\\', 'u'] ++ List.replicate (4 - h.length) '0' ++ h
  else [c]

/-- A string between double quotes as JSON writes it. -/
def jsonQuoted (s : String) : String :=
  String.ofList ('"' :: (s.toList.flatMap jsonChar ++ ['"']))

example : jsonQuoted "a\"b\x01" = "\"a\\\"b\\u0001\"" := by decide

end Reactivity.Text
