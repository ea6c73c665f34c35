import Reactivity.Json.Basic

/-!
# Reading JSON text

A reader over the bytes of a text, and the rules of a strict JSON grammar on top of it. The
grammar's own symbols are all ASCII, so each step looks at one byte: a byte of a longer
character matches no rule and is refused where it stands. An error names what was expected
and where: the line, and the column as a count of bytes on that line. An error about
something already read is placed just after it; an error about the next byte is placed one
byte past it.

Numbers are classed as in `JsonNumber`. A number with a fraction or an exponent, or one too
long for 64 bits, is read by taking its leading digits (as many as fit in 64 bits) as a
double and scaling that by a double power of ten, one rounding at a time.

Objects are read into fields sorted by key; a repeated key keeps its last value. Nesting is
limited to 127 levels. A value that is only skipped is checked by a looser grammar with no
limit on nesting: its numbers may be out of range and its escapes may name lone surrogates.
-/

namespace Reactivity.Json

/-- What went wrong while reading a JSON text. -/
inductive ReadFault where
  | eofInList
  | eofInObject
  | eofInString
  | eofInValue
  | expectedColon
  | expectedListCommaOrEnd
  | expectedObjectCommaOrEnd
  | expectedIdent
  | expectedValue
  | invalidEscape
  | invalidNumber
  | numberOutOfRange
  | controlInString
  | keyMustBeString
  | loneSurrogate
  | trailingComma
  | trailingCharacters
  | unexpectedEndOfHexEscape
  | recursionLimit
  /-- a value of the wrong shape for what a typed reading wanted -/
  | mismatch (text : String)

/-- The text of a fault. -/
def ReadFault.message : ReadFault → String
  | .eofInList => "EOF while parsing a list"
  | .eofInObject => "EOF while parsing an object"
  | .eofInString => "EOF while parsing a string"
  | .eofInValue => "EOF while parsing a value"
  | .expectedColon => "expected `:`"
  | .expectedListCommaOrEnd => "expected `,` or `]`"
  | .expectedObjectCommaOrEnd => "expected `,` or `\x7d`"
  | .expectedIdent => "expected ident"
  | .expectedValue => "expected value"
  | .invalidEscape => "invalid escape"
  | .invalidNumber => "invalid number"
  | .numberOutOfRange => "number out of range"
  | .controlInString => "control character (\\u0000-\\u001F) found while parsing a string"
  | .keyMustBeString => "key must be a string"
  | .loneSurrogate => "lone leading surrogate in hex escape"
  | .trailingComma => "trailing comma"
  | .trailingCharacters => "trailing characters"
  | .unexpectedEndOfHexEscape => "unexpected end of hex escape"
  | .recursionLimit => "recursion limit exceeded"
  | .mismatch text => text

/-- A fault and where it was found. -/
structure ReadError where
  fault : ReadFault
  line : Nat
  column : Nat

/-- The text of an error: the fault, then its line and column. -/
def ReadError.message (e : ReadError) : String :=
  e.fault.message ++ " at line " ++ toString e.line ++ " column " ++ toString e.column

/-- The line and column of byte offset `i`: lines count from one, columns count the bytes
between the start of the line and `i`. -/
def lineColumn (src : ByteArray) (i : Nat) : Nat × Nat :=
  let before := (src.data.toList.take i)
  let lineStart := (before.zipIdx.filter (·.1 = 10)).foldl (fun _ p => p.2 + 1) 0
  let lines := (before.take lineStart).count 10
  (lines + 1, i - lineStart)

/-- Where reading stands: the bytes left, the offset of the first of them, and how many more
levels of nesting may be opened. -/
structure Cursor where
  rest : List UInt8
  index : Nat
  depth : Nat

/-- Reading from a text whose bytes are at hand. -/
abbrev Reading := ReaderT ByteArray (StateT Cursor (Except ReadError))

namespace Reading

/-- Fails with `f` at byte offset `i`. -/
def failAt (f : ReadFault) (i : Nat) : Reading α := do
  let src ← read
  let (line, column) := lineColumn src i
  throw ⟨f, line, column⟩

/-- Fails with `f` just after what has been read. -/
def fail (f : ReadFault) : Reading α := do
  failAt f (← get).index

/-- Fails with `f` one byte into the next character. -/
def failNext (f : ReadFault) : Reading α := do
  let src ← read
  failAt f (min src.size ((← get).index + 1))

/-- The next byte as a character, not consumed: an ASCII byte is its own character, and a
byte of a longer character becomes one that no rule of the grammar names. -/
def peek : Reading (Option Char) := do
  return (← get).rest.head?.map Char.ofUInt8

/-- Consumes the next byte. -/
def eat : Reading Unit :=
  modify fun c => match c.rest with
    | [] => c
    | _ :: rest => { c with rest := rest, index := c.index + 1 }

/-- Consumes the next byte and returns it as `peek` does. -/
def next : Reading (Option Char) := do
  let c ← peek
  eat
  return c

/-- Whether a byte is a blank: space, tab, line feed or carriage return. -/
def isBlank (b : UInt8) : Bool :=
  b = 32 || b = 9 || b = 10 || b = 13

/-- Whether a byte is a decimal digit. -/
def isDigit (b : UInt8) : Bool :=
  48 ≤ b && b ≤ 57

/-- Skips blanks and returns the next byte as `peek` does. -/
def blank : Reading (Option Char) := do
  let c ← get
  let rest := c.rest.dropWhile isBlank
  set { c with rest := rest, index := c.index + (c.rest.length - rest.length) }
  return rest.head?.map Char.ofUInt8

/-- Consumes the letters `word`, which must follow. -/
def ident (word : List Char) : Reading Unit :=
  word.forM fun w => do
    match ← next with
    | none => fail .eofInValue
    | some c => if c = w then pure () else fail .expectedIdent

/-- Runs `body` one level of nesting deeper; fails if no level is left. -/
def nested (body : Reading α) : Reading α := do
  let c ← get
  if c.depth ≤ 1 then failNext .recursionLimit
  set { c with depth := c.depth - 1 }
  let r ← body
  modify fun c => { c with depth := c.depth + 1 }
  return r

/-- The largest natural number of 64 bits. -/
def natLimit : Nat := 18446744073709551615

/-- The powers of ten from `10^0` to `10^308` as doubles. -/
def tenPowers : Array Float := (List.range 309).toArray.map fun k => Float.ofScientific 1 false k

/-- A leading part of digits read as a double and scaled by `10^exponent`; an infinite result
is out of range. -/
def scaled (positive : Bool) (significand : Nat) (exponent : Int) : Reading Float := do
  let mut f := Float.ofNat significand
  let mut e := exponent
  for _ in [0:8] do
    match tenPowers[e.natAbs]? with
    | some p =>
      if e ≥ 0 then
        f := f * p
        if f.isInf then fail .numberOutOfRange
      else f := f / p
      break
    | none =>
      if f == 0 then break
      if e ≥ 0 then fail .numberOutOfRange
      f := f / 1e308
      e := e + 308
  return if positive then f else -f

/-- The value of a hexadecimal digit. -/
def hexValue (b : UInt8) : Option Nat :=
  if 48 ≤ b ∧ b ≤ 57 then some (b.toNat - 48)
  else if 97 ≤ b ∧ b ≤ 102 then some (b.toNat - 87)
  else if 65 ≤ b ∧ b ≤ 70 then some (b.toNat - 55)
  else none

/-- The digits at the front of a text and the rest. -/
def spanDigits (cs : List UInt8) : List UInt8 × List UInt8 :=
  (cs.takeWhile isDigit, cs.dropWhile isDigit)

/-- The value of decimal digits. -/
def digitValue (ds : List UInt8) : Nat :=
  ds.foldl (fun n d => 10 * n + (d.toNat - 48)) 0

/-- The longest prefix of digits whose value fits in 64 bits, and the digits after it. -/
def fitDigits (start : Nat) (ds : List UInt8) : Nat × List UInt8 :=
  match ds with
  | [] => (start, [])
  | d :: rest =>
    let v := 10 * start + (d.toNat - 48)
    if v > natLimit then (start, ds) else fitDigits v rest

/-- Skips the digits at the front. -/
def skipDigits : Reading Unit := do
  let c ← get
  let (ds, rest) := spanDigits c.rest
  set { c with rest := rest, index := c.index + ds.length }

/-- Reads the exponent part after `e` or `E`, adds it to `start`, and scales. An exponent
beyond 32 bits is out of range, or gives zero when it is negative or the digits are zero. -/
def exponentPart (positive : Bool) (significand : Nat) (start : Int) : Reading Float := do
  eat
  let up ← match ← peek with
    | some '+' => do eat; pure true
    | some '-' => do eat; pure false
    | _ => pure true
  match ← next with
  | none => fail .eofInValue
  | some c =>
    if !c.isDigit then fail .invalidNumber
    let cur ← get
    let (ds, rest) := spanDigits cur.rest
    let all := c.toUInt8 :: ds
    let limit : Nat := 2147483647
    set { cur with rest := rest, index := cur.index + ds.length }
    match (List.range all.length).find? (fun k => digitValue (all.take (k + 1)) > limit) with
    | some k =>
      if significand ≠ 0 && up then failAt .numberOutOfRange (cur.index + k)
      return if positive then 0 else -0.0
    | none =>
      let v : Int := digitValue all
      let e := if up then start + v else start - v
      scaled positive significand (max (-2147483648) (min 2147483647 e))

/-- Reads a fraction after `.`, then an optional exponent. -/
def fractionPart (positive : Bool) (significand : Nat) (before : Int) : Reading Float := do
  eat
  let cur ← get
  let (ds, rest) := spanDigits cur.rest
  let (sig, excess) := fitDigits significand ds
  let taken := ds.length - excess.length
  if excess ≠ [] then
    -- digits beyond 64 bits are dropped
    set { cur with rest := rest, index := cur.index + ds.length }
    match ← peek with
    | some 'e' | some 'E' => exponentPart positive sig (before - taken)
    | _ => scaled positive sig (before - taken)
  else
    set { cur with rest := rest, index := cur.index + ds.length }
    if ds = [] then
      match ← peek with
      | some _ => failNext .invalidNumber
      | none => failNext .eofInValue
    match ← peek with
    | some 'e' | some 'E' => exponentPart positive sig (before - ds.length)
    | _ => scaled positive sig (before - ds.length)

/-- Reads a number whose sign has been consumed. -/
def number (positive : Bool) : Reading JsonNumber := do
  match ← next with
  | none => fail .eofInValue
  | some '0' =>
    match ← peek with
    | some d => if d.isDigit then failNext .invalidNumber else finish 0
    | none => finish 0
  | some c =>
    if !c.isDigit then fail .invalidNumber
    let cur ← get
    let (ds, rest) := spanDigits cur.rest
    let (sig, excess) := fitDigits (c.toNat - 48) ds
    if excess ≠ [] then
      -- too long for 64 bits: the remaining digits only move the decimal point
      set { cur with rest := rest, index := cur.index + ds.length }
      let extra : Int := excess.length
      match ← peek with
      | some '.' => return .float (← fractionPart positive sig extra)
      | some 'e' | some 'E' => return .float (← exponentPart positive sig extra)
      | _ => return .float (← scaled positive sig extra)
    set { cur with rest := rest, index := cur.index + ds.length }
    finish sig
where
  finish (sig : Nat) : Reading JsonNumber := do
    match ← peek with
    | some '.' => return .float (← fractionPart positive sig 0)
    | some 'e' | some 'E' => return .float (← exponentPart positive sig 0)
    | _ =>
      if positive then return .nat sig
      else if sig = 0 then return .float (-0.0)
      else if sig ≤ 9223372036854775808 then return .neg (-(sig : Int))
      else return .float (-(Float.ofNat sig))

/-- Reads four hexadecimal digits of an escape. -/
def hexQuad : Reading Nat := do
  let src ← read
  let cur ← get
  if cur.index + 4 > src.size then
    set { cur with rest := [], index := src.size }
    fail .eofInString
  let quad := cur.rest.take 4
  match quad.mapM hexValue with
  | some [a, b, c, d] =>
    set { cur with rest := cur.rest.drop 4, index := cur.index + 4 }
    return ((a * 16 + b) * 16 + c) * 16 + d
  | _ => failAt .invalidEscape (cur.index + 4)

/-- Reads the rest of a `\u` escape, pairing surrogates. -/
def unicodeEscape : Reading Char := do
  let n ← hexQuad
  if 0xDC00 ≤ n ∧ n ≤ 0xDFFF then fail .loneSurrogate
  if n < 0xD800 ∨ n > 0xDBFF then return Char.ofNat n
  match ← peek with
  | none => fail .eofInString
  | some '\\' => eat
  | some _ => do eat; fail .unexpectedEndOfHexEscape
  match ← peek with
  | none => fail .eofInString
  | some 'u' => eat
  | some _ => do eat; fail .unexpectedEndOfHexEscape
  let n2 ← hexQuad
  if n2 < 0xDC00 ∨ n2 > 0xDFFF then fail .loneSurrogate
  return Char.ofNat ((n - 0xD800) * 1024 + (n2 - 0xDC00) + 0x10000)

/-- Reads the character after a backslash. -/
def escape : Reading Char := do
  match ← next with
  | none => fail .eofInString
  | some '"' => pure '"'
  | some '\\' => pure '\\'
  | some '/' => pure '/'
  | some 'b' => pure '\x08'
  | some 'f' => pure '\x0c'
  | some 'n' => pure '\n'
  | some 'r' => pure '\r'
  | some 't' => pure '\t'
  | some 'u' => unicodeEscape
  | some _ => fail .invalidEscape

/-- Whether a byte may stand unescaped in a string: not a quote, backslash or control
character. All of these are ASCII, so a run of such bytes ends only between characters. -/
def isPlain (b : UInt8) : Bool :=
  b ≠ 34 && b ≠ 92 && b ≥ 32

/-- The text of bytes that encode characters. -/
def decode (bytes : List UInt8) : String :=
  (String.fromUTF8? ⟨bytes.toArray⟩).getD ""

/-- Reads a string body after its opening quote, gathering its bytes; `fuel` bounds the
escapes. -/
def stringBody (fuel : Nat) (acc : List UInt8) : Reading String := do
  let src ← read
  let cur ← get
  let run := cur.rest.takeWhile isPlain
  set { cur with rest := cur.rest.drop run.length, index := cur.index + run.length }
  let acc := acc ++ run
  match ← peek with
  | none => failAt .eofInString src.size
  | some '"' => do eat; return decode acc
  | some '\\' =>
    eat
    let c ← escape
    match fuel with
    | 0 => fail .eofInString
    | n + 1 => stringBody n (acc ++ String.utf8EncodeChar c)
  | some _ => do eat; fail .controlInString

/-- Reads a string after its opening quote. -/
def string : Reading String := do
  stringBody (← get).rest.length []

/-- Puts a field into fields sorted by key, replacing one of the same key. -/
def insertField (k : String) (v : Json) : List (String × Json) → List (String × Json)
  | [] => [(k, v)]
  | (k', v') :: rest =>
    if k = k' then (k, v) :: rest
    else if k < k' then (k, v) :: (k', v') :: rest
    else (k', v') :: insertField k v rest

/-- After the items of an array: the closing bracket. -/
def closeList : Reading Unit := do
  match ← blank with
  | some ']' => eat
  | some ',' =>
    eat
    match ← blank with
    | some ']' => failNext .trailingComma
    | _ => failNext .trailingCharacters
  | some _ => failNext .trailingCharacters
  | none => failNext .eofInList

/-- After the fields of an object: the closing brace. -/
def closeObject : Reading Unit := do
  match ← blank with
  | some '}' => eat
  | some ',' => failNext .trailingComma
  | some _ => failNext .trailingCharacters
  | none => failNext .eofInObject

/-- Before an item of an array: whether one follows, consuming its comma. -/
def moreItems (first : Bool) : Reading Bool := do
  match ← blank with
  | none => failNext .eofInList
  | some ']' => return false
  | some c =>
    if first then return true
    if c = ',' then
      eat
      match ← blank with
      | some ']' => failNext .trailingComma
      | some _ => return true
      | none => failNext .eofInValue
    else failNext .expectedListCommaOrEnd

/-- Before a field of an object: its key if one follows, consuming the comma before it. -/
def nextKey (first : Bool) : Reading (Option String) := do
  let c ← blank
  let start ← match c with
    | some '}' => return none
    | some ',' => if first then pure (some ',') else do eat; blank
    | some b => if first then pure (some b) else failNext .expectedObjectCommaOrEnd
    | none => failNext .eofInObject
  match start with
  | some '"' => do eat; return some (← string)
  | some '}' => failNext .trailingComma
  | some _ => failNext .keyMustBeString
  | none => failNext .eofInValue

/-- The colon between a key and its value. -/
def colon : Reading Unit := do
  match ← blank with
  | some ':' => eat
  | some _ => failNext .expectedColon
  | none => failNext .eofInObject

mutual

/-- Reads one value; `fuel` bounds the number of values and items read. -/
def value (fuel : Nat) : Reading Json := do
  match fuel with
  | 0 => fail .eofInValue
  | fuel + 1 =>
    match ← blank with
    | none => failNext .eofInValue
    | some 'n' => do eat; ident ['u', 'l', 'l']; return .null
    | some 't' => do eat; ident ['r', 'u', 'e']; return .bool true
    | some 'f' => do eat; ident ['a', 'l', 's', 'e']; return .bool false
    | some '-' => do eat; return .num (← number false)
    | some '"' => do eat; return .str (← string)
    | some '[' =>
      let items ← nested do
        eat
        items fuel true []
      closeList
      return .arr items
    | some '\x7b' =>
      let fields ← nested do
        eat
        fields fuel true []
      closeObject
      return .obj fields
    | some c =>
      if c.isDigit then return .num (← number true)
      failNext .expectedValue

/-- Reads the items of an array after its opening bracket. -/
def items (fuel : Nat) (first : Bool) (acc : List Json) : Reading (List Json) := do
  match fuel with
  | 0 => fail .eofInList
  | fuel + 1 =>
    if ← moreItems first then
      let v ← value fuel
      items fuel false (acc ++ [v])
    else return acc

/-- Reads the fields of an object after its opening brace. -/
def fields (fuel : Nat) (first : Bool) (acc : List (String × Json)) :
    Reading (List (String × Json)) := do
  match fuel with
  | 0 => fail .eofInObject
  | fuel + 1 =>
    match ← nextKey first with
    | none => return acc
    | some k =>
      colon
      let v ← value fuel
      fields fuel false (insertField k v acc)

end

/-! ### Skipping a value -/

/-- Skips the digits at the front, if any; whether there were some. -/
def skipSomeDigits : Reading Bool := do
  let c ← get
  let (ds, rest) := spanDigits c.rest
  set { c with rest := rest, index := c.index + ds.length }
  return ds ≠ []

/-- Skips an exponent after its letter: a sign, then at least one digit. -/
def skipExponent : Reading Unit := do
  eat
  match ← peek with
  | some '+' | some '-' => eat
  | _ => pure ()
  match ← peek with
  | some c => do eat; if c.isDigit then discard skipSomeDigits else fail .invalidNumber
  | none => fail .invalidNumber

/-- Skips a number whose sign has been consumed: one leading zero or a run of digits, then a
fraction of at least one digit and an exponent, each if present. Its value is not formed, so
no size is out of range. -/
def skipNumber : Reading Unit := do
  match ← peek with
  | some '0' =>
    eat
    if (← peek).any Char.isDigit then failNext .invalidNumber
  | some c =>
    eat
    if c.isDigit then discard skipSomeDigits else fail .invalidNumber
  | none => fail .invalidNumber
  match ← peek with
  | some '.' =>
    eat
    if !(← skipSomeDigits) then failNext .invalidNumber
    match ← peek with
    | some 'e' | some 'E' => skipExponent
    | _ => pure ()
  | some 'e' | some 'E' => skipExponent
  | _ => pure ()

/-- Skips a string body after its opening quote; its escapes are checked for form only, so a
lone surrogate passes. `fuel` bounds the escapes. -/
def skipString (fuel : Nat) : Reading Unit := do
  let src ← read
  let cur ← get
  let run := cur.rest.takeWhile isPlain
  set { cur with rest := cur.rest.drop run.length, index := cur.index + run.length }
  match ← peek with
  | none => failAt .eofInString src.size
  | some '"' => eat
  | some '\\' =>
    eat
    match ← next with
    | none => fail .eofInString
    | some 'u' => discard hexQuad
    | some c =>
      if "\"\\/bfnrt".contains c then pure () else fail .invalidEscape
    match fuel with
    | 0 => fail .eofInString
    | n + 1 => skipString n
  | some _ => fail .controlInString

/-- A container open while skipping. -/
inductive Frame where
  | list
  | object
  deriving DecidableEq

/-- Skips a scalar, or opens a container and returns it. -/
def skipStart : Reading (Option Frame) := do
  match ← blank with
  | none => failNext .eofInValue
  | some 'n' => do eat; ident ['u', 'l', 'l']; pure none
  | some 't' => do eat; ident ['r', 'u', 'e']; pure none
  | some 'f' => do eat; ident ['a', 'l', 's', 'e']; pure none
  | some '-' => do eat; skipNumber; pure none
  | some '"' => do eat; skipString (← get).rest.length; pure none
  | some '[' => do eat; pure (some .list)
  | some '\x7b' => do eat; pure (some .object)
  | some c =>
    if c.isDigit then do skipNumber; pure none
    else failNext .expectedValue

/-- After a value (`done`) or just inside a container: closes the containers that end here
and consumes the comma before the next item. The result is the containers still open,
innermost first, or none when the outermost one has closed. Before an item of an object its
key and colon are consumed as well. `fuel` bounds the containers closed. -/
def skipClose (fuel : Nat) (done : Bool) : List Frame → Reading (Option (List Frame))
  | [] => pure none
  | frame :: outer => do
    match fuel with
    | 0 => fail .eofInValue
    | fuel + 1 =>
      let c ← blank
      if c = some ',' ∧ done then
        eat
        skipKey frame
        return some (frame :: outer)
      else if (c = some ']' ∧ frame = .list) ∨ (c = some '\x7d' ∧ frame = .object) then
        eat
        if outer = [] then return none
        skipClose fuel true outer
      else
        match c, frame with
        | none, .list => failNext .eofInList
        | none, .object => failNext .eofInObject
        | some _, .list => if done then failNext .expectedListCommaOrEnd else return some (frame :: outer)
        | some _, .object =>
          if done then failNext .expectedObjectCommaOrEnd
          skipKey frame
          return some (frame :: outer)
where
  /-- Before an item of an object: its key and the colon after it. -/
  skipKey : Frame → Reading Unit
    | .list => pure ()
    | .object => do
      match ← blank with
      | some '"' => eat
      | some _ => failNext .keyMustBeString
      | none => failNext .eofInObject
      skipString (← get).rest.length
      match ← blank with
      | some ':' => eat
      | some _ => failNext .expectedColon
      | none => failNext .eofInObject

/-- Skips the rest of a value with the containers `around` it; `fuel` bounds the
values skipped. -/
def skipWithin (fuel : Nat) (around : List Frame) : Reading Unit := do
  match fuel with
  | 0 => fail .eofInValue
  | fuel + 1 =>
    let (stack, done) := match ← skipStart with
      | some f => (f :: around, false)
      | none => (around, true)
    match ← skipClose (← get).rest.length.succ done stack with
    | none => pure ()
    | some stack => skipWithin fuel stack

/-- Skips one value of any size or depth. -/
def skip : Reading Unit := do
  skipWithin (← get).rest.length.succ []

/-- Fails unless only blanks are left. -/
def finish : Reading Unit := do
  match ← blank with
  | some _ => failNext .trailingCharacters
  | none => pure ()

/-- Runs a reading over a whole text. -/
def run (r : Reading α) (text : String) : Except ReadError α :=
  (ReaderT.run r text.toUTF8).run' ⟨text.toUTF8.toList, 0, 128⟩

end Reading

/-- Reads a text holding one JSON document. -/
def parse (text : String) : Except ReadError Json :=
  Reading.run (do
    let v ← Reading.value (2 * text.length + 2)
    Reading.finish
    return v) text

end Reactivity.Json
