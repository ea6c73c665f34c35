import Reactivity.Json.Reader

/-!
# Engine settings

`Config` holds the settings of the engine: how many runs of one watcher a flush allows, whether
flushes wait for a tick, whether warnings are silenced, and how ticks are driven.
`Config.read` reads them from a JSON text with the rules of a typed reading: an object
(fields in any order, unknown fields skipped, a repeated field refused) or an array of the
four values in order, missing ones taking their defaults. Its errors name the offending value
and where it ends.
-/

namespace Reactivity

/-- Who runs the tick batches. -/
inductive TickMode where
  /-- an asynchronous runtime if one is running on this thread, else the host -/
  | auto
  /-- an asynchronous runtime, with a warning when none is running -/
  | tokio
  /-- always the host -/
  | manual
deriving DecidableEq, Repr

/-- The name of a tick mode in settings texts. -/
def TickMode.name : TickMode → String
  | .auto => "auto"
  | .tokio => "tokio"
  | .manual => "manual"

/-- The name of a tick mode in diagnostics. -/
def TickMode.title : TickMode → String
  | .auto => "Auto"
  | .tokio => "Tokio"
  | .manual => "Manual"

/-- The settings of the engine. -/
structure Config where
  /-- runs of one watcher allowed in one flush -/
  maxUpdateCount : Nat := 100
  /-- flushes wait for the next tick instead of running at once -/
  asyncFlush : Bool := true
  /-- warnings are not reported -/
  silent : Bool := false
  /-- who runs tick batches -/
  tick : TickMode := .auto
deriving Repr

/-- The diagnostic text of settings. -/
def Config.debugText (c : Config) : String :=
  "Config \x7b max_update_count: " ++ toString c.maxUpdateCount ++ ", async_flush: " ++
    toString c.asyncFlush ++ ", silent: " ++ toString c.silent ++ ", tick: " ++ c.tick.title ++
    " \x7d"

namespace Json

/-- A value that a typed reading did not expect, as its messages describe it. -/
inductive Unexpected where
  | unit
  | bool (b : Bool)
  | unsigned (n : Nat)
  | signed (n : Int)
  | float (x : Float)
  | str (s : String)
  | seq
  | map

/-- The description of an unexpected value. -/
def Unexpected.describe : Unexpected → String
  | .unit => "null"
  | .bool b => "boolean `" ++ toString b ++ "`"
  | .unsigned n => "integer `" ++ toString n ++ "`"
  | .signed n => "integer `" ++ toString n ++ "`"
  | .float x =>
    if x.isNaN then "floating point `NaN`"
    else if x.isInf then (if x > 0 then "floating point `inf`" else "floating point `-inf`")
    else "floating point `" ++ NumberLayout.document.spell x ++ "`"
  | .str s => "string " ++ Text.showQuoted s
  | .seq => "sequence"
  | .map => "map"

/-- The message for a value of the wrong type. -/
def invalidType (u : Unexpected) (expected : String) : ReadFault :=
  .mismatch ("invalid type: " ++ u.describe ++ ", expected " ++ expected)

/-- The message for a value of the right type outside the accepted range. -/
def invalidValue (u : Unexpected) (expected : String) : ReadFault :=
  .mismatch ("invalid value: " ++ u.describe ++ ", expected " ++ expected)

/-- How a number read by `Reading.number` is described. -/
def unexpectedOf : JsonNumber → Unexpected
  | .nat n => .unsigned n
  | .neg n => .signed n
  | .float x => .float x

namespace Reading

/-- Fails with a type mismatch placed just after what has been read. -/
def mismatch (f : ReadFault) : Reading α := fail f

/-- Reads the next value only to describe it to a typed reading that expected `expected`;
fails with the mismatch just after it. -/
def refuse (expected : String) : Reading α := do
  match ← peek with
  | some 'n' => do eat; ident ['u', 'l', 'l']; mismatch (invalidType .unit expected)
  | some 't' => do eat; ident ['r', 'u', 'e']; mismatch (invalidType (.bool true) expected)
  | some 'f' => do eat; ident ['a', 'l', 's', 'e']; mismatch (invalidType (.bool false) expected)
  | some '-' => do eat; let n ← number false; mismatch (invalidType (unexpectedOf n) expected)
  | some '"' => do eat; let s ← string; mismatch (invalidType (.str s) expected)
  | some '[' => mismatch (invalidType .seq expected)
  | some '\x7b' => mismatch (invalidType .map expected)
  | some c =>
    if c.isDigit then do let n ← number true; mismatch (invalidType (unexpectedOf n) expected)
    else failNext .expectedValue
  | none => failNext .expectedValue

/-- Reads a natural number of 64 bits. -/
def natural : Reading Nat := do
  match ← blank with
  | none => failNext .eofInValue
  | some '-' =>
    eat
    match ← number false with
    | .neg n => mismatch (invalidValue (.signed n) "usize")
    | n => mismatch (invalidType (unexpectedOf n) "usize")
  | some c =>
    if c.isDigit then
      match ← number true with
      | .nat n => return n
      | n => mismatch (invalidType (unexpectedOf n) "usize")
    else refuse "usize"

/-- Reads a boolean. -/
def boolean : Reading Bool := do
  match ← blank with
  | none => failNext .eofInValue
  | some 't' => do eat; ident ['r', 'u', 'e']; return true
  | some 'f' => do eat; ident ['a', 'l', 's', 'e']; return false
  | some _ => refuse "a boolean"

/-- The tick mode of a variant name. -/
def tickMode (name : String) : Reading TickMode :=
  if name = "auto" then pure .auto
  else if name = "tokio" then pure .tokio
  else if name = "manual" then pure .manual
  else mismatch (.mismatch ("unknown variant `" ++ name ++
    "`, expected one of `auto`, `tokio`, `manual`"))

/-- Reads a tick mode: its name as a string, or an object of one field whose key is the name
and whose value is null. -/
def tick : Reading TickMode := do
  match ← blank with
  | some '"' =>
    eat
    tickMode (← string)
  | some '\x7b' =>
    let mode ← nested do
      eat
      match ← blank with
      | some '"' =>
        eat
        let mode ← tickMode (← string)
        colon
        match ← blank with
        | none => failNext .eofInValue
        | some 'n' => do eat; ident ['u', 'l', 'l']; pure mode
        | some _ => refuse "unit"
      | some _ => refuse "variant identifier"
      | none => failNext .eofInValue
    match ← blank with
    | some '\x7d' => do eat; return mode
    | some _ => fail .expectedValue
    | none => fail .eofInObject
  | some _ => failNext .expectedValue
  | none => failNext .eofInValue

end Reading

end Json

namespace Config

open Json Json.Reading

/-- Settings read so far from an object: a field seen twice is refused. -/
structure Fields where
  maxUpdateCount : Option Nat := none
  asyncFlush : Option Bool := none
  silent : Option Bool := none
  tick : Option TickMode := none

/-- The settings of the fields read, defaults for the rest. -/
def Fields.settle (f : Fields) : Config :=
  { maxUpdateCount := f.maxUpdateCount.getD 100
    asyncFlush := f.asyncFlush.getD true
    silent := f.silent.getD false
    tick := f.tick.getD .auto }

/-- Reads the fields of a settings object after its opening brace; `fuel` bounds them. -/
def fields (fuel : Nat) (first : Bool) (acc : Fields) : Reading Fields := do
  match fuel with
  | 0 => fail .eofInObject
  | fuel + 1 =>
    match ← nextKey first with
    | none => return acc
    | some key =>
      -- a repeated field is refused where reading stands once the closing brace has been
      -- looked for
      let duplicate : Reading Unit := do
        if (← blank) = some '\x7d' then eat
        mismatch (.mismatch ("duplicate field `" ++ key ++ "`"))
      if key = "max_update_count" then
        if acc.maxUpdateCount.isSome then duplicate
        colon
        fields fuel false { acc with maxUpdateCount := some (← natural) }
      else if key = "async_flush" then
        if acc.asyncFlush.isSome then duplicate
        colon
        fields fuel false { acc with asyncFlush := some (← boolean) }
      else if key = "silent" then
        if acc.silent.isSome then duplicate
        colon
        fields fuel false { acc with silent := some (← boolean) }
      else if key = "tick" then
        if acc.tick.isSome then duplicate
        colon
        fields fuel false { acc with tick := some (← Json.Reading.tick) }
      else
        colon
        skip
        fields fuel false acc

/-- Reads the settings as an array of up to four values in field order. -/
def items : Reading Config := do
  let d : Config := {}
  let m ← if ← moreItems true then natural else pure d.maxUpdateCount
  let a ← if ← moreItems false then boolean else pure d.asyncFlush
  let s ← if ← moreItems false then boolean else pure d.silent
  let t ← if ← moreItems false then Json.Reading.tick else pure d.tick
  return ⟨m, a, s, t⟩

/-- Reads settings from a JSON text. -/
def read (text : String) : Except ReadError Config :=
  Reading.run (do
    let c ← match ← blank with
      | none => failNext .eofInValue
      | some '\x7b' =>
        let f ← nested do
          eat
          fields (2 * text.length + 2) true {}
        closeObject
        pure f.settle
      | some '[' =>
        let c ← nested do
          eat
          items
        closeList
        pure c
      | some _ => refuse "struct Config"
    finish
    return c) text

end Config

end Reactivity
