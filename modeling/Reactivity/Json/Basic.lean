import Reactivity.Number.Layout
import Reactivity.Text.Quote

/-!
# JSON documents

`Json` is a JSON document as this library reads and writes it. A number keeps the class a
reader gives it: a natural number of at most 64 bits, a negative integer of at most 64 bits,
or a double for everything else. An object is a list of fields in the order they are
written; a reader that merges repeated keys keeps them sorted (see `Json.Reader`).
`Json.write` writes the compact form, with doubles spelled by a `NumberLayout`.
-/

namespace Reactivity

/-- A JSON number as read: its class decides how it is written back. -/
inductive JsonNumber where
  /-- a non-negative integer below `2^64` -/
  | nat (n : Nat)
  /-- a negative integer not below `-2^63` -/
  | neg (n : Int)
  /-- any other number -/
  | float (x : Float)

/-- A JSON document. -/
inductive Json where
  | null
  | bool (b : Bool)
  | num (n : JsonNumber)
  | str (s : String)
  | arr (items : List Json)
  | obj (fields : List (String × Json))

namespace Json

/-- A number as a document holds it. -/
def ofFloat (x : Float) : Json := .num (.float x)

/-- The field `key` of an object, the last one of that name. -/
def field? (j : Json) (key : String) : Option Json :=
  match j with
  | .obj fields => (fields.reverse.find? (·.1 == key)).map (·.2)
  | _ => none

mutual

/-- The compact text of a document, doubles spelled by `L`. -/
def write (L : NumberLayout) : Json → String
  | .null => "null"
  | .bool true => "true"
  | .bool false => "false"
  | .num (.nat n) => toString n
  | .num (.neg n) => toString n
  | .num (.float x) => L.spell x
  | .str s => Text.jsonQuoted s
  | .arr items => "[" ++ writeItems L items ++ "]"
  | .obj fields => "\x7b" ++ writeFields L fields ++ "\x7d"

/-- Array items separated by commas. -/
def writeItems (L : NumberLayout) : List Json → String
  | [] => ""
  | [j] => write L j
  | j :: rest => write L j ++ "," ++ writeItems L rest

/-- Object fields separated by commas. -/
def writeFields (L : NumberLayout) : List (String × Json) → String
  | [] => ""
  | [(k, v)] => Text.jsonQuoted k ++ ":" ++ write L v
  | (k, v) :: rest => Text.jsonQuoted k ++ ":" ++ write L v ++ "," ++ writeFields L rest

end

end Json

end Reactivity
