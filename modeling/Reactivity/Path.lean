import Reactivity.Text.Alphanumeric
import Reactivity.Machine

/-!
# Paths

A path names a value by keys separated by dots, such as `user.tags.0`. A simple path holds
only letters, numbers, `_`, `$` and dots; it is split at every dot, so an empty path is one
empty key. A getter made from text that is not a simple path is reported with a warning and
always yields undefined.
-/

namespace Reactivity

/-- Whether a character may appear in a simple path. -/
def isPathChar (c : Char) : Bool :=
  Text.isAlphanumeric c || c = '_' || c = '$' || c = '.'

/-- The keys of a simple path; none when the text is not one. -/
def parsePath (s : String) : Option (List String) :=
  if s.toList.all isPathChar then some (s.splitOn ".") else none

namespace Eff

variable {η : Type}

/-- The getter of a path written as text, warning when it is not a simple path. -/
def pathGetter (s : String) : Eff η Getter :=
  match parsePath s with
  | some keys => pure (.path keys)
  | none => do
    warn ("failed watching path \"" ++ s ++
      "\": only simple dot-delimited paths are supported, use a function getter for anything else")
    pure (.noop s)

end Eff

end Reactivity
