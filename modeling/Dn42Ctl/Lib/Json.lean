import Dn42Ctl.Lib.Text

/-!
# Json

The values `json.loads` can return.  Objects are association lists in
insertion order; lookups take the entry Python's `dict` holds.

Floats are not computed with: a float is known by the three observations the
modelled code makes of one, its `repr`, its truth value and what `int()` of it
does.
-/

open Text

/-- What `int(x)` raises on a float without an integer part. -/
inductive IntError where
  | overflow
  | value
deriving DecidableEq, Repr

/-- A Python `float`, by its observations. -/
structure PyFloat where
  repr : Str
  truthy : Bool
  toInt : Except IntError Int
deriving Repr

inductive Json where
  | null
  | bool (b : Bool)
  | int (n : Int)
  | float (f : PyFloat)
  | str (s : Str)
  | list (xs : List Json)
  | dict (kvs : List (Str × Json))
deriving Repr

/-- A JSON object: what `isinstance(x, dict)` leaves. -/
abbrev JsonObject := List (Str × Json)

namespace Json

/-- `d.get(key)` of an object. -/
def lookup (key : Str) (d : JsonObject) : Option Json :=
  (d.find? fun e => e.1 == key).map Prod.snd

/-- `d.get(key, default)`. -/
def getD (key : Str) (d : JsonObject) (default : Json) : Json := (lookup key d).getD default

/-- `bool(x)`. -/
def truthy : Json → Bool
  | null => false
  | bool b => b
  | int n => n != 0
  | float f => f.truthy
  | str s => !s.isEmpty
  | list xs => !xs.isEmpty
  | dict kvs => !kvs.isEmpty

mutual

/-- `json.dumps(x, ensure_ascii=False)` has a UTF-8 encoding: no string in it,
keys included, holds a lone surrogate. -/
def encodable : Json → Bool
  | str s => Text.encodable s
  | list xs => encodableAll xs
  | dict kvs => encodableEntries kvs
  | _ => true

def encodableAll : List Json → Bool
  | [] => true
  | x :: xs => encodable x && encodableAll xs

def encodableEntries : List (Str × Json) → Bool
  | [] => true
  | (k, v) :: kvs => Text.encodable k && encodable v && encodableEntries kvs

end

end Json
