import Dn42Ctl.Lib.Json

/-!
# Builtins

Built-in functions of Python on the values `json.loads` returns.
-/

namespace Builtins

open Text

/-- What a conversion raises. -/
inductive ConvError where
  | type
  | value
  | overflow
deriving DecidableEq, Repr

/-! ## `int(x)` -/

/-- The white space `int()` skips: the ASCII separators are not among it. -/
def isIntSpace (c : Nat) : Bool := isSpace c && !(decide (28 ≤ c) && decide (c ≤ 31))

/-- The digits of a literal.  Underscores may stand one at a time between
digits; `afterDigit` says whether the character before was a digit. -/
def literalDigits (afterDigit : Bool) : Str → Option Str
  | [] => if afterDigit then some [] else none
  | c :: cs =>
      if c = 95 then if afterDigit then literalDigits false cs else none
      else if isDigit c then (literalDigits true cs).map (c :: ·)
      else none

/-- The default of `sys.set_int_max_str_digits`. -/
def maxStrDigits : Nat := 4300

/-- An unsigned literal. -/
def natLiteral (s : Str) : Option Nat :=
  match literalDigits false s with
  | none => none
  | some digits => if maxStrDigits < digits.length then none else decimalValue digits

/-- `int(s)` of a string; `none` when it raises `ValueError`. -/
def intOfStr (s : Str) : Option Int :=
  match ((s.dropWhile isIntSpace).reverse.dropWhile isIntSpace).reverse with
  | 45 :: body => (natLiteral body).map fun n => -(n : Int)
  | 43 :: body => (natLiteral body).map Int.ofNat
  | body => (natLiteral body).map Int.ofNat

def isHexChar (c : Nat) : Bool :=
  isDigit c || (decide (97 ≤ c) && decide (c ≤ 102)) || (decide (65 ≤ c) && decide (c ≤ 70))

/-- Hexadecimal digits with underscores one at a time between them. -/
def isHexDigits (afterDigit : Bool) : Str → Bool
  | [] => afterDigit
  | c :: cs =>
      if c = 95 then afterDigit && isHexDigits false cs
      else isHexChar c && isHexDigits true cs

/-- `int(s, 16)` of a text without a minus sign does not raise. -/
def isHexLiteral (s : Str) : Bool :=
  let body := match ((s.dropWhile isIntSpace).reverse.dropWhile isIntSpace).reverse with
    | 43 :: body => body
    | body => body
  match body with
  | 48 :: 120 :: 95 :: digits | 48 :: 88 :: 95 :: digits => isHexDigits false digits
  | 48 :: 120 :: digits | 48 :: 88 :: digits => isHexDigits false digits
  | digits => isHexDigits false digits

/-- `int(x)`. -/
def int : Json → Except ConvError Int
  | .bool b => .ok (if b then 1 else 0)
  | .int n => .ok n
  | .float f =>
      match f.toInt with
      | .ok n => .ok n
      | .error .overflow => .error .overflow
      | .error .value => .error .value
  | .str s =>
      match intOfStr s with
      | some n => .ok n
      | none => .error .value
  | .null | .list _ | .dict _ => .error .type

/-! ## `str(x)` -/

/-- `str(x)`.  `display` is what `str` prints of a list or an object. -/
def str (display : Json → Str) : Json → Str
  | .null => lit "None"
  | .bool b => if b then lit "True" else lit "False"
  | .int n => ofInt n
  | .float f => f.repr
  | .str s => s
  | v => display v

/-! ## iteration -/

/-- The values a `for` loop takes from `x`: the items of a list, the characters
of a text, the keys of an object; `none` when `x` cannot be iterated. -/
def iterate : Json → Option (List Json)
  | .list xs => some xs
  | .str s => some (s.map fun c => .str [c])
  | .dict kvs => some (kvs.map fun e => .str e.1)
  | .null | .bool _ | .int _ | .float _ => none

end Builtins
