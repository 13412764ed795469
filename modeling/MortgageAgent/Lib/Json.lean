import Mathlib.Algebra.Ring.Int.Defs
import Mathlib.Data.List.Sort

/-!
# JSON values

The values a JSON document carries, with the numbers and strings JavaScript gives them: a
number is its shortest decimal digits, a string is compared by UTF-16 code units when keys are
sorted. `Json.canonical` writes a value with its object keys sorted at every depth, so the
text does not depend on the order the keys were inserted in.
-/

/-- A finite JavaScript number, as the shortest digits that identify it:
`mantissa * 10 ^ exponent`, with no trailing zero in the mantissa. -/
structure JsDecimal where
  mantissa : Int
  exponent : Int
  shortest : mantissa % 10 ≠ 0 ∨ (mantissa = 0 ∧ exponent = 0)
  deriving DecidableEq

namespace JsDecimal

def zero : JsDecimal := ⟨0, 0, by decide⟩

/-- `mantissa * 10 ^ exponent`, for a mantissa without a trailing zero. -/
def scaled (mantissa exponent : Int)
    (h : decide (mantissa % 10 ≠ 0) = true := by exact Eq.refl true) : JsDecimal :=
  ⟨mantissa, exponent, Or.inl (of_decide_eq_true h)⟩

/-- `Number.isInteger`. -/
def isInteger (n : JsDecimal) : Bool := 0 ≤ n.exponent

/-- `Number.isSafeInteger`, the integers zod's `int()` accepts. -/
def isSafeInteger (n : JsDecimal) : Bool :=
  n.isInteger && (n.mantissa * 10 ^ n.exponent.toNat).natAbs ≤ 9007199254740991

/-- `n ≤ v`. -/
def leInt (n : JsDecimal) (v : Int) : Bool :=
  if 0 ≤ n.exponent then n.mantissa * 10 ^ n.exponent.toNat ≤ v
  else n.mantissa ≤ v * 10 ^ (-n.exponent).toNat

/-- `v ≤ n`. -/
def geInt (n : JsDecimal) (v : Int) : Bool :=
  if 0 ≤ n.exponent then v ≤ n.mantissa * 10 ^ n.exponent.toNat
  else v * 10 ^ (-n.exponent).toNat ≤ n.mantissa

/-- `m < n`. -/
def lt (m n : JsDecimal) : Bool :=
  let e := min m.exponent n.exponent
  m.mantissa * 10 ^ (m.exponent - e).toNat < n.mantissa * 10 ^ (n.exponent - e).toNat

/-- `Number::toString` of a positive number with digits `s`, the decimal point after the
first `n` of them. -/
def textOfDigits (s : List Char) (n : Int) : List Char :=
  let k : Int := s.length
  if k ≤ n ∧ n ≤ 21 then s ++ List.replicate (n - k).toNat '0'
  else if 0 < n ∧ n ≤ 21 then s.take n.toNat ++ '.' :: s.drop n.toNat
  else if -6 < n ∧ n ≤ 0 then '0' :: '.' :: (List.replicate (-n).toNat '0' ++ s)
  else
    let e := n - 1
    let exponent := 'e' :: (if 0 ≤ e then '+' else '-') :: (toString e.natAbs).toList
    match s with
    | [] => exponent
    | [d] => d :: exponent
    | d :: rest => d :: '.' :: (rest ++ exponent)

/-- `JSON.stringify` of a number. -/
def text (n : JsDecimal) : String :=
  if n.mantissa = 0 then "0"
  else
    let s := (toString n.mantissa.natAbs).toList
    let digits := textOfDigits s (n.exponent + s.length)
    String.ofList (if n.mantissa < 0 then '-' :: digits else digits)

end JsDecimal

inductive Json where
  | null
  | bool (b : Bool)
  | num (n : JsDecimal)
  | str (s : String)
  | arr (items : List Json)
  /-- own enumerable keys in insertion order -/
  | obj (fields : List (String × Json))

namespace Json

def hexDigit (n : Nat) : Char := "0123456789abcdef".toList.getD n '0'

/-- One character of a JSON string literal. -/
def quoteChar (c : Char) : List Char :=
  if c = '"' then ['\\', '"']
  else if c = '\\' then ['\\', '\\']
  else if c = '\x08' then ['\\', 'b']
  else if c = '\x0c' then ['\\', 'f']
  else if c = '\n' then ['\\', 'n']
  else if c = '\r' then ['\\', 'r']
  else if c = '\t' then ['\\', 't']
  else if c.toNat < 0x20 then
    ['\\', 'u', '0', '0', hexDigit (c.toNat / 16), hexDigit (c.toNat % 16)]
  else [c]

/-- `JSON.stringify` of a string. -/
def quote (s : String) : String :=
  String.ofList ('"' :: (s.toList.flatMap quoteChar ++ ['"']))

/-- The UTF-16 code units of a string. -/
def utf16 (s : String) : List Nat :=
  s.toList.flatMap fun c =>
    if c.toNat < 0x10000 then [c.toNat]
    else [0xD800 + (c.toNat - 0x10000) / 0x400, 0xDC00 + (c.toNat - 0x10000) % 0x400]

/-- The order `Array.prototype.sort` puts keys in. -/
def keyLe (a b : String) : Prop := ¬ utf16 b < utf16 a

instance : DecidableRel keyLe := fun a b => inferInstanceAs (Decidable (¬ utf16 b < utf16 a))

/-- The entries of an object by key; keys are distinct, so the order is determined. -/
def sortByKey {α : Type} (entries : List (String × α)) : List (String × α) :=
  entries.insertionSort fun a b => keyLe a.1 b.1

mutual

/-- The text with the keys of every object sorted. -/
def canonical : Json → String
  | .null => "null"
  | .bool b => if b then "true" else "false"
  | .num n => n.text
  | .str s => quote s
  | .arr items => "[" ++ String.intercalate "," (canonicalItems items) ++ "]"
  | .obj fields => "\x7b" ++ String.intercalate ","
      ((sortByKey (canonicalFields fields)).map fun p => quote p.1 ++ ":" ++ p.2) ++ "\x7d"

def canonicalItems : List Json → List String
  | [] => []
  | x :: xs => canonical x :: canonicalItems xs

def canonicalFields : List (String × Json) → List (String × String)
  | [] => []
  | (k, v) :: rest => (k, canonical v) :: canonicalFields rest

end

/-- The value under an own key. -/
def get? (fields : List (String × Json)) (key : String) : Option Json :=
  fields.lookup key

end Json

-- Keys are sorted at every depth, numbers print as `JSON.stringify` prints them.
example : (Json.obj [("b", .arr [.num ⟨15, -1, by decide⟩, .num ⟨1, 21, by decide⟩]),
    ("a", .obj [("z", .null), ("y", .str "q\"")])]).canonical
      = "\x7b\"a\":\x7b\"y\":\"q\\\"\",\"z\":null\x7d,\"b\":[1.5,1e+21]\x7d" := by
  decide +kernel
