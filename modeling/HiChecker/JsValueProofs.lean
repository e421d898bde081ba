import Mathlib.Data.Rat.Floor

/-!
# JavaScript values, as far as a program compares and converts them

The operators a script applies to values it did not make: truthiness, `===`, the
order on numbers, the 32-bit conversion of the bitwise operators, `parseInt` on a
run of digits and `toString` on the integer it gives.

* **`JsNum`** — a number: `NaN`, the infinities, and the finite ones as rationals.
  Arithmetic that can leave the doubles (`double`, `ofDigits`) rounds to them.
* **`JsVal`** — a value; an object is its identity.
* **`Json`** — the texts of `JSON.stringify`, built from their parts.
-/

namespace JsValue

/-- A number value. The finite doubles are among the rationals. -/
inductive JsNum where
  | nan
  | negInf
  | posInf
  | fin (q : Rat)
deriving DecidableEq

namespace JsNum

/-- A natural number that is a double. -/
def ofNat (n : Nat) : JsNum := .fin n

/-- The operator `<`. -/
def lt : JsNum → JsNum → Bool
  | .nan, _ => false
  | _, .nan => false
  | .fin a, .fin b => decide (a < b)
  | .negInf, .negInf => false
  | .negInf, _ => true
  | .posInf, _ => false
  | .fin _, .posInf => true
  | .fin _, .negInf => false

/-- `ToBoolean`: zero and `NaN` are falsy. -/
def truthy : JsNum → Bool
  | .nan => false
  | .fin q => q ≠ 0
  | _ => true

/-- The operator `===` on numbers: `NaN` differs from itself. -/
def strictEq : JsNum → JsNum → Bool
  | .nan, _ => false
  | a, b => a = b

/-- `ToInt32` (and `ToUint32`, on the same bits): truncate, then reduce modulo 2³². -/
def toInt32 : JsNum → BitVec 32
  | .fin q => BitVec.ofInt 32 (if 0 ≤ q then q.floor else q.ceil)
  | _ => 0#32

/-- The largest finite double. -/
def maxValue : Rat := (2 ^ 53 - 1) * 2 ^ 971

/-- `2 * x`, which is exact unless it overflows. -/
def double : JsNum → JsNum
  | .fin q =>
      if maxValue < 2 * q then .posInf
      else if 2 * q < -maxValue then .negInf
      else .fin (2 * q)
  | x => x

/-- The double nearest to a natural number, ties to even. -/
def roundNat (n : Nat) : JsNum :=
  if n < 2 ^ 53 then ofNat n
  else
    let e := n.log2 - 52
    let q := n / 2 ^ e
    let r := n % 2 ^ e
    let up := 2 ^ e < 2 * r ∨ (2 ^ e = 2 * r ∧ q % 2 = 1)
    let m := (if up then q + 1 else q) * 2 ^ e
    if 2 ^ 1024 ≤ m then .posInf else ofNat m

/-- `parseInt` on a run of decimal digits. -/
def ofDigits (ds : List Char) : JsNum := roundNat (Nat.ofDigitChars 10 ds 0)

/-- `a - b`, exact where neither operand is beyond the integers doubles can count. -/
def sub : JsNum → JsNum → JsNum
  | .nan, _ => .nan
  | _, .nan => .nan
  | .fin a, .fin b => .fin (a - b)
  | .posInf, .posInf => .nan
  | .negInf, .negInf => .nan
  | .posInf, _ => .posInf
  | _, .negInf => .posInf
  | _, _ => .negInf

/-- The fewest digits that round back to `m`, as digits and the power of ten that
    scales them: the search goes through the digit counts from `17 - fuel` on. -/
def shortest (m : Nat) : Nat → Nat × Nat
  | 0 => (m, 0)
  | fuel + 1 =>
      let len := (Nat.toDigits 10 m).length
      let e := len - (17 - fuel)
      let down := m / 10 ^ e
      let near := if 10 ^ e < 2 * (m % 10 ^ e) then down + 1 else down
      let far := if near = down then down + 1 else down
      if roundNat (near * 10 ^ e) = ofNat m then (near, e)
      else if roundNat (far * 10 ^ e) = ofNat m then (far, e)
      else shortest m fuel

/-- `Number.prototype.toString` on a natural number. -/
def natToString (m : Nat) : String :=
  if m < 2 ^ 53 then toString m
  else
    let (s, e) := shortest m 17
    if m < 10 ^ 21 then toString (s * 10 ^ e)
    else
      -- scientific notation, without the trailing zeros of the digits
      let ds := ((Nat.toDigits 10 s).reverse.dropWhile (· = '0')).reverse
      let point := match ds with
        | [] => ""
        | [d] => String.ofList [d]
        | d :: tail => String.ofList (d :: '.' :: tail)
      point ++ "e+" ++ toString ((Nat.toDigits 10 m).length - 1)

/-- `Number.prototype.toString` on the values of `ofDigits`. -/
def toStr : JsNum → String
  | .nan => "NaN"
  | .negInf => "-Infinity"
  | .posInf => "Infinity"
  | .fin q => natToString q.num.toNat

/-- On finite numbers the operator is the order of the rationals. -/
theorem lt_fin (a b : Rat) : (fin a).lt (fin b) = true ↔ a < b := decide_eq_true_iff

theorem lt_ofNat (a b : Nat) : (ofNat a).lt (ofNat b) = true ↔ a < b :=
  (lt_fin a b).trans Nat.cast_lt

theorem lt_integer (a b : Int) : (fin a).lt (fin b) = true ↔ a < b :=
  (lt_fin a b).trans Int.cast_lt

/-- What is above a natural number is truthy. -/
theorem truthy_of_lt {m : Nat} {x : JsNum} (h : (ofNat m).lt x = true) : x.truthy = true := by
  cases x with
  | nan => exact nomatch h
  | negInf => exact nomatch h
  | posInf => rfl
  | fin q =>
      have hq : (m : Rat) < q := (lt_fin m q).mp h
      exact decide_eq_true (ne_of_gt (lt_of_le_of_lt (Nat.cast_nonneg m) hq))

end JsNum

/-- A value. An object is known by its identity alone. -/
inductive JsVal where
  | undefined
  | null
  | bool (b : Bool)
  | num (x : JsNum)
  | str (s : String)
  | obj (id : Nat)
deriving DecidableEq

namespace JsVal

/-- `ToBoolean`. -/
def truthy : JsVal → Bool
  | .undefined => false
  | .null => false
  | .bool b => b
  | .num x => x.truthy
  | .str s => s ≠ ""
  | .obj _ => true

/-- The operator `===`. -/
def strictEq : JsVal → JsVal → Bool
  | .num a, .num b => a.strictEq b
  | a, b => a = b

/-- The test `x === undefined || x === null`. -/
def isNullish (v : JsVal) : Bool := v.strictEq .undefined || v.strictEq .null

/-- A truthy value is `===` itself. -/
theorem strictEq_self_of_truthy {a : JsVal} (h : a.truthy = true) :
    a.strictEq a = true := by
  cases a with
  | num x =>
      cases x with
      | nan => exact nomatch h
      | negInf => rfl
      | posInf => rfl
      | fin q => exact decide_eq_true rfl
  | undefined => rfl
  | null => rfl
  | bool c => exact decide_eq_true rfl
  | str s => exact decide_eq_true rfl
  | obj i => exact decide_eq_true rfl

end JsVal

namespace Json

/-- A character inside a JSON string. -/
def escape (c : Char) : List Char :=
  match c.toNat with
  | 8 => ['\\', 'b']
  | 9 => ['\\', 't']
  | 10 => ['\\', 'n']
  | 12 => ['\\', 'f']
  | 13 => ['\\', 'r']
  | 34 => ['\\', c]
  | 92 => ['\\', c]
  | n =>
      if n < 32 then
        ['\\', 'u', '0', '0', Nat.digitChar (n / 16), Nat.digitChar (n % 16)]
      else [c]

/-- A JSON string. -/
def quote (s : String) : String :=
  "\"" ++ String.ofList (s.toList.flatMap escape) ++ "\""

/-- A JSON array of texts. -/
def array (items : List String) : String := "[" ++ String.intercalate "," items ++ "]"

/-- A JSON object, its fields in the order given. -/
def object (fields : List (String × String)) : String :=
  "\x7b" ++ String.intercalate "," (fields.map (fun f => quote f.1 ++ ":" ++ f.2)) ++ "\x7d"

end Json

end JsValue
