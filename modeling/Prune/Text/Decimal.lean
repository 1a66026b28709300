import Prune.Text.Chars

/-!
Floating-point numbers in decimal, with a number of places or of digits. A number is taken exactly,
and a half goes to the even neighbour.
-/

namespace Prune.Decimal

inductive Real where
  | infinite (negative : Bool)
  | undefined
  /-- `mantissa * 2 ^ exponent`. -/
  | finite (negative : Bool) (mantissa : Nat) (exponent : Int)

def Real.ofFloat (x : Float) : Real :=
  let bits := x.toBits.toNat
  let negative := bits / 2 ^ 63 % 2 == 1
  let exponent : Nat := bits / 2 ^ 52 % 2 ^ 11
  let fraction := bits % 2 ^ 52
  if exponent = 2047 then if fraction = 0 then .infinite negative else .undefined
  else if exponent = 0 then .finite negative fraction (-1074)
  else .finite negative (2 ^ 52 + fraction) ((exponent : Int) - 1075)

def roundDiv (num den : Nat) : Nat :=
  let q := num / den
  let r := num % den
  if 2 * r > den || (2 * r = den && q % 2 = 1) then q + 1 else q

variable (mantissa : Nat)

def scaled (exponent shift : Int) : Nat :=
  roundDiv (mantissa * 2 ^ exponent.toNat * 10 ^ shift.toNat) (2 ^ (-exponent).toNat * 10 ^ (-shift).toNat)

def reaches (exponent k : Int) : Bool :=
  10 ^ k.toNat * 2 ^ (-exponent).toNat ≤ mantissa * 2 ^ exponent.toNat * 10 ^ (-k).toNat

variable (exponent : Int)

def magnitude : Int :=
  if mantissa = 0 then 0
  else
    let guess := ((Nat.log2 mantissa : Int) + exponent) * 30103 / 100000
    (([2, 1, 0, -1, -2].map (guess + ·)).find? (reaches mantissa exponent)).getD guess

def withPoint (n places : Nat) (keepPoint : Bool) : Chars :=
  let digits := (Nat.toDigits 10 n).leftpad (places + 1) '0'
  let whole := digits.take (digits.length - places)
  let rest := digits.drop (digits.length - places)
  if places = 0 && !keepPoint then whole else whole ++ '.' :: rest

def fixed (places : Nat) (keepPoint : Bool) : Chars :=
  withPoint (scaled mantissa exponent places) places keepPoint

def leading (places : Nat) : Nat × Int :=
  let k := magnitude mantissa exponent
  let n := scaled mantissa exponent (places - k)
  if n ≥ 10 ^ (places + 1) then (scaled mantissa exponent (places - (k + 1)), k + 1) else (n, k)

def exponentText (upper : Bool) (k : Int) : Chars :=
  (if upper then 'E' else 'e') :: (if k < 0 then '-' else '+') ::
    (Nat.toDigits 10 k.natAbs).leftpad 2 '0'

def scientific (places : Nat) (keepPoint upper : Bool) : Chars :=
  let (n, k) := leading mantissa exponent places
  withPoint n places keepPoint ++ exponentText upper k

variable (text : Chars)

def trimPlaces : Chars :=
  if text.contains '.' then
    let text := (text.reverse.dropWhile (· = '0')).reverse
    if text.getLast? = some '.' then text.dropLast else text
  else text

def general (digits : Nat) (keepZeros upper : Bool) : Chars :=
  let digits := max digits 1
  let (n, k) := leading mantissa exponent (digits - 1)
  if -4 ≤ k && k < digits then
    let text := fixed mantissa exponent (digits - 1 - k).toNat keepZeros
    if keepZeros then text else trimPlaces text
  else
    let text := withPoint n (digits - 1) keepZeros
    (if keepZeros then text else trimPlaces text) ++ exponentText upper k

def render (letter : Char) (precision : Nat) (alternate : Bool) (x : Float) : Bool × Chars :=
  let upper := letter.isUpper
  let word (s : String) : Chars := if upper then s.toUpper.toList else s.toList
  match Real.ofFloat x with
  | .undefined => (x.toBits.toNat / 2 ^ 63 % 2 == 1, word "nan")
  | .infinite negative => (negative, word "inf")
  | .finite negative m e =>
    (negative,
      match letter.toLower with
      | 'f' => fixed m e precision alternate
      | 'e' => scientific m e precision alternate upper
      | _ => general m e precision alternate upper)

structure Written where
  negative : Bool
  digits : Nat
  power : Int
deriving DecidableEq

def readPower : Int × Chars :=
  match text with
  | c :: r =>
    if c = 'e' || c = 'E' then
      let (minus, digits) := Chars.signed r
      let ds := digits.takeWhile Char.isDigit
      match Chars.toNat? ds with
      | some n => ((if minus then -(n : Int) else n), digits.drop ds.length)
      | none => (0, text)
    else (0, text)
  | [] => (0, text)

def written? : Option (Written × Chars) :=
  let (negative, rest) := Chars.signed text
  let whole := rest.takeWhile Char.isDigit
  let rest := rest.drop whole.length
  let (places, rest) := match rest with
    | '.' :: r =>
      let p := r.takeWhile Char.isDigit
      if whole.isEmpty && p.isEmpty then ([], rest) else (p, r.drop p.length)
    | r => ([], r)
  match Chars.toNat? (whole ++ places) with
  | none => none
  | some n =>
    let (power, rest) := readPower rest
    some (⟨negative, n, power - places.length⟩, rest)

def Written.toFloat (w : Written) : Float :=
  let x := if w.power < 0 then Float.ofScientific w.digits true (-w.power).toNat
    else Float.ofScientific w.digits false w.power.toNat
  if w.negative then -x else x

def read? : Option (Float × Chars) := (written? text).map fun (w, rest) => (w.toFloat, rest)

end Prune.Decimal
