import Prune.Utility.Basic

/-!
Numbers that programs are given, with letters behind them for larger units.
-/

namespace Prune.Utility

inductive AmountFlaw where
  | invalid
  /-- What stands behind it is no unit. -/
  | strayEnding
  | tooLarge
deriving DecidableEq

def largestAmount : Nat := 2 ^ 64 - 1

def unitPower? : Char → Option Nat
  | 'k' | 'K' => some 1
  | 'm' | 'M' => some 2
  | 'g' | 'G' => some 3
  | 't' | 'T' => some 4
  | 'P' => some 5
  | 'E' => some 6
  | 'Z' => some 7
  | 'Y' => some 8
  | _ => none

/-- What the letters behind a number multiply it by. Of the letters only the `known` ones count, and a
`0` among those allows a second part that tells thousands of 1000 from those of 1024. -/
def unitOf? (known letters : Chars) : Option Nat :=
  match letters with
  | [] => some 1
  | c :: rest =>
    if !known.contains c then none
    else
      match unitPower? c with
      | some power =>
        match rest, known.contains '0' with
        | [], _ | ['i', 'B'], true => some (1024 ^ power)
        | ['B'], true | ['D'], true => some (1000 ^ power)
        | _, _ => none
      | none =>
        match letters with
        | ['b'] => some 512
        | ['B'] => some 1024
        | ['c'] => some 1
        | ['w'] => some 2
        | _ => none

/-- The digits a text starts with, as a number, and what follows. With `anyBase` a `0` or `0x` in front
tells the base. -/
def leadingDigits (anyBase : Bool) (text : Chars) : Option Nat × Chars :=
  let row (base : Nat) (text : Chars) : Option Nat × Chars :=
    let (digits, rest) := text.span (Chars.isDigitOf base)
    (if digits.isEmpty then none else some (Chars.valueIn base digits), rest)
  if !anyBase then row 10 text
  else
    match text with
    | '0' :: x :: c :: rest =>
      if (x = 'x' || x = 'X') && Chars.isDigitOf 16 c then row 16 (c :: rest) else row 8 text
    | '0' :: _ => row 8 text
    | _ => row 10 text

def isBlankOrBreak (c : Char) : Bool := c = ' ' || ('\t' ≤ c && c ≤ '\x0d')

def readAmount (anyBase : Bool) (known : String) (text : Chars) : Except AmountFlaw Nat :=
  let text := text.dropWhile isBlankOrBreak
  let text := match text with
    | '+' :: rest | rest => rest
  let known := known.toList
  let (n?, letters) := leadingDigits anyBase text
  let n? := if n?.isNone && letters.head?.any known.contains then some 1 else n?
  match n? with
  | none => .error .invalid
  | some n =>
    match unitOf? known letters with
    | none => .error .strayEnding
    | some unit => if n * unit > largestAmount then .error .tooLarge else .ok (n * unit)

def amount? (known : String) (text : Chars) : Option Nat := (readAmount false known text).toOption

def commonUnits : String := "bkKmMGTPEZY0"

def boundedAmount (words known : String) (low high : Nat) (text : Chars) : Except Chars Nat :=
  let wrong (why : String) : Except Chars Nat := .error (words.toList ++ ": " ++ quoted text ++ why.toList)
  match readAmount false known text with
  | .ok n =>
    if low ≤ n && n ≤ high then .ok n
    else if n > 2 ^ 30 - 1 then wrong ": Value too large for defined data type"
    else wrong ": Numerical result out of range"
  | .error .tooLarge => wrong ": Value too large for defined data type"
  | .error _ => wrong ""

end Prune.Utility
