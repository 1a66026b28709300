import Prune.Utility.Awk.Syntax
import Prune.Utility.Printf

/-!
The values of the pattern-action language: numbers and texts, each used as the other where it is asked
for. A text from outside that looks like a number is compared as one.
-/

namespace Prune.Utility.Awk

inductive Value where
  | unset
  | number (x : Float)
  | text (s : Chars)
  | input (s : Chars)

instance : Inhabited Value := ⟨.unset⟩

def Value.ofNat (n : Nat) : Value := .number (Float.ofNat n)

def isBlank (c : Char) : Bool := c = ' ' || ('\t' ≤ c && c ≤ '\x0d')

def ofInt (n : Int) : Float := if n < 0 then -(Float.ofNat n.natAbs) else Float.ofNat n.toNat

variable (text : Chars)

def leading? : Option (Float × Chars) :=
  let text := text.dropWhile isBlank
  let (negative, digits) := Chars.signed text
  let hex : Option (Float × Chars) := match digits with
    | '0' :: x :: rest =>
      let ds := rest.takeWhile (Chars.isDigitOf 16)
      if (x = 'x' || x = 'X') && !ds.isEmpty then
        let n := Chars.valueIn 16 ds
        some (ofInt (if negative then -(n : Int) else n), rest.drop ds.length)
      else none
    | _ => none
  hex <|> Decimal.read? text

def looksNumeric : Bool :=
  (leading? text).any fun (_, rest) => rest.all isBlank

def Value.toNumber : Value → Float
  | .unset => 0
  | .number x => x
  | .text s | .input s => ((leading? s).map (·.1)).getD 0

def truncate (x : Float) : Int :=
  match Decimal.Real.ofFloat x with
  | .finite negative m e =>
    let n : Nat := m * 2 ^ e.toNat / 2 ^ (-e).toNat
    if negative then -(n : Int) else n
  | .infinite negative => if negative then -(2 ^ 63) else 2 ^ 63 - 1
  | .undefined => -(2 ^ 63)

def largestWhole : Int := 2 ^ 31 - 1

def whole? (x : Float) : Option Int :=
  match Decimal.Real.ofFloat x with
  | .finite .. =>
    let n := truncate x
    if ofInt n == x && -largestWhole ≤ n && n ≤ largestWhole then some n else none
  | _ => none

def conversion (d : Printf.Directive) (x : Float) : Chars :=
  if "eEfFgG".contains d.letter then Printf.float d x
  else Printf.integer d (max (-(2 ^ 63)) (min (truncate x) (2 ^ 64 - 1)))

/-- The directive behind a percent sign: flags, width, precision and letter, with stars for arguments,
and what follows. -/
structure RawDirective where
  flags : Chars
  width : Option (Option Nat)
  precision : Option (Option Nat)
  letter : Option Char
  rest : Chars

def rawAmount : Option (Option Nat) × Chars :=
  match text with
  | '*' :: rest => (some none, rest)
  | _ =>
    let digits := text.takeWhile Char.isDigit
    if digits.isEmpty then (none, text) else (some (Chars.toNat? digits), text.drop digits.length)

def rawDirective : RawDirective :=
  let flags := text.takeWhile fun c => "-+ #0".contains c
  let (width, rest) := rawAmount (text.drop flags.length)
  let (precision, rest) := match rest with
    | '.' :: more =>
      let (p, rest) := rawAmount more
      (some ((p.getD (some 0))), rest)
    | rest => (none, rest)
  let rest := rest.dropWhile fun c => "hlqLjzt".contains c
  ⟨flags, width, precision, rest.head?, rest.tail⟩

def Value.toText (format : Chars) (v : Value) : Chars :=
  match v with
  | .unset => []
  | .text s | .input s => s
  | .number x =>
    match whole? x with
    | some n => Chars.ofInt n
    | none =>
      let raw := rawDirective (format.drop 1)
      match format.head?, raw.letter with
      | some '%', some letter =>
        let width := (raw.width.bind id).map Int.ofNat
        let precision := (raw.precision.bind id).map Int.ofNat
        conversion ⟨raw.flags, width, precision, letter⟩ x ++ raw.rest
      | _, _ => Printf.float ⟨[], none, some 6, 'g'⟩ x

/-- What comes of a format: the text so far, and a complaint if it went wrong. -/
structure Formatted where
  text : Chars
  complaint : Option Chars

def format (style : Chars) (whole : Chars) : Nat → Nat → Chars → List Value → Formatted
  | 0, _, _, _ | _, _, [], _ => ⟨[], none⟩
  | n + 1, number, '%' :: '%' :: rest, args => add ['%'] (format style whole n number rest args)
  | n + 1, number, '%' :: rest, args =>
    let raw := rawDirective rest
    let missing : Formatted := ⟨[], some ("not enough arguments passed to printf(\"" ++ whole ++ "\")")⟩
    let amount (asked : Option (Option Nat)) (args : List Value) : Option Int × List Value × Bool :=
      match asked, args with
      | some none, v :: args => (some (truncate v.toNumber), args, false)
      | some none, [] => (none, [], true)
      | given, args => ((given.bind id).map Int.ofNat, args, false)
    let (width, args, noWidth) := amount raw.width args
    let (precision, args, noPrecision) := amount raw.precision args
    let short := noWidth || noPrecision
    match raw.letter with
    | none => ⟨'%' :: rest, none⟩
    | some letter =>
      if !"diouxXeEfFgGcs".contains letter then
        ⟨[], some ("improper conversion(number " ++ Chars.ofNat number ++ ") in printf(\"" ++ whole ++ "\")")⟩
      else
        match short, args with
        | true, _ | _, [] => missing
        | false, v :: args =>
          let d : Printf.Directive := ⟨raw.flags, width, precision, letter⟩
          let text := match letter with
            | 's' =>
              let s := v.toText style
              Printf.padded d ((precision.map fun p => s.take p.toNat).getD s)
            | 'c' =>
              match v with
              | .number x => Printf.padded d [Char.ofNat ((truncate x) % 256).toNat]
              | .unset => Printf.padded d ['\x00']
              | v =>
                let s := v.toText style
                Printf.padded d (if s.isEmpty then ['\x00'] else s.take 1)
            | _ => conversion d v.toNumber
          add text (format style whole n (number + 1) raw.rest args)
  | n + 1, number, c :: rest, args => add [c] (format style whole n number rest args)
where
  add (text : Chars) (f : Formatted) : Formatted := { f with text := text ++ f.text }

/-- The order of two values: as numbers if both are or look like numbers, otherwise as texts. -/
def compareValues (style : Chars) (op : Relation) (a b : Value) : Bool :=
  let numeric : Value → Bool
    | .unset | .number _ => true
    | .text _ => false
    | .input s => looksNumeric s
  if numeric a && numeric b then
    let x := a.toNumber
    let y := b.toNumber
    match op with
    | .lt => x < y
    | .le => x ≤ y
    | .eq => x == y
    | .ne => !(x == y)
    | .gt => y < x
    | .ge => y ≤ x
  else
    let x := a.toText style
    let y := b.toText style
    match op with
    | .lt => !Chars.le y x
    | .le => Chars.le x y
    | .eq => x = y
    | .ne => x ≠ y
    | .gt => !Chars.le x y
    | .ge => Chars.le y x

def Value.isTrue : Value → Bool
  | .unset => false
  | .number x => !(x == 0)
  | .text s => !s.isEmpty
  | .input s => if looksNumeric s then !((Value.input s).toNumber == 0) else !s.isEmpty

def remainder (x y : Float) : Float :=
  match Decimal.Real.ofFloat x, Decimal.Real.ofFloat y with
  | .finite negative m e, .finite _ k f =>
    if k = 0 then 0.0 / 0.0
    else
      let low := min e f
      let a := m * 2 ^ (e - low).toNat
      let b := k * 2 ^ (f - low).toNat
      let r := (Float.ofNat (a % b)).scaleB low
      if negative then -r else r
  | _, _ => 0.0 / 0.0

def Arith.apply (op : Arith) (x y : Float) : Float :=
  match op with
  | .add => x + y
  | .sub => x - y
  | .mul => x * y
  | .div => x / y
  | .mod => remainder x y
  | .pow => x ^ y

def keyOrder (key : Chars) : Nat :=
  (key.foldl (fun h c => Nat.xor h c.toNat * 16777619 % 2 ^ 32) 2166136261) % 64

end Prune.Utility.Awk
