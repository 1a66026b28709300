import Prune.Text.Chars
import Prune.Text.Hidden

/-!
Texts of bytes as texts of letters. Bytes that belong to no letter are kept: each is a character of its
own, out of a range that no text uses.
-/

namespace Prune.Letters

def strayBase : Nat := 0x10FF00

def stray (b : Char) : Char := Char.ofNat (strayBase + b.toNat)

def isStray (c : Char) : Bool := strayBase ≤ c.toNat

def continues (c : Char) : Bool := 0x80 ≤ c.toNat && c.toNat < 0xC0

def letterAt (a : Char) (rest : Chars) : Char × Nat :=
  let low (c : Char) : Nat := c.toNat % 64
  let n := a.toNat
  if n < 0x80 then (a, 1)
  else
    match rest with
    | b :: more =>
      if !continues b || n < 0xC2 then (stray a, 1)
      else if n < 0xE0 then (Char.ofNat ((n - 0xC0) * 64 + low b), 2)
      else
        match more with
        | c :: more =>
          if !continues c then (stray a, 1)
          else if n < 0xF0 then
            let v := (n - 0xE0) * 4096 + low b * 64 + low c
            if v < 0x800 || (0xD800 ≤ v && v < 0xE000) then (stray a, 1) else (Char.ofNat v, 3)
          else
            match more with
            | d :: _ =>
              let v := (n - 0xF0) * 262144 + low b * 4096 + low c * 64 + low d
              if !continues d || n > 0xF4 || v < 0x10000 || strayBase ≤ v then (stray a, 1)
              else (Char.ofNat v, 4)
            | [] => (stray a, 1)
        | [] => (stray a, 1)
    | [] => (stray a, 1)

def decodeFrom : Nat → Chars → Chars
  | _, [] => []
  | k + 1, _ :: rest => decodeFrom k rest
  | 0, a :: rest =>
    let (letter, size) := letterAt a rest
    letter :: decodeFrom (size - 1) rest

def decode (text : Chars) : Chars := if text.all (·.toNat < 0x80) then text else decodeFrom 0 text

def bytesOf (c : Char) : Chars :=
  let n := c.toNat
  let byte (m : Nat) : Char := Char.ofNat m
  if n < 0x80 then [c]
  else if n < 0x800 then [byte (0xC0 + n / 64), byte (0x80 + n % 64)]
  else if n < 0x10000 then [byte (0xE0 + n / 4096), byte (0x80 + n / 64 % 64), byte (0x80 + n % 64)]
  else if strayBase ≤ n then [byte (n - strayBase)]
  else [byte (0xF0 + n / 262144), byte (0x80 + n / 4096 % 64), byte (0x80 + n / 64 % 64),
    byte (0x80 + n % 64)]

def encode (text : Chars) : Chars := text.flatMap bytesOf

def of (wide : Bool) (text : Chars) : Chars := if wide then decode text else text

def toBytes (wide : Bool) (text : Chars) : Chars := if wide then encode text else text

def isWide (setting : Chars → Option Chars) : Bool :=
  let given (name : String) : Option Chars := (setting name.toList).filter fun v => !v.isEmpty
  let value := (given "LC_ALL" <|> given "LC_CTYPE" <|> given "LANG").getD []
  ["c.utf-8", "c.utf8"].any fun name => value.map Char.toLower = name.toList

end Prune.Letters

/-!
How many columns a text takes where it is shown: most letters take one, those of some scripts take two,
and marks on other letters take none.
-/

namespace Prune.Width

open Text

/-- Letters and symbols of two columns, with what stands between them. -/
def wide : List Nat := unpack
  "DGhrBKubExbwpBNiJwDNqcBvdKdhBPhClUscncHiedbcbBzzRdcvcBymBrbtbnbicrcfcibfbvbhcbbebcbhbecBcbBjbbbedbbCjdybobBHbcBzbe
   bCmbBCrRfcTziKKeCmBGWuBDjfcbbbfyOcBjYnBDXwHnqRdcCchCnDsFpDsExiCFoCmBGaCmBKyLcDuCkBFzCnJwEyBBsBwBNkJwQqLsBgGuHTvFZ
   tKZoCQyBZsJwDsDsIqBCVoGBoBGqBHwBgEQvShBLoBEeDCebHucHhbckDxLdmjbCsbwmBrefmrdbdCtbbbHfcClnebysbBacnbDiDhBwCsgbddcll
   femEmmDlBnGwDamBvbkbHdDgmqFoHvBlkCDZSw"

/-- Code points without a character that take one column. The others take two. -/
def narrow : List Nat := unpack "INoBdEqbBedBNxjDpCwBNwEkBZVtbEeoUNqKAgIVqBgDhnKhbBHoeYtkCRSwFeBXDTtDSYocDSYo"

def ofLetter? (c : Char) : Option Nat :=
  let n := c.toNat
  if n < 32 || (0x7F ≤ n && n < 0xA0) || Letters.isStray c then none
  else if n < 0x300 then some 1
  else if isInStretches bare n then some 0
  else if isInStretches letters n || isInStretches symbols n then
    some (if isInStretches wide n then 2 else 1)
  else some (if isInStretches narrow n then 1 else 2)

def ofText (wide : Bool) (text : Chars) : Nat :=
  if !wide then text.length
  else ((Letters.decode text).map fun c => (ofLetter? c).getD 1).foldl (· + ·) 0

end Prune.Width
