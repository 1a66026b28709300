import Prune.Text.Bytes

/-!
Bytes as characters: where a text is taken apart by what its bytes mean as characters, each byte
stands for the character of that number.
-/

namespace Prune

abbrev Chars := List Char

instance : Coe String Chars := ⟨String.toList⟩

namespace Chars

def ofBytes (b : Bytes) : Chars := b.map fun x => Char.ofNat x.toNat

def toBytes (c : Chars) : Bytes := c.map fun x => UInt8.ofNat x.toNat

def ofString (s : String) : Chars := ofBytes (Bytes.ofString s)

def ofNat (n : Nat) : Chars := Nat.toDigits 10 n

def ofInt (n : Int) : Chars := if n < 0 then '-' :: ofNat n.natAbs else ofNat n.toNat

def le : Chars → Chars → Bool
  | [], _ => true
  | _ :: _, [] => false
  | a :: as, b :: bs => if a = b then le as bs else a.toNat < b.toNat

def ontoFirst (a : α) : List (List α) → List (List α)
  | [] => [[a]]
  | part :: parts => (a :: part) :: parts

def splitAt (c : Char) : Chars → List Chars
  | [] => [[]]
  | x :: rest => if x = c then [] :: splitAt c rest else ontoFirst x (splitAt c rest)

def join (sep : Chars) : List Chars → Chars
  | [] => []
  | [part] => part
  | part :: parts => part ++ sep ++ join sep parts

def cut (c : Char) : Chars → Chars × Option Chars
  | [] => ([], none)
  | x :: rest =>
    if x = c then ([], some rest)
    else
      let (before, behind) := cut c rest
      (x :: before, behind)

def lines (text : Chars) : List Chars × Bool :=
  let parts := splitAt '\n' text
  match parts.getLast? with
  | some [] => (parts.dropLast, true)
  | _ => (parts, false)

def occursIn (needle : Chars) : Chars → Bool
  | [] => needle.isEmpty
  | text@(_ :: rest) => needle.isPrefixOf text || occursIn needle rest

def toNat? (text : Chars) : Option Nat :=
  if text.isEmpty || !text.all Char.isDigit then none
  else some (text.foldl (fun n c => 10 * n + (c.toNat - '0'.toNat)) 0)

/-- What a digit stands for, up to 15. -/
def digit? (c : Char) : Option Nat :=
  if c.isDigit then some (c.toNat - '0'.toNat)
  else if 'a' ≤ c && c ≤ 'f' then some (c.toNat - 'a'.toNat + 10)
  else if 'A' ≤ c && c ≤ 'F' then some (c.toNat - 'A'.toNat + 10)
  else none

def isDigitOf (base : Nat) (c : Char) : Bool := (digit? c).any (· < base)

def digitsIn (base most : Nat) (text : Chars) : Chars := (text.take most).takeWhile (isDigitOf base)

def valueIn (base : Nat) (digits : Chars) : Nat := digits.foldl (fun n c => base * n + (digit? c).getD 0) 0

def octal (c : Char) : Chars := (Nat.toDigits 8 c.toNat).leftpad 3 '0'

/-- Letters that stand for a character behind a backslash. -/
def controls : List (Char × Char) :=
  [('a', '\x07'), ('b', '\x08'), ('f', '\x0c'), ('n', '\n'), ('r', '\x0d'), ('t', '\t'), ('v', '\x0b')]

def control? (letter : Char) : Option Char := controls.lookup letter

def controlLetter? (c : Char) : Option Char := (controls.find? (·.2 = c)).map (·.1)

/-- Whether there is a minus in front, and what stands behind the sign. -/
def signed : Chars → Bool × Chars
  | '-' :: rest => (true, rest)
  | '+' :: rest | rest => (false, rest)

def toInt? : Chars → Option Int
  | '-' :: digits => (toNat? digits).map fun n => -(n : Int)
  | '+' :: digits | digits => (toNat? digits).map fun n => (n : Int)

def slice (text : Array Char) (start stop : Nat) : Chars := (text.extract start stop).toList

def trimEnd (p : Char → Bool) (text : Chars) : Chars := (text.reverse.dropWhile p).reverse

def padLeft (n : Nat) (text : Chars) : Chars := text.leftpad n ' '

def padRight (n : Nat) (text : Chars) : Chars := text ++ List.replicate (n - text.length) ' '

end Chars

end Prune
