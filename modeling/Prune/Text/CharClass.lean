import Prune.Text.Letters

/-!
Lower and upper case of letters beyond the plain ones.
-/

namespace Prune.Case

open Text

/-- Stretches where a small letter follows each capital one, which has an even number. -/
def evenPairs : List Nat := unpack
  "JwBvdftBtldtbhfhblbdblbvrdddBndrtjLdddbDtxlbDxBhjCbrDrJKjFtlDrFBtbrbnDvpbBTYjBttBbFfndCjpjjddtlpnbfd"

/-- The same where capital letters have odd numbers. -/
def oddPairs : List Nat := unpack "MbpBxfjbdbfbvbhbddpbfrDrbfbQvbHtnKWrbEDffjbEndBUKpdpbChdBrb"

/-- Stretches of capital letters whose small ones are at the same distance. -/
def shifts : List (Int × List Nat) :=
  [(32, [192, 23, 1, 7, 690, 17, 1, 9, 100, 32, 64241, 26, 6501, 32, 21888, 32]),
   (205, [393, 2, 8, 1]), (218, [422, 1, 2, 1, 4, 1]), (2, [452, 1, 2, 1, 2, 1, 38, 1]),
   (-130, [544, 1, 476, 3]), (37, [904, 3]), (64, [908, 1, 67827, 51]), (8, [975, 1, 4128, 6]),
   (80, [1024, 16]), (48, [1329, 38, 9897, 48]), (7264, [4256, 38, 1, 1, 5, 1]),
   (38864, [5024, 80]), (-3008, [7312, 43, 2, 3]), (-8, [7944, 8, 8, 6, 10, 8, 8, 8, 8, 6, 11, 1,
   1, 1, 1, 1, 1, 1, 8, 8, 24, 8, 8, 8, 8, 8, 8, 2, 30, 2, 14, 2]),
   (-9, [8124, 1, 15, 1, 47, 1]), (-86, [8136, 4]), (16, [8544, 16]), (26, [9398, 26]),
   (40, [66560, 40, 136, 36]), (39, [66928, 11, 1, 15, 1, 7, 1, 2]), (34, [125184, 34])]

/-- Other capital letters with their small ones. -/
def singles : List (Nat × Nat) :=
  [(376, 255), (385, 595), (390, 596), (398, 477), (399, 601), (400, 603), (404, 611),
   (406, 617), (407, 616), (412, 623), (413, 626), (415, 629), (433, 650), (434, 651),
   (439, 658), (502, 405), (503, 447), (570, 11365), (573, 410), (574, 11366), (579, 384),
   (580, 649), (581, 652), (895, 1011), (902, 940), (910, 973), (911, 974), (1012, 952),
   (1017, 1010), (1216, 1231), (7838, 223), (8122, 8048), (8123, 8049), (8154, 8054),
   (8155, 8055), (8170, 8058), (8171, 8059), (8172, 8165), (8184, 8056), (8185, 8057),
   (8186, 8060), (8187, 8061), (8486, 969), (8490, 107), (8491, 229), (8498, 8526), (11362, 619),
   (11363, 7549), (11364, 637), (11373, 593), (11374, 625), (11375, 592), (11376, 594),
   (11390, 575), (11391, 576), (42877, 7545), (42893, 613), (42922, 614), (42923, 604),
   (42924, 609), (42925, 620), (42926, 618), (42928, 670), (42929, 647), (42930, 669),
   (42931, 43859), (42948, 42900), (42949, 642), (42950, 7566)]

/-- Small letters whose capital one is not the letter that has them as its small one. -/
def upperApart : List (Nat × Nat) :=
  [(181, 924), (305, 73), (383, 83), (453, 452), (456, 455), (459, 458), (498, 497), (837, 921),
   (962, 931), (976, 914), (977, 920), (981, 934), (982, 928), (1008, 922), (1009, 929),
   (1013, 917), (7296, 1042), (7297, 1044), (7298, 1054), (7299, 1057), (7300, 1058),
   (7301, 1058), (7302, 1066), (7303, 1122), (7304, 42570), (7835, 7776), (8126, 921)]

/-- Small letters without a capital one, though they are the small ones of others. -/
def upperless : List Nat := [223, 1, 7840, 8, 8, 8, 8, 8, 11, 1, 15, 1, 47, 1]

def isPaired (n : Nat) : Bool := isInStretches (if n % 2 = 0 then evenPairs else oddPairs) n

def smallOf (n : Nat) : Nat :=
  let near := if isPaired n then some (n + 1) else singles.lookup n
  let far := shifts.findSome? fun (distance, capitals) =>
    if isInStretches capitals n then some ((n : Int) + distance).toNat else none
  (near <|> far).getD n

def capitalOf (n : Nat) : Nat :=
  let apart := if isInStretches upperless n then some n else upperApart.lookup n
  let far := shifts.findSome? fun (distance, capitals) =>
    let m := ((n : Int) - distance).toNat
    if isInStretches capitals m then some m else none
  let near := ((singles.find? (·.2 = n)).map (·.1)) <|> (if isPaired (n - 1) then some (n - 1) else none)
  (apart <|> far <|> near).getD n

def lower (wide : Bool) (c : Char) : Char :=
  if wide && c.toNat ≥ 0x80 then Char.ofNat (smallOf c.toNat) else c.toLower

def upper (wide : Bool) (c : Char) : Char :=
  if wide && c.toNat ≥ 0x80 then Char.ofNat (capitalOf c.toNat) else c.toUpper

def isSame (wide : Bool) (a b : Char) : Bool :=
  a = b || lower wide a = lower wide b || upper wide a = upper wide b

end Prune.Case

/-!
Sets of characters between brackets, with ranges and named classes.
-/

namespace Prune

inductive CharClass where
  | alnum | alpha | blank | cntrl | digit | graph | lower | print | punct | space | upper | xdigit
deriving DecidableEq, Repr

namespace CharClass

def ofName? (name : Chars) : Option CharClass :=
  match String.ofList name with
  | "alnum" => some .alnum
  | "alpha" => some .alpha
  | "blank" => some .blank
  | "cntrl" => some .cntrl
  | "digit" => some .digit
  | "graph" => some .graph
  | "lower" => some .lower
  | "print" => some .print
  | "punct" => some .punct
  | "space" => some .space
  | "upper" => some .upper
  | "xdigit" => some .xdigit
  | _ => none

def holdsPlain (k : CharClass) (c : Char) : Bool :=
  let graph := '!' ≤ c && c ≤ '~'
  match k with
  | .alnum => c.isAlphanum
  | .alpha => c.isAlpha
  | .blank => c = ' ' || c = '\t'
  | .cntrl => c < ' ' || c = '\x7f'
  | .digit => c.isDigit
  | .graph => graph
  | .lower => c.isLower
  | .print => graph || c = ' '
  | .punct => graph && !c.isAlphanum
  | .space => c = ' ' || ('\t' ≤ c && c ≤ '\x0d')
  | .upper => c.isUpper
  | .xdigit => c.isDigit || ('a' ≤ c && c ≤ 'f') || ('A' ≤ c && c ≤ 'F')

def holdsBeyond (k : CharClass) (c : Char) : Bool :=
  if Letters.isStray c then false
  else
    match k with
    | .alnum | .alpha => Text.isLetter c
    | .lower => Case.upper true c ≠ c
    | .upper => Case.lower true c ≠ c
    | .space => Text.isBlank c && c ≠ '\u00a0' && c ≠ '\u2007' && c ≠ '\u202f' && c ≠ '\u0085'
    | .blank => Text.isBlank c && c ≠ '\u00a0' && c ≠ '\u2007' && c ≠ '\u202f' && c ≠ '\u2028' &&
      c ≠ '\u2029' && c ≠ '\u0085'
    | .cntrl => c.toNat < 0xA0 || c = '\u2028' || c = '\u2029'
    | .graph => c.toNat ≥ 0xA0 && (c = '\u00a0' || !Text.isBlank c)
    | .print => c.toNat ≥ 0xA0 && c ≠ '\u2028' && c ≠ '\u2029'
    | .punct => c.toNat ≥ 0xA0 && !Text.isLetter c && (c = '\u00a0' || !Text.isBlank c)
    | .digit | .xdigit => false

def holds (k : CharClass) (wide : Bool) (c : Char) : Bool :=
  if wide && c.toNat ≥ 0x80 then k.holdsBeyond c else k.holdsPlain c

end CharClass

inductive CharRange where
  | between (low high : Char)
  | named (k : CharClass) (wide : Bool)
deriving DecidableEq

def CharRange.holds : CharRange → Char → Bool
  | .between low high, c => low ≤ c && c ≤ high
  | .named k wide, c => k.holds wide c

structure CharSet where
  negated : Bool
  members : List CharRange
deriving DecidableEq

def CharSet.holds (s : CharSet) (c : Char) : Bool :=
  !Letters.isStray c && s.members.any (·.holds c) != s.negated

def CharSet.holdsFolded (s : CharSet) (wide : Bool) (c : Char) : Bool :=
  !Letters.isStray c &&
    s.members.any (fun m => m.holds c || m.holds (Case.lower wide c) || m.holds (Case.upper wide c)) != s.negated

end Prune
