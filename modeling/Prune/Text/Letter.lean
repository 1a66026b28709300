/-!
White space in the sense of the Unicode property White_Space, and trimming by it.
-/

namespace Prune.Text

def isBlank (c : Char) : Bool :=
  let n := c.toNat
  (0x09 ≤ n && n ≤ 0x0D) || n == 0x20 || n == 0x85 || n == 0xA0 || n == 0x1680
    || (0x2000 ≤ n && n ≤ 0x200A) || n == 0x2028 || n == 0x2029 || n == 0x202F || n == 0x205F
    || n == 0x3000

def trimEnd (s : String) : String := String.ofList (s.toList.reverse.dropWhile isBlank).reverse

def trim (s : String) : String :=
  String.ofList ((s.toList.dropWhile isBlank).reverse.dropWhile isBlank).reverse

/-!
Letters and numerals in the sense of the Unicode properties Alphabetic and Numeric.
-/

/-- Whether a number is in one of the stretches that are given by their lengths: how far it is to the
first one, how long that is, how far it is from there to the next one, and so on. -/
def isInStretches : List Nat → Nat → Bool
  | gap :: length :: rest, n => gap ≤ n && (n < gap + length || isInStretches rest (n - gap - length))
  | _, _ => false

/-- The numbers of a table, in base 26: a small letter is the last digit of a number, and those before it are capital.
Blanks do not count. -/
def unpack (table : String) : List Nat :=
  (table.foldl (fun (numbers, n) c =>
    if c.isUpper then (numbers, 26 * (n + (c.toNat - 65)))
    else if c.isLower then ((n + (c.toNat - 97)) :: numbers, 0) else (numbers, n)) ([], 0)).1.reverse

def letters : List Nat := unpack
  "GobhcbbdcbdbxbBfbRqemofhbbbDibBdsbccebbgbbdbbbubDfbFjiGkbBmcbgBpBnobbbcbcbbiBbeeBdlfCebreDybieieqcbqBwnDxoBrjcebfy
   cttzhlfybhhbiBqkmdhgCybqbdepckbtbicccwbhbbdediccccbbibecbfcmcgcbedbgeccwbhbcbcbcefecccebhebbhqldbjbdbwbhbcbfdjbdb
   cdbpeckjeedbicccwbhbcbfdiccccjcecbfckbhkcbgddbedcbbbcdcdddmefddbddbgbonnnbdbxbqdibdbdicbdbcceckihbebibdbxbkbfdibd
   bdicfdbeckbdmnbdbBpcibdbdbbfqctbgbdbsdybjbbchigbbbigkccnCgfhgbckBncbbbfbybbbtbdcfbbgbckceBgbBfumibBketeqbBkCpCdbb
   cpgDacBmbbfbcBrbMvbechbbbecBpbecBhbechbbbecpbCfbecCpoudqqDicgdXwcrbBafCxdlhulvmumnbdbcmCactobebdkgkwkgDlhBrfCskBf
   bmejnBocflBseBaglBlBceClculkgknbxcldBxCabpbidkBmBqcCgbloCdjkdBxclfBrcdBpebgbcdbfHktBilKscgcBmcgcibbbbbbbBfcCbbhbb
   ddbhdecgenfdbhElccgflgnDxbebckbbdfgbbbbbbeblceffebbCgBByCiBaCwYgBeBRoIvgedcjbcBmbbfbcCehbqxjhbhbhbhbhbhbhbhbBgBvb
   SbdzjhfcfeDigdbDmbefBrbDqdekBgBwqBgkBeibpBgkBnpMiJToCmBGUfCpBucKjdBcuBvfidEjBnjcDzcDeuvbBhigkCamCqbbkkygdbbBufBjn
   BddBzbmplgBfbCdjockgxdCrbbbbydcqcelgcgcgjhbhbBrbogEtfkgQNsmxeBxMNcOccEcBmhmffmbnbfbbbcbcbEeBhNzsCmcCcBomEmfbFftkh
   BagBalDldgcgcgcdBjmbBabtbcbpcoBiEtmBtmCfrcJkBddBxqBbeBkjBefBrfBecBkeibfBqGcckgBkeBkeBoiCamlbpbhbcblbpbhbcdCamLzjw
   kiygbBqbjCrgcbbBsbcdbcxcBfcBmijBwtbcfBheBagBaBmCeeucBybcfibdbBdkjxBfbBgBgibBcgfqCckwcBbfBaxhDcCvCdBznBzhBuikgBmdb
   fxIkBfbBqbcdcqgByddBoiwleBbsBuBcuxjCsmBebfkCfjbnzhkgBzdkeeiBjdbjCmbejnbbeulsbBicbgeCkhbbbebpbkhCfhkgebicccwbhbcbf
   diccccdbgbfhBckbbcbbBmbkbbcbbebcdbbbBsCobdbefkfdBeCoccbbikGkCcchzgBiClbbdblkBmCccbhkguBcBbcofmehHdCfDzDfmicbcibcb
   BebccccenkCsicBucgbbbcBbBzckrCufbsCvDziDkBhpkgjbBtbhbbpBdfBecwboCvhbcbBsdbbcbdbbccikggbcbBlbcbebbhkgBsekJmxjrbBpd
   dpkDibpvBrBJmDyEhrHoDXkDtpBPgrgzFXrfWlKDdBvbkCOsVxhBfbkgDbbkgBesBwqemkbhbvftQqBtdkHqDjjzczBsCxeCfhrCmcbbmhjKXyBpB
   gDtElMWrebhbcbLfpbBddcboeiPgDKuEdfndjhkebGErkCEwumuEezFfDhbCtbccbcccebmbbbhbCnbecibhbBcbebfbbdhbNcczbzbBfbzbBfbzb
   BfbzbBfbzbicByCQyBfggIfhbrchbcbffCkBhbEiBtkhckebMjBesBsekScBcekIgBeclHpBfbwicIqhbebcbpbHpcjBwCqdbdbekBElChbdbeCyB
   tbpHmebBbbcbbcbbkbebbbbgbebbbbbbdbcbbcbbbbbbbbbbcbbcebhbebebbbkbrfdbfbrWinBjBagBagBaDYkkBNqCLFcBgGMocIOccLBlpXyDQ
   wUwCFyHHzfMOo"

def isLetter (c : Char) : Bool := if c.toNat < 0x80 then c.isAlphanum else isInStretches letters c.toNat

end Prune.Text
