import Prune.Text.Letter

/-!
Characters that are not written as themselves between quotes: controls, format characters, separators
other than the space, code points without a character, marks that would join the character before
them, and fillers that show nothing.
-/

namespace Prune.Text

/-- Marks on other characters, and what else takes no room of its own. -/
def bare : List Nat := unpack
  "BDoEiKphKdBtbbbcbcbbCegklbbBuvqbDxibgccbeBhbbbBeBbDnlCgjjbyebjbdbfBrdCaqBqCfCdbbbeiebdhkcBdbCgbeeibucBafCfberBecdb
   lcCfbeiebucwiCgbcbbeiklcBebCjbmbBybdbCdbbdfrlcBdbCgbcbgbfcucBccCfceeibucBdbCubhfDmbchmiDubcjlgCwcBbbbbbbCdobfbcfB
   wjbDyebgbccczcedqenbccgbpbHmGeNldBKkdBdcBecBecCmcbhibcljbBtfEncBibEodecjbgdIlccbCgbbjbbcignBwBfBxeBwbbfbbfbBojmcB
   geccbdCebbcdbbdCgiccFwdbnbhebgbdcHqCmUdfBafBxqDsBhEOcdFlbDsBgVieEdcBSQeebkBgcDccKmbdbebzcfbFvcBasnbBmizlBudBwbcec
   cBnbCpgccccmbibBvbBzbbdccfcbbBqcibJebcbebQOwDDwKHabBCjqqqHzbJpdTtbIsbFtfCMgpBoiGjcWbeOxcFxlBxeEtbCcpBpbcckdBxeccc
   bemBydBkfbiCkbmcCajkecbDrdcbbcgbGebdivcCfcdbBlpHnicdbbxbDggbbecbcJeegcbcBbcDhicbbcEcbbbcgbbDxdcebfJzjbcJwcbbebFoi
   ebBgkBogceibjgcdBunbcPqobbDewchbcbcEsvbbCucdbbbNjcIBbjUStfChhBOibCleDdbBDBkcbeGYuCtUydjqchBeeFsdCYdCdeByibobwvCAi
   BrKbhOlbCjeCFwhEfhBTBZaExEyJg"

/-- What is seen and is no letter. -/
def symbols : List Nat := unpack
  "GfjbcbecbbdcbdbxbBfbRqemofhbbbrEnbibfcbbEgbFjbIhgBpccdBubbbcbcbBscrklbbdCweDybjbkbtcboIyeecBwpBfbBpbIlckbEzcgcbbEq
   bErcEwbFaiEubhbebHubBpbEsbCwbpbkcGjxcgubbbbbbgCrbCeibgbnEhgDacDnbXojBnkDybXwcBscDadCtcGbdbeBklLxbdcFwBiBecEyhbgGe
   ckrjmEueChfCkcCmilbnbvbBBhbbdldndndncryiBvBbflfrBiCkcbebckbbdfgbbbbbbeblceffebbCgceZqwlDdBaCwYgBeBMecFiIvgoebcEib
   FnBvbBuBiBabDlmIgBaqbedzpbfcfdDncdbDmbFscekBgBmjbqBflBeibpBgkBnpMiJToCmBGUiCdCdcKjdDvbkbElgixjcDzcGbekeCgeDicBodb
   bBxcBvbDtnqcEuexdDwcqcEbbocExcBEAebFgBhNzsCmcCciBseqkwBjbtbeFtpkhBagBalEshbhncJydCajCfrcdbndbBvBtQcbBwbPybBCpbBfc
   GkbBfbKmjBmbCubBnhCohDleRxbBfcKzbBijEufBseHhhEfcbeEweBwcDbeebnbbdDkgEdbLmcbcEkfkcbbEabJqxEbdBcnCybFaeJrbKedFzbDoi
   DfdbfDpkIhbDrfBqcYvcCwnFdBdnbBRsfEJccWDvcFdbCnjecVfdLjeMpbBDBlbcbFVkJgkddQugxprDrEmCiJmkBncCifdwchBeeCjvCodbHeDjB
   HqbzbBfbzbBfbzbBfbzbBfbzbCiTsCdeByibobhCOpbQpbBDnbBHecBGmbdbEvbRhcKkBseDwmpcpbpbBlxBjBagBagBaBkCeBdnBsejhcogFyBLx
   drdndIkgmebpmeCeikgBoiBecmecojBnNgiocndldCfbbeqcmekhFrbDokb"

/-- Letters that join the one before them, and take room. -/
def joined : List Nat := unpack
  "DRybyfNqcxfDubypIkbbbevDubybEpbphBIfGfDMrjfcIJvbDACpbFFsgPfgBGbClHibygDnbcpIwbmbJhbBImbVnbbdbbBJlcCaicqYXymddFPgcB
   QQvEjCFzbcbhcfj"

/-- Bare characters that are seen all the same. -/
def seen : List Nat := [4449, 1457, 49310, 9070, 7168, 1]

def isVisible (c : Char) : Bool :=
  let n := c.toNat
  if n < 0x7F then 0x20 ≤ n
  else
    isInStretches symbols n || (isInStretches letters n &&
      if isInStretches bare n then isInStretches seen n else !isInStretches joined n)

/-!
Text between double quotes, with escapes for what would not be seen, and lists of such texts.
-/

def codePoint (c : Char) : List Char := ['\\', 'u', '\x7b'] ++ Nat.toDigits 16 c.toNat ++ ['\x7d']

def quotedChar (c : Char) : List Char :=
  if c = '\x00' then ['\\', '0']
  else if c = '\t' then ['\\', 't']
  else if c = '\n' then ['\\', 'n']
  else if c = '\r' then ['\\', 'r']
  else if c = '"' || c = '\\' then ['\\', c]
  else if isVisible c then [c]
  else codePoint c

def quoted (s : String) : String := String.ofList ('"' :: s.toList.flatMap quotedChar ++ ['"'])

def quotedList (l : List String) : String := "[" ++ ", ".intercalate (l.map quoted) ++ "]"

def jsonChar (c : Char) : List Char :=
  if c = '"' || c = '\\' then ['\\', c]
  else if c = '\x08' then ['\\', 'b']
  else if c = '\t' then ['\\', 't']
  else if c = '\n' then ['\\', 'n']
  else if c = '\x0c' then ['\\', 'f']
  else if c = '\r' then ['\\', 'r']
  else if c.toNat < 0x20 then ['\\', 'u'] ++ (Nat.toDigits 16 c.toNat).leftpad 4 '0'
  else [c]

def json (s : String) : String := String.ofList ('"' :: s.toList.flatMap jsonChar ++ ['"'])

end Prune.Text
