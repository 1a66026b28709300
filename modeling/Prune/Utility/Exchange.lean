import Prune.Text.CharClass
import Prune.Utility.Amount
import Prune.Utility.Source

/-!
Characters that are exchanged for others, left out, or kept only once where they follow each other. The
characters are given as lists of single ones, ranges, classes and repetitions.
-/

namespace Prune.Utility

open Host

/-- A character of a list, and whether a backslash stood before it. -/
structure ListedChar where
  char : Char
  escaped : Bool

inductive ListPart where
  | one (c : Char)
  | range (low high : Char)
  | named (k : CharClass)
  | alike (c : Char)
  | repeated (c : Char) (count : Nat)
  /-- As often as is needed. -/
  | filling (c : Char)

inductive ListFlaw where
  | noClass
  | noAlike
  | badClass (name : Chars)
  | badAlike (text : Chars)
  | reversed (low high : Char)
  | badCount (text : Chars)

def shownChar (c : Char) : Chars := if CharClass.print.holdsPlain c then [c] else '\\' :: Chars.octal c

def shownText (text : Chars) : Chars :=
  text.flatMap fun c => if c = '\\' then "\\\\" else if CharClass.print.holdsPlain c then [c] else shellEscape c

def ListFlaw.words : ListFlaw → Chars
  | .noClass => "missing character class name '[::]'"
  | .noAlike => "missing equivalence class character '[==]'"
  | .badClass name => "invalid character class " ++ quoted (shownText name)
  | .badAlike text => shownText text ++ ": equivalence class operand must be a single character"
  | .reversed low high =>
    "range-endpoints of '" ++ shownChar low ++ '-' :: shownChar high ++
      "' are in reverse collating sequence order"
  | .badCount text => "invalid repeat count " ++ quoted (shownText text) ++ " in [c*n] construct"

def octalDigits (text : Chars) : Chars :=
  let digits := Chars.digitsIn 8 3 text
  if Chars.valueIn 8 digits > 255 then digits.take 2 else digits

def listedChars : Nat → Chars → List ListedChar × List Chars
  | 0, _ | _, [] => ([], [])
  | _, ['\\'] => ([⟨'\\', false⟩], ["warning: an unescaped backslash at end of string is not portable"])
  | n + 1, '\\' :: c :: rest =>
    let digits := octalDigits (c :: rest)
    if digits.isEmpty then (listedChars n rest).map (⟨(Chars.control? c).getD c, true⟩ :: ·) id
    else
      let all := Chars.digitsIn 8 3 (c :: rest)
      let (chars, said) := listedChars n ((c :: rest).drop digits.length)
      let warning := "warning: the ambiguous octal escape \\" ++ all ++
        " is being\n\tinterpreted as the 2-byte sequence \\0" ++ digits ++ ", " ++ all.drop 2
      (⟨Char.ofNat (Chars.valueIn 8 digits), true⟩ :: chars, if digits = all then said else warning :: said)
  | n + 1, c :: rest => (listedChars n rest).map (⟨c, false⟩ :: ·) id

def ListedChar.is (l : ListedChar) (c : Char) : Bool := l.char = c && !l.escaped

def closing? (mark : Char) : List ListedChar → Option (List ListedChar × List ListedChar)
  | a :: b :: rest =>
    if a.is mark && b.is ']' then some ([], rest)
    else (closing? mark (b :: rest)).map fun (before, behind) => (a :: before, behind)
  | _ => none

def repetition (text : List ListedChar) : Except ListFlaw (Option (ListPart × List ListedChar)) :=
  match text with
  | c :: star :: rest =>
    if !star.is '*' then .ok none
    else
      let count := rest.takeWhile fun l => !l.escaped && l.char ≠ ']'
      match rest.drop count.length with
      | close :: more =>
        if !close.is ']' then .ok none
        else
          let digits := count.map (·.char)
          let base := if digits.head? = some '0' then 8 else 10
          let n := Chars.valueIn base digits
          if !digits.all (Chars.isDigitOf base) || n ≥ largestAmount then .error (.badCount digits)
          else .ok (some (if n = 0 then .filling c.char else .repeated c.char n, more))
      | [] => .ok none
  | _ => .ok none

def isRepetition : List ListedChar → Bool
  | star :: rest => star.is '*' && ((rest.dropWhile fun l => l.char.isDigit).head?.any (·.is ']'))
  | [] => false

def bracketed (mark : Char) (text : List ListedChar) : Except ListFlaw (Option (ListPart × List ListedChar)) :=
  match closing? mark text with
  | none => .ok none
  | some (inner, rest) =>
    let name := inner.map (·.char)
    if mark = ':' then
      if name.isEmpty then .error .noClass
      else
        match CharClass.ofName? name with
        | some k => .ok (some (.named k, rest))
        | none => if isRepetition text then .ok none else .error (.badClass name)
    else
      match name with
      | [] => .error .noAlike
      | [c] => .ok (some (.alike c, rest))
      | _ => if isRepetition text then .ok none else .error (.badAlike name)

def listedParts : Nat → List ListedChar → Except ListFlaw (List ListPart)
  | 0, _ => .ok []
  | n + 1, a :: b :: c :: rest => do
    let special ← if !a.is '[' then pure none
      else
        match ← (if b.is ':' || b.is '=' then bracketed b.char (c :: rest) else pure none) with
        | some found => pure (some found)
        | none => repetition (b :: c :: rest)
    match special with
    | some (part, rest) => return part :: (← listedParts n rest)
    | none =>
      if b.is '-' then
        if c.char < a.char then .error (.reversed a.char c.char)
        else return .range a.char c.char :: (← listedParts n rest)
      else return .one a.char :: (← listedParts n (b :: c :: rest))
  | _, chars => .ok (chars.map fun l => .one l.char)

def allChars : List Char := (List.range 256).map Char.ofNat

def ListPart.chars : ListPart → List Char
  | .one c => [c]
  | .range low high => (List.range (high.toNat - low.toNat + 1)).map fun i => Char.ofNat (low.toNat + i)
  | .named k => allChars.filter k.holdsPlain
  | .alike c => [c]
  | .repeated c n => List.replicate (min n 65536) c
  | .filling _ => []

def ListPart.isCase : ListPart → Bool
  | .named .upper | .named .lower => true
  | _ => false

def charsOf (parts : List ListPart) : List Char := parts.flatMap ListPart.chars

def caseStarts : Nat → List ListPart → List Nat
  | _, [] => []
  | i, part :: rest =>
    let more := caseStarts (i + part.chars.length) rest
    if part.isCase then i :: more else more

def filledUp (length : Nat) (parts : List ListPart) : List ListPart :=
  let lacking := length - (charsOf parts).length
  parts.map fun
    | .filling c => .repeated c lacking
    | part => part

/-- What is done with the characters: a table of what each becomes, which are left out, and which are
kept once. -/
structure Exchange where
  table : Array Char
  dropped : Array Bool
  squeezed : Array Bool

namespace Exchange

def flags (set : List Char) : Array Bool :=
  set.foldl (fun flags c => flags.setIfInBounds c.toNat true) (Array.replicate 256 false)

def complementOf (set : List Char) : List Char :=
  let inSet := flags set
  allChars.filter fun c => !inSet.getD c.toNat false

def tableOf (pairs : List (Char × Char)) : Array Char :=
  pairs.foldl (fun table (a, b) => table.setIfInBounds a.toNat b) allChars.toArray

def apply (e : Exchange) : Option Char → Chars → Chars
  | _, [] => []
  | last, c :: rest =>
    if e.dropped.getD c.toNat false then apply e last rest
    else
      let c := e.table.getD c.toNat c
      if last = some c && e.squeezed.getD c.toNat false then apply e last rest
      else c :: apply e (some c) rest

end Exchange

structure ExchangeManner where
  complement : Bool
  drops : Bool
  squeezes : Bool
  truncates : Bool

variable (m : ExchangeManner)

def ExchangeManner.source (parts : List ListPart) : List Char :=
  if m.complement then Exchange.complementOf (charsOf parts) else charsOf parts

def listConflict (first : List ListPart) (second : Option (List ListPart)) : Option String :=
  let fills (parts : List ListPart) : Nat := (parts.filter fun p => p matches .filling _).length
  let source := m.source first
  if fills first > 0 then some "the [c*] repeat construct may not appear in string1"
  else
    match second with
    | none => none
    | some parts =>
      if fills parts > 1 then some "only one [c*] repeat construct may appear in string2"
      else if m.drops then
        if fills parts > 0 then some "the [c*] construct may appear in string2 only when translating" else none
      else
        let filled := filledUp source.length parts
        let images := charsOf filled
        let isMisaligned := !m.complement &&
          (caseStarts 0 filled).any fun i => i ≤ source.length && !(caseStarts 0 first).contains i
        let isLonger := source.length > images.length && !m.truncates
        if parts.any fun p => p matches .alike _ then
          some "[=c=] expressions may not appear in string2 when translating"
        else if parts.any fun p => (p matches .named _) && !p.isCase then
          some ("when translating, the only character classes that may appear in\n" ++
            "string2 are 'upper' and 'lower'")
        else if isMisaligned then some "misaligned [:upper:] and/or [:lower:] construct"
        else if isLonger && images.isEmpty then
          some "when not truncating set1, string2 must be non-empty"
        else if isLonger && (filled.getLast?.any fun p => p matches .named _) then
          some ("when translating with string1 longer than string2,\n" ++
            "the latter string must not end with a character class")
        else if m.complement && (first.any fun p => p matches .named _) &&
            (images.eraseDups.length > 1 || (m.truncates && images.length < source.length)) then
          some ("when translating with complemented character classes,\n" ++
            "string2 must map all characters in the domain to one")
        else none

def exchangeOf (first : List ListPart) (second : Option (List ListPart)) : Exchange :=
  let source := m.source first
  let nothing := Exchange.flags []
  match second with
  | none =>
    let chosen := Exchange.flags source
    ⟨allChars.toArray, if m.drops then chosen else nothing, if m.squeezes && !m.drops then chosen else nothing⟩
  | some parts =>
    let images := charsOf (filledUp source.length parts)
    if m.drops then ⟨allChars.toArray, Exchange.flags source, Exchange.flags images⟩
    else
      let padding :=
        if m.truncates then [] else List.replicate (source.length - images.length) (images.getLastD ' ')
      ⟨Exchange.tableOf (source.zip (images ++ padding)), nothing,
        if m.squeezes then Exchange.flags images else nothing⟩

def listOf (text : Chars) : Effort (List ListPart) := do
  let (chars, said) := listedChars (text.length + 1) text
  said.forM fun words => Util.complain words
  Effort.insist 1 (·.words) (listedParts (chars.length + 1) chars)

def tr : Applet :=
  withOptions (optionsOf "AcCdst" "delete=d squeeze-repeats=s complement=c truncate-set1=t") false 1 fun p => do
  let m : ExchangeManner := ⟨p.has "c" || p.has "C", p.has "d", p.has "s", p.has "t"⟩
  let least := if m.drops = m.squeezes then 2 else 1
  let most := if m.drops && !m.squeezes then 1 else 2
  let count := p.operands.length
  if count = 0 then missing "missing operand"
  else if count < least then
    missing ("missing operand after " ++ quoted (p.operands.getLastD []) ++ '\n' ::
      (if m.squeezes then "Two strings must be given when both deleting and squeezing repeats."
        else "Two strings must be given when translating.").toList)
  else if most < count then
    missing ("extra operand " ++ quoted (p.operands.getD most []) ++
      (if count = 2 then
        "\nOnly one string may be given when deleting without squeezing repeats.".toList else []))
  else
    Effort.status do
    let first ← listOf (p.operands.headD [])
    let second ← p.operands.tail.head?.mapM listOf
    (listConflict m first second).forM fun words => Effort.refuse 1 words
    let e := exchangeOf m first second
    let isSqueezing := e.squeezed.contains true
    let (fault, _) ← forEachBlock (fun (last : Option Char) block => do
      let text := e.apply last block
      Util.print text
      return if isSqueezing then text.getLast? <|> last else none) 0 Act.patience none
    fault.forM fun f => Effort.refuse 1 ("read error: " ++ f.text)
    return 0

end Prune.Utility
