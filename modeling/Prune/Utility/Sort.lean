import Prune.Text.Decimal
import Prune.Utility.Amount
import Prune.Utility.Source

/-!
The order of names with numbers in them. Rows of digits count by their value, so that `x9` comes
before `x10`, and the endings of names count only where all else is the same.
-/

namespace Prune.Version

/-- Names that come before all others, in their order: no name, the directory itself, the one above it,
and the hidden ones. -/
def rank (name : Chars) : Nat :=
  match name with
  | [] => 0
  | ['.'] => 1
  | ['.', '.'] => 2
  | '.' :: _ => 3
  | _ => 4

def isEndings : Nat → Chars → Bool
  | 0, _ => false
  | _, [] => true
  | n + 1, '.' :: c :: rest =>
    (c.isAlpha || c = '~') && isEndings n (rest.dropWhile fun d => d.isAlphanum || d = '~')
  | _, _ => false

def stem (name : Chars) : Chars :=
  match name with
  | [] => []
  | c :: rest =>
    match (List.range rest.length).find? fun i => isEndings (rest.length + 1) (rest.drop i) with
    | some i => c :: rest.take i
    | none => name

/-- Where a character stands in the order. What ends a text comes behind a tilde and before all else,
and letters come before other signs. -/
def weight : Option Char → Nat
  | some '~' => 0
  | none => 1
  | some c => if c.isDigit then 2 else if c.isAlpha then 3 + c.toNat else 300 + c.toNat

def compareWords (a b : Chars) : Ordering :=
  (List.range (max a.length b.length)).foldl (fun o i => o.then (compare (weight a[i]?) (weight b[i]?))) .eq

def compareParts : Nat → Chars → Chars → Ordering
  | 0, _, _ => .eq
  | n + 1, a, b =>
    if a.isEmpty && b.isEmpty then .eq
    else
      let wordA := a.takeWhile (!·.isDigit)
      let wordB := b.takeWhile (!·.isDigit)
      -- A word that ends earlier is compared with the digit that follows it.
      let longer := max wordA.length wordB.length
      let words := compareWords (a.take longer) (b.take longer)
      if words ≠ .eq then words
      else
        let a := a.drop wordA.length
        let b := b.drop wordB.length
        let digitsA := a.takeWhile Char.isDigit
        let digitsB := b.takeWhile Char.isDigit
        (compare ((Chars.toNat? digitsA).getD 0) ((Chars.toNat? digitsB).getD 0)).then
          (compareParts n (a.drop digitsA.length) (b.drop digitsB.length))

def compareNames (a b : Chars) : Ordering :=
  let ranks := compare (rank a) (rank b)
  if ranks ≠ .eq || rank a < 3 then ranks
  else
    let fuel := a.length + b.length + 1
    (compareParts fuel (stem a) (stem b)).then (compareParts fuel a b)

end Prune.Version

/-!
Lines in order. A line is compared by its keys, each a part of the line with an order of its own, and
lines with equal keys are compared as a whole.
-/

namespace Prune.Utility

open Host Util Effort

inductive KeySense where
  | letters
  /-- Whole numbers and their places. -/
  | numbers
  /-- All that can be written as a floating-point number. -/
  | generalNumbers
  /-- Numbers with units. -/
  | humanNumbers
  | months
  | versions
  /-- An order that is as good as any. -/
  | shuffled
deriving DecidableEq

inductive KeyFilter where
  | all
  /-- Blanks, letters and digits. -/
  | dictionary
  | printable
deriving DecidableEq

/-- How the texts of a key are compared. The `senses` that are given are all kept, since some of them
do not go together. -/
structure KeyOrder where
  senses : List KeySense := []
  filter : KeyFilter := .all
  folds : Bool := false
  reversed : Bool := false
  skipsStart : Bool := false
  skipsEnd : Bool := false
deriving DecidableEq

def KeySense.ofLetter? : Char → Option KeySense
  | 'n' => some .numbers
  | 'g' => some .generalNumbers
  | 'h' => some .humanNumbers
  | 'V' => some .versions
  | 'M' => some .months
  | 'R' => some .shuffled
  | _ => none

inductive KeyPlace where
  | first | last | both
deriving DecidableEq

namespace KeyOrder

def adding (o : KeyOrder) (place : KeyPlace) : Char → Option KeyOrder
  | 'f' => some { o with folds := true }
  | 'd' => some { o with filter := .dictionary }
  | 'i' => some (if o.filter = .all then { o with filter := .printable } else o)
  | 'r' => some { o with reversed := true }
  | 'b' => some
      { o with
        skipsStart := o.skipsStart || place ≠ .last
        skipsEnd := o.skipsEnd || place ≠ .first }
  | c => (KeySense.ofLetter? c).map fun s => { o with senses := s :: o.senses }

def reading (place : KeyPlace) : KeyOrder → Chars → KeyOrder × Chars
  | o, [] => (o, [])
  | o, c :: rest =>
    match o.adding place c with
    | some o => reading place o rest
    | none => (o, c :: rest)

def isDefault (o : KeyOrder) : Bool := { o with reversed := false } = ({} : KeyOrder)

def conflict? (o : KeyOrder) : Option Chars :=
  let has (s : KeySense) : Bool := o.senses.contains s
  let loose := has .versions || has .shuffled || o.filter ≠ .all
  let kinds := [has .numbers, has .generalNumbers, has .humanNumbers, has .months, loose].count true
  if kinds ≤ 1 then none
  else some ("dfghiMnRV".toList.filter fun
    | 'd' => o.filter = .dictionary
    | 'f' => o.folds
    | 'i' => o.filter = .printable
    | c => (KeySense.ofLetter? c).any has)

end KeyOrder

/-- A place behind the start of a line: so many fields and then so many characters. -/
structure LinePlace where
  fields : Nat
  chars : Nat

/-- A part of a line: from its start or a place on, up to a place or the end of the line. -/
structure SortKey where
  start : Option LinePlace
  /-- Without characters the place is the end of the field that follows. -/
  stop : Option LinePlace
  order : KeyOrder

def isBlank (c : Char) : Bool := c = ' ' || c = '\t' || c = '\n'

def skipFields (sep : Option Char) : Nat → Chars → Chars
  | 0, text => text
  | n + 1, text =>
    match sep with
    | some c => skipFields sep n ((text.dropWhile (· ≠ c)).drop 1)
    | none => skipFields sep n ((text.dropWhile isBlank).dropWhile (!isBlank ·))

def fieldEnd (sep : Option Char) (n : Nat) (text : Chars) : Nat :=
  match sep with
  | some c =>
    let rest := skipFields sep n text
    text.length - rest.length + (rest.takeWhile (· ≠ c)).length
  | none => text.length - (skipFields sep (n + 1) text).length

def SortKey.text (k : SortKey) (sep : Option Char) (line : Chars) : Chars :=
  let rest := skipFields sep ((k.start.map (·.fields)).getD 0) line
  let rest := if k.order.skipsStart then rest.dropWhile isBlank else rest
  let rest := rest.drop ((k.start.map (·.chars)).getD 0)
  let start := line.length - rest.length
  let stop := match k.stop with
    | none => line.length
    | some ⟨fields, 0⟩ => fieldEnd sep fields line
    | some ⟨fields, n⟩ =>
      let behind := skipFields sep fields line
      let behind := if k.order.skipsEnd then behind.dropWhile isBlank else behind
      min line.length (line.length - behind.length + n)
  (line.take stop).drop start

variable (text : Chars)

/-- A number at the start of a text: its sign, the digits before and behind the point, and what follows. -/
def numberParts : Bool × Chars × Chars × Chars :=
  let (negative, text) := match text.dropWhile isBlank with
    | '-' :: rest => (true, rest)
    | rest => (false, rest)
  let (whole, rest) := text.span Char.isDigit
  match rest with
  | '.' :: rest => (negative, whole, rest.span Char.isDigit)
  | rest => (negative, whole, [], rest)

/-- A number at the start of a text: its sign, its whole part, and the digits behind the point without
the zeros at their end. -/
def leadingNumber : Bool × Nat × Chars :=
  let (negative, whole, part, _) := numberParts text
  let part := Chars.trimEnd (· = '0') part
  let n := (Chars.toNat? whole).getD 0
  (negative && !(n = 0 && part.isEmpty), n, part)

def compareChars (a b : Chars) : Ordering := if a = b then .eq else if Chars.le a b then .lt else .gt

def compareNumbers (a b : Bool × Nat × Chars) : Ordering :=
  let size (x y : Bool × Nat × Chars) : Ordering := (compare x.2.1 y.2.1).then (compareChars x.2.2 y.2.2)
  match a.1, b.1 with
  | false, false => size a b
  | true, true => size b a
  | true, false => .lt
  | false, true => .gt

def unitRank : Int :=
  let (negative, whole, part, rest) := numberParts text
  let rank : Int :=
    match (whole ++ part).all (· = '0'), rest with
    | true, _ | _, [] | _, 'm' :: _ | _, 'g' :: _ | _, 't' :: _ => 0
    | false, c :: _ => (unitPower? c).getD 0
  if negative then -rank else rank

/-- A number in any notation, in the order they are put in: what is no number comes first. -/
inductive General where
  | none
  | undefined
  | infinite (negative : Bool)
  | number (w : Decimal.Written)

namespace General

def largestPower : Int := 5000

def ofText (text : Chars) : General :=
  let text := text.dropWhile isBlankOrBreak
  let (negative, rest) := Chars.signed text
  let low := (rest.take 3).map Char.toLower
  if low = "inf" then .infinite negative
  else if low = "nan" then .undefined
  else
    match leadingDigits true rest with
    | (some n, _) => if low.take 2 = "0x" then .number ⟨negative, n, 0⟩ else decimal text
    | _ => decimal text
where
  decimal (text : Chars) : General :=
    match Decimal.written? text with
    | Option.none => .none
    | some (w, _) =>
      let size := w.power + (Nat.toDigits 10 w.digits).length
      if w.digits = 0 then .number ⟨false, 0, 0⟩
      else if size > largestPower then .infinite w.negative
      else if size < -largestPower then .number ⟨false, 0, 0⟩
      else .number w

def scaled (w : Decimal.Written) (power : Int) : Int :=
  let n : Int := w.digits * 10 ^ (w.power - power).toNat
  if w.negative then -n else n

def rank : General → Nat
  | .none => 0
  | .undefined => 1
  | .infinite true => 2
  | .number _ => 3
  | .infinite false => 4

def order (a b : General) : Ordering :=
  match a, b with
  | .number v, .number w =>
    let power := min v.power w.power
    compare (scaled v power) (scaled w power)
  | a, b => compare a.rank b.rank

end General

def monthOf : Nat :=
  let name := ((text.dropWhile isBlank).take 3).map Char.toUpper
  (["", "JAN", "FEB", "MAR", "APR", "MAY", "JUN", "JUL", "AUG", "SEP", "OCT", "NOV", "DEC"].findIdx?
    (·.toList = name)).getD 0

def KeyOrder.seen (o : KeyOrder) (text : Chars) : Chars :=
  let text := match o.filter with
    | .all => text
    | .dictionary => text.filter fun c => isBlank c || c.isAlphanum
    | .printable => text.filter fun c => ' ' ≤ c && c ≤ '~'
  if o.folds then text.map Char.toUpper else text

def KeyOrder.compare (o : KeyOrder) (a b : Chars) : Ordering :=
  let a := o.seen a
  let b := o.seen b
  let has (s : KeySense) : Bool := o.senses.contains s
  let result :=
    if has .numbers then compareNumbers (leadingNumber a) (leadingNumber b)
    else if has .generalNumbers then General.order (.ofText a) (.ofText b)
    else if has .humanNumbers then
      (Ord.compare (unitRank a) (unitRank b)).then (compareNumbers (leadingNumber a) (leadingNumber b))
    else if has .months then Ord.compare (monthOf a) (monthOf b)
    else if has .shuffled then compareChars a.reverse b.reverse
    else if has .versions then Version.compareNames a b
    else compareChars a b
  if o.reversed then result.swap else result

structure LineOrder where
  keys : List SortKey
  separator : Option Char
  reversed : Bool
  stable : Bool
  unique : Bool

namespace LineOrder

variable (o : LineOrder)

def byKeys (a b : Chars) : Ordering :=
  o.keys.foldl (fun r k =>
    if r ≠ .eq then r else k.order.compare (k.text o.separator a) (k.text o.separator b)) .eq

def compare (a b : Chars) : Ordering :=
  let keyed := o.byKeys a b
  if keyed ≠ .eq || ((o.stable || o.unique) && !o.keys.isEmpty) then keyed
  else
    let all := compareChars a b
    if o.reversed then all.swap else all

def atMost (a b : Chars) : Bool := o.compare a b ≠ .gt

def distinct : Option Chars → List Chars → List Chars
  | _, [] => []
  | last, line :: rest =>
    if last.any fun l => o.compare l line = .eq then distinct last rest
    else line :: distinct (some line) rest

def sort (lines : List Chars) : List Chars :=
  let sorted := lines.mergeSort o.atMost
  if o.unique then o.distinct none sorted else sorted

def merge (lists : List (List Chars)) : List Chars :=
  let merged := lists.foldl (fun all next => all.merge next o.atMost) []
  if o.unique then o.distinct none merged else merged

def disorder? : Nat → List Chars → Option (Nat × Chars)
  | n, a :: b :: rest =>
    let r := o.compare a b
    if r = .gt || (o.unique && r = .eq) then some (n + 1, b) else disorder? (n + 1) (b :: rest)
  | _, _ => none

end LineOrder

def keyCount (words : String) (text : Chars) : Except Chars (Nat × Chars) :=
  let (digits, rest) := text.span Char.isDigit
  match Chars.toNat? digits with
  | some n => .ok (n, rest)
  | none => .error (words.toList ++ ": invalid count at start of " ++ quoted text)

def charCount (usual : Nat) (text : Chars) : Except Chars (Nat × Chars) :=
  match text with
  | '.' :: more => keyCount "invalid number after '.'" more
  | _ => .ok (usual, text)

def sortKey : Except Chars SortKey := do
  let check (isRight : Bool) (words : String) : Except Chars Unit :=
    if isRight then .ok () else .error (words.toList ++ ": invalid field specification " ++ quoted text)
  let (field, rest) ← keyCount "invalid number at field start" text
  check (field ≠ 0) "field number is zero"
  let (char, rest) ← charCount 1 rest
  check (char ≠ 0) "character offset is zero"
  let start := if field = 1 && char = 1 then none else some ⟨field - 1, char - 1⟩
  let (order, rest) := KeyOrder.reading .first {} rest
  let (stop, order, rest) ← match rest with
    | ',' :: more => do
      let (field, rest) ← keyCount "invalid number after ','" more
      check (field ≠ 0) "field number is zero"
      let (char, rest) ← charCount 0 rest
      pure (some ⟨field - 1, char⟩, order.reading .last rest)
    | rest => pure (none, order, rest)
  check rest.isEmpty "stray character in field spec"
  return ⟨start, stop, order⟩

structure SortPlan where
  whole : KeyOrder := {}
  keys : List SortKey := []
  separator : Option Char := none
  output : Option Chars := none
  /-- Whether the order is only checked, by a letter that tells whether a failure is told. -/
  check : Option Char := none

namespace SortPlan

def incompatible (letters : Chars) : Chars := "options '-" ++ letters ++ "' are incompatible"

variable (s : SortPlan)

def withSeparator (value : Chars) : Except Chars SortPlan := do
  let sep ← match value with
    | [] => .error "empty tab"
    | [c] => .ok c
    | ['\\', '0'] => .ok '\x00'
    | _ => .error ("multi-character tab " ++ quoted value)
  if s.separator.any (· ≠ sep) then .error "incompatible tabs"
  else return { s with separator := some sep }

def senseWords : List (String × Char) :=
  [("general-numeric", 'g'), ("human-numeric", 'h'), ("month", 'M'), ("numeric", 'n'), ("random", 'R'),
    ("version", 'V')]

def withCheck (letter : Char) : Except Chars SortPlan :=
  if s.check.any (· ≠ letter) then .error (incompatible ['c', 'C'])
  else .ok { s with check := some letter }

def adding (g : Given) : Except Chars SortPlan :=
  match g.key with
  | "k" => do return { s with keys := s.keys ++ [← sortKey g.value] }
  | "t" => s.withSeparator g.value
  | "o" =>
    if s.output.any (· ≠ g.value) then .error "multiple output files specified"
    else .ok { s with output := some g.value }
  | "c" => s.withCheck (if g.value.isEmpty || "diagnose-first".toList.take g.value.length = g.value then 'c'
      else 'C')
  | "C" => s.withCheck 'C'
  | "sort" =>
    let letter := (senseWords.find? fun (w, _) => g.value.isPrefixOf w.toList).map (·.2)
    .ok { s with whole := (letter.bind (s.whole.adding .both)).getD s.whole }
  | key =>
    match key.toList with
    | [c] => .ok { s with whole := (s.whole.adding .both c).getD s.whole }
    | _ => .ok s

def finalKeys : List SortKey :=
  if s.keys.isEmpty then if s.whole.isDefault then [] else [⟨none, none, s.whole⟩]
  else s.keys.map fun k => if k.order = {} then { k with order := s.whole } else k

end SortPlan

def linesAt (mark : Char) (text : Chars) : List Chars :=
  let parts := Chars.splitAt mark text
  if parts.getLast? = some [] then parts.dropLast else parts

def sortFailure (words : String) (file : Chars) (f : Fault) : Chars :=
  words.toList ++ ": " ++ namedFile file ++ ": " ++ f.text

def readLists (mark : Char) (files : List Chars) : Effort (List (List Chars)) :=
  files.mapM fun file => do
    let words (f : Fault) := sortFailure (if f = .isDirectory then "read failed" else "cannot read") file f
    return linesAt mark (← insist 2 words (← contents file))

def checkReadable (words : String) (files : List Chars) : Effort Unit := do
  let d ← disk
  for file in files do
    if file ≠ ['-'] then
      let _ ← insist 2 (sortFailure words file) (d.stat file)
      if d.read file matches .error .denied then refuse 2 (sortFailure words file .denied)

def besidesList (extra : Chars) : Applet :=
  missing ("extra operand " ++ quotedName extra ++ "\nfile operands cannot be combined with --files0-from")

def sortFiles (p : Parsed) : Effort (List Chars) := do
  let some list := p.value? "files0" | return p.files
  p.operands.head?.forM fun extra => do throw (← besidesList extra)
  let names := linesAt '\x00' (← insist 2 (sortFailure "open failed" list) (← contents list))
  if names.isEmpty then refuse 2 ("no input from " ++ quotedName list) else return names

def sort : Applet :=
  withOptions (optionsOf "bcCdfghik:mMno:rRsS:t:T:uVz" "key=k: numeric-sort=n reverse=r
    unique=u field-separator=t: output=o: stable=s ignore-case=f check=c:: version-sort=V
    ignore-leading-blanks=b general-numeric-sort=g human-numeric-sort=h merge=m month-sort=M random-sort=R
    ignore-nonprinting=i zero-terminated=z dictionary-order=d sort: files0-from=files0: parallel:
    batch-size=batch: buffer-size=S: temporary-directory=T: random-source=source:
    compress-program=compress: debug") true 2 fun p => status do
  let plan ← insist 2 id (p.options.foldlM SortPlan.adding {})
  let files ← sortFiles p
  let keys := plan.finalKeys
  keys.findSome? (·.order.conflict?) |>.forM fun letters => refuse 2 (SortPlan.incompatible letters)
  let order : LineOrder := ⟨keys, plan.separator, plan.whole.reversed, p.has "s", p.has "u"⟩
  let mark := p.mark
  if let some letter := plan.check then
    files.tail.head?.forM fun second =>
      refuse 2 ("extra operand " ++ quotedName second ++ " not allowed with -" ++ [letter])
    if plan.output.isSome then refuse 2 (SortPlan.incompatible [letter, 'o'])
    checkReadable "open failed" files
    let some (n, line) := order.disorder? 1 (← readLists mark files).flatten | return 0
    if letter = 'c' then
      let name := (← readThe Invocation).name
      let _ ← Act.write 2 (name ++ ": " ++ files.headD [] ++ ':' :: Chars.ofNat n ++ ": disorder: " ++ line ++ [mark])
    return 1
  checkReadable "cannot read" files
  let open' (file : Chars) (use : Access) : Effort Nat := do
    insist 2 (sortFailure "open failed" file) (← ask (.open file use 0o666))
  plan.output.forM fun file => do ask (.close (← open' file .overwriting))
  let lists ← readLists mark files
  let inOrder := if p.has "m" then order.merge lists else order.sort lists.flatten
  let text := (inOrder.map (· ++ [mark])).flatten
  match plan.output with
  | none => print text
  | some file => insist 2 (sortFailure "write failed" file) (← Act.write (← open' file .writing) text)
  return 0

end Prune.Utility
