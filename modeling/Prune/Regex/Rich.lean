import Prune.Text.CharClass

/-!
Expressions that are matched by trying one choice after the other, in the order in which they are
written. They can look ahead and back, and forbid to come back to a choice.
-/

namespace Prune

inductive RichAnchor where
  | textStart | textEnd | lastEnd | lineStart | lineEnd | boundary | noBoundary

/-- Which number of times is tried first; with `final` no other one is tried. -/
inductive Eagerness where
  | most | fewest | final
deriving DecidableEq

inductive Rich where
  | empty
  | char (c : Char) (folds : Bool)
  | any (all : Bool)
  | set (s : CharSet) (folds : Bool)
  | anchor (a : RichAnchor)
  | cat (first second : Rich)
  | alt (first second : Rich)
  | times (r : Rich) (least : Nat) (most : Option Nat) (eager : Eagerness)
  | group (number : Nat) (r : Rich)
  | again (number : Nat) (folds : Bool)
  | ahead (negated : Bool) (r : Rich)
  | behind (negated : Bool) (r : Rich)
  /-- No choice within it is made anew. -/
  | atomic (r : Rich)
  /-- The match starts here. -/
  | keep

namespace Rich

structure Marks where
  start : Nat
  groups : List (Nat × Nat × Nat)

structure Setting where
  text : Array Char
  wide : Bool

def isWord (c : Option Char) : Bool := c.any fun c => c.isAlphanum || c = '_'

variable (s : Setting)

def holdsAt (a : RichAnchor) (i : Nat) : Bool :=
  let size := s.text.size
  let before := if i = 0 then none else s.text[i - 1]?
  let here := s.text[i]?
  match a with
  | .textStart => i = 0
  | .textEnd => i = size
  | .lastEnd => i = size || (i + 1 = size && here = some '\n')
  | .lineStart => i = 0 || before = some '\n'
  | .lineEnd => i = size || here = some '\n'
  | .boundary => isWord before != isWord here
  | .noBoundary => isWord before == isWord here

abbrev Rest := Nat → Marks → Option (Nat × Marks)

def repeatsAt (folds : Bool) (a b i : Nat) : Bool :=
  let size := b - a
  i + size ≤ s.text.size && (List.range size).all fun d =>
    let (x, y) := (s.text.getD (a + d) ' ', s.text.getD (i + d) ' ')
    x = y || (folds && Case.isSame s.wide x y)

/-- Matches from a place on, each choice in turn, until the rest matches too; where it ends, and what was
found. The fuel bounds how deep choices stand in each other. -/
def follow : Nat → Rich → Nat → Marks → Rest → Option (Nat × Marks)
  | 0, _, _, _, _ => none
  | n + 1, r, i, g, k =>
    let one (holds : Char → Bool) : Option (Nat × Marks) :=
      s.text[i]?.bind fun c => if holds c then k (i + 1) g else none
    let looked (negated : Bool) (found : Option (Nat × Marks)) : Option (Nat × Marks) :=
      match found, negated with
      | some (_, h), false => k i h
      | none, true => k i g
      | _, _ => none
    let whole (r : Rich) : Option (Nat × Marks) := follow n r i g fun j h => some (j, h)
    match r with
    | .empty => k i g
    | .char c folds => one fun x => x = c || (folds && Case.isSame s.wide x c)
    | .any all => one fun x => (all || x ≠ '\n') && !Letters.isStray x
    | .set cs folds => one fun x => if folds then cs.holdsFolded s.wide x else cs.holds x
    | .anchor a => if holdsAt s a i then k i g else none
    | .cat r t => follow n r i g fun j h => follow n t j h k
    | .alt r t => follow n r i g k <|> follow n t i g k
    | .group number r => follow n r i g fun j h => k j { h with groups := (number, i, j) :: h.groups }
    | .again number folds => do
      let (_, a, b) ← g.groups.find? (·.1 = number)
      if repeatsAt s folds a b i then k (i + (b - a)) g else none
    | .ahead negated r => looked negated (whole r)
    | .behind negated r =>
      looked negated ((List.range (i + 1)).reverse.findSome? fun j =>
        follow n r j g fun e h => if e = i then some (e, h) else none)
    | .atomic r => (whole r).bind fun (j, h) => k j h
    | .keep => k i { g with start := i }
    | .times r least most eager =>
      if most = some 0 then k i g
      else
        match eager with
        | .final => (whole (.times r least most .most)).bind fun (j, h) => k j h
        | eager =>
          let more (_ : Unit) : Option (Nat × Marks) :=
            follow n r i g fun j h =>
              if j = i && least = 0 then none
              else follow n (.times r (least - 1) (most.map (· - 1)) eager) j h k
          if least > 0 then more ()
          else if eager = .fewest then k i g <|> more ()
          else more () <|> k i g

def depthFor (size : Nat) : Nat := 100000 + 1000 * size

def matchAt (r : Rich) (wide : Bool) (text : Array Char) (i : Nat) : Option (Nat × Nat) :=
  (follow ⟨text, wide⟩ (depthFor text.size) r i ⟨i, []⟩ fun j g => some (j, g)).map fun (j, g) => (g.start, j)

def searchFrom (r : Rich) (wide : Bool) (text : Array Char) : Nat → Nat → Option (Nat × Nat)
  | 0, _ => none
  | n + 1, i =>
    matchAt r wide text i <|> searchFrom r wide text n (i + 1)

def match? (r : Rich) (wide : Bool) (text : Array Char) (i : Nat) : Option (Nat × Nat) :=
  searchFrom r wide text (text.size + 1 - i) i

end Rich

end Prune

/-!
Rich expressions as they are written.
-/

namespace Prune.Rich

/-- How what is read is meant, which can change within an expression. -/
structure Flags where
  folds : Bool
  /-- A point takes line ends too. -/
  all : Bool
  /-- Lines start and end within the text. -/
  lines : Bool

structure Reading where
  rest : Chars
  flags : Flags
  groups : Nat
  spoken : List Nat

abbrev Read := StateT Reading (Except String)

def digitSet : List CharRange := [.between '0' '9']

def wordMembers : List CharRange := [.between 'a' 'z', .between 'A' 'Z', .between '0' '9', .between '_' '_']

def spaceMembers : List CharRange := [.between ' ' ' ', .between '\t' '\x0d']

def otherMembers (ms : List CharRange) : List CharRange :=
  let ranges := (ms.filterMap fun
    | .between low high => some (low.toNat, high.toNat)
    | .named .. => none).mergeSort fun a b => a.1 ≤ b.1
  let (last, out) := ranges.foldl (fun (next, out) (low, high) =>
    if next < low then (high + 1, (next, low - 1) :: out) else (max next (high + 1), out)) (0, [])
  (((last, 0x10FEFF) :: out).reverse.filter fun (low, high) => low ≤ high).map fun (low, high) =>
    .between (Char.ofNat low) (Char.ofNat high)

def classLetter? : Char → Option (List CharRange)
  | 'd' => some digitSet
  | 'D' => some (otherMembers digitSet)
  | 'w' => some wordMembers
  | 'W' => some (otherMembers wordMembers)
  | 's' => some spaceMembers
  | 'S' => some (otherMembers spaceMembers)
  | _ => none

/-- A character that is written by its number or its letter, behind a backslash; and what follows. -/
def escapedChar? (c : Char) (rest : Chars) : Except String (Option (Char × Chars)) :=
  match c with
  | 'e' => .ok (some ('\x1b', rest))
  | 'x' =>
    match rest with
    | '\x7b' :: more =>
      match more.span (Chars.isDigitOf 16) with
      | (digits, '\x7d' :: rest) =>
        if digits.isEmpty then .error "digits missing in \\x\x7b\x7d or \\o\x7b\x7d or \\N\x7bU+\x7d"
        else .ok (some (Char.ofNat (Chars.valueIn 16 digits), rest))
      | _ => .error "non-hex character in \\x\x7b\x7d (closing brace missing?)"
    | rest =>
      let digits := Chars.digitsIn 16 2 rest
      .ok (some (Char.ofNat (Chars.valueIn 16 digits), rest.drop digits.length))
  | '0' =>
    let digits := Chars.digitsIn 8 2 rest
    .ok (some (Char.ofNat (Chars.valueIn 8 digits), rest.drop digits.length))
  | c =>
    if "afnrt".contains c then .ok ((Chars.control? c).map (·, rest))
    else if c.isAlphanum then .ok none
    else .ok (some (c, rest))

def nameUpTo (close : Char) (text : Chars) : Option (Chars × Chars) :=
  match text.span (· ≠ close) with
  | (name, _ :: rest) => some (name, rest)
  | (_, []) => none

inductive Element where
  | char (c : Char)
  | members (ms : List CharRange)

variable (text : Chars)

def element : Except String (Element × Chars) := do
  match text with
  | [] => .error "missing terminating ] for character class"
  | ['\\'] => .error "\\ at end of pattern"
  | '\\' :: c :: rest =>
    match classLetter? c with
    | some ms => return (.members ms, rest)
    | none =>
      if c = 'b' then return (.char '\x08', rest)
      else if c.isDigit then
        let digits := Chars.digitsIn 8 3 (c :: rest)
        if digits.isEmpty then return (.char c, rest)
        else return (.char (Char.ofNat (Chars.valueIn 8 digits)), (c :: rest).drop digits.length)
      else
        match ← escapedChar? c rest with
        | some (c, rest) => return (.char c, rest)
        | none => .error "unrecognized character follows \\"
  | '[' :: ':' :: rest =>
    match nameUpTo ':' rest with
    | some (name, ']' :: rest) =>
      let (negated, name) := match name with
        | '^' :: name => (true, name)
        | name => (false, name)
      let ms : Option (List CharRange) := if name = "word" then some wordMembers
        else if name = "ascii" then some [.between '\x00' '\x7f']
        else (CharClass.ofName? name).map fun k =>
          (((List.range 128).map Char.ofNat).filter (k.holds false)).map fun c => .between c c
      match ms with
      | some ms => return (.members (if negated then otherMembers ms else ms), rest)
      | none => .error "unknown POSIX class name"
    | _ => return (.char '[', ':' :: rest)
  | c :: rest => return (.char c, rest)

def elements : Nat → Bool → Chars → Except String (List CharRange × Chars)
  | 0, _, _ => .error "missing terminating ] for character class"
  | n + 1, first, text => do
    match text with
    | ']' :: rest => if first then more n text else return ([], rest)
    | text => more n text
where
  more (n : Nat) (text : Chars) : Except String (List CharRange × Chars) := do
    let goOn (ms : List CharRange) (rest : Chars) : Except String (List CharRange × Chars) := do
      let (others, rest) ← elements n false rest
      return (ms ++ others, rest)
    match ← element text with
    | (.members ms, rest) => goOn ms rest
    | (.char low, '-' :: rest) =>
      if rest.head? = some ']' then goOn [.between low low] ('-' :: rest)
      else
        match ← element rest with
        | (.char high, rest) =>
          if high < low then .error "range out of order in character class"
          else goOn [.between low high] rest
        | (.members ms, rest) => goOn (.between low low :: .between '-' '-' :: ms) rest
    | (.char c, rest) => goOn [.between c c] rest

def setAt : Except String (CharSet × Chars) := do
  let (negated, text) := match text with
    | '^' :: rest => (true, rest)
    | text => (false, text)
  let (ms, rest) ← elements (text.length + 2) true text
  return (⟨negated, ms⟩, rest)

def interval? : Option (Nat × Option Nat × Chars) :=
  let (low, rest) := text.span Char.isDigit
  match Chars.toNat? low, rest with
  | some n, '\x7d' :: rest => some (n, some n, rest)
  | some n, ',' :: more =>
    match more.span Char.isDigit with
    | (high, '\x7d' :: rest) => some (n, Chars.toNat? high, rest)
    | _ => none
  | _, _ => none

/-- The length of all that an expression can match, if it is always the same. -/
def fixedLength? : Rich → Option Nat
  | .empty | .anchor _ | .keep | .ahead .. | .behind .. => some 0
  | .char .. | .any _ | .set .. => some 1
  | .cat r s => do return (← fixedLength? r) + (← fixedLength? s)
  | .alt r s => do
    let a ← fixedLength? r
    let b ← fixedLength? s
    if a = b then some a else none
  | .times r least most _ => do
    let a ← fixedLength? r
    if most = some least then some (a * least) else none
  | .group _ r | .atomic r => fixedLength? r
  | .again .. => none

def isMeasured : Rich → Bool
  | .alt r s => isMeasured r && isMeasured s
  | .group _ r => isMeasured r
  | r => (fixedLength? r).isSome

def flagsFrom (on : Bool) : Chars → Flags → Option (Flags × Chars)
  | 'i' :: rest, f => flagsFrom on rest { f with folds := on }
  | 's' :: rest, f => flagsFrom on rest { f with all := on }
  | 'm' :: rest, f => flagsFrom on rest { f with lines := on }
  | '-' :: rest, f => if on then flagsFrom false rest f else none
  | ')' :: rest, f => some (f, ')' :: rest)
  | ':' :: rest, f => some (f, ':' :: rest)
  | _, _ => none

def advance (rest : Chars) : Read Unit := modify fun s => { s with rest }

def speak (number : Nat) : Read Unit := modify fun s => { s with spoken := number :: s.spoken }

def escape : Read Rich := do
  let s ← get
  let folds := s.flags.folds
  let done (r : Rich) (rest : Chars) : Read Rich := do
    advance rest
    return r
  let c :: rest := text | throw "\\ at end of pattern"
  match classLetter? c with
  | some ms => done (.set ⟨false, ms⟩ false) rest
  | none =>
    match c with
    | 'N' => done (.any false) rest
    | 'b' => done (.anchor .boundary) rest
    | 'B' => done (.anchor .noBoundary) rest
    | 'A' => done (.anchor .textStart) rest
    | 'z' => done (.anchor .textEnd) rest
    | 'Z' => done (.anchor .lastEnd) rest
    | 'K' => done .keep rest
    | c =>
      if c.isDigit && c ≠ '0' then
        let (digits, others) := text.span Char.isDigit
        let number := Chars.valueIn 10 digits
        if number < 10 || number ≤ s.groups then
          speak number
          done (.again number folds) others
        else
          let octal := Chars.digitsIn 8 3 text
          if octal.isEmpty then throw "reference to non-existent subpattern"
          else done (.char (Char.ofNat (Chars.valueIn 8 octal)) folds) (text.drop octal.length)
      else
        match ← escapedChar? c rest with
        | some (c, rest) => done (.char c folds) rest
        | none => throw "unrecognized character follows \\"

def timesAt : Option (Nat × Option Nat × Chars) :=
  match text with
  | '*' :: rest => some (0, none, rest)
  | '+' :: rest => some (1, none, rest)
  | '?' :: rest => some (0, some 1, rest)
  | '\x7b' :: rest => interval? rest
  | _ => none

def withTimes (r : Rich) (canRepeat : Bool) : Read Rich := do
  let s ← get
  let some (least, most, rest) := timesAt s.rest | return r
  if !canRepeat then throw "quantifier does not follow a repeatable item"
  else if least > 65535 || most.any (· > 65535) then throw "number too big in \x7b\x7d quantifier"
  else if most.any (· < least) then throw "numbers out of order in \x7b\x7d quantifier"
  else
    let (eager, rest) : Eagerness × Chars := match rest with
      | '?' :: rest => (.fewest, rest)
      | '+' :: rest => (.final, rest)
      | rest => (.most, rest)
    advance rest
    return .times r least most eager

mutual

def alternatives : Nat → Read Rich
  | 0 => throw "regular expression is too large"
  | n + 1 => do
    let first ← branch n
    match (← get).rest with
    | '|' :: rest =>
      advance rest
      return .alt first (← alternatives n)
    | _ => return first

def branch : Nat → Read Rich
  | 0 => throw "regular expression is too large"
  | n + 1 => do
    match (← get).rest with
    | [] | '|' :: _ | ')' :: _ => return .empty
    | _ =>
      let (r, canRepeat) ← atom n
      let r ← withTimes r canRepeat
      let more ← branch n
      return match r, more with
        | .empty, more => more
        | r, .empty => r
        | r, more => .cat r more

/-- One expression without what says how often it comes, and whether that may be said. -/
def atom : Nat → Read (Rich × Bool)
  | 0 => throw "regular expression is too large"
  | n + 1 => do
    let s ← get
    let f := s.flags
    let taken (rest : Chars) (r : Rich) : Read (Rich × Bool) := do
      advance rest
      return (r, true)
    match s.rest with
    | [] => return (.empty, false)
    | '.' :: rest => taken rest (.any f.all)
    | '^' :: rest => taken rest (.anchor (if f.lines then .lineStart else .textStart))
    | '$' :: rest => taken rest (.anchor (if f.lines then .lineEnd else .lastEnd))
    | '[' :: rest =>
      let (members, rest) ← setAt rest
      taken rest (.set members f.folds)
    | '\\' :: rest => return (← escape rest, true)
    | '(' :: '?' :: rest => special n rest
    | '(' :: rest =>
      let number := s.groups + 1
      modify fun s => { s with rest, groups := number }
      return (.group number (← inner n), true)
    | c :: rest =>
      if (timesAt s.rest).isSome then throw "quantifier does not follow a repeatable item"
      else taken rest (.char c f.folds)

def inner : Nat → Read Rich
  | 0 => throw "regular expression is too large"
  | n + 1 => do
    let flags := (← get).flags
    let r ← alternatives n
    match (← get).rest with
    | ')' :: rest =>
      modify fun s => { s with rest, flags }
      return r
    | _ => throw "missing closing parenthesis"

def special : Nat → Chars → Read (Rich × Bool)
  | 0, _ => throw "regular expression is too large"
  | n + 1, text => do
    let within (rest : Chars) (f : Rich → Rich) : Read (Rich × Bool) := do
      advance rest
      return (f (← inner n), true)
    let back (negated : Bool) (rest : Chars) : Read (Rich × Bool) := do
      advance rest
      let r ← inner n
      if isMeasured r then return (.behind negated r, true)
      else throw "lookbehind assertion is not fixed length"
    match text with
    | ':' :: rest => within rest id
    | '>' :: rest => within rest .atomic
    | '=' :: rest => within rest (.ahead false)
    | '!' :: rest => within rest (.ahead true)
    | '<' :: '=' :: rest => back false rest
    | '<' :: '!' :: rest => back true rest
    | '#' :: rest =>
      let some (_, rest) := nameUpTo ')' rest | throw "missing ) after (?# comment"
      advance rest
      return (.empty, false)
    | text =>
      match flagsFrom true text (← get).flags with
      | some (flags, ')' :: rest) =>
        modify fun s => { s with rest, flags }
        return (.empty, false)
      | some (flags, _ :: rest) =>
        let old := (← get).flags
        modify fun s => { s with rest, flags }
        let r ← inner n
        modify fun s => { s with flags := old }
        return (r, true)
      | _ => throw "unrecognized character after (? or (?-"

end

def parse (folds : Bool) (text : Chars) : Except String Rich := do
  let fuel := 8 * text.length + 16
  let (r, s) ← (alternatives fuel).run ⟨text, ⟨folds, false, false⟩, 0, []⟩
  match s.rest with
  | [] =>
    if s.spoken.any (· > s.groups) then .error "reference to non-existent subpattern"
    else return r
  | _ => .error "unmatched closing parenthesis"

end Prune.Rich
