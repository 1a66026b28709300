import Prune.Text.CharClass

/-!
Regular expressions and the texts they match. Of all matches the leftmost counts, and of those the
longest. The ends a match can have are found as a set, so that alternatives do not multiply; what the
groups took is found afterwards, for the end that was chosen.
-/

namespace Prune

inductive Anchor where
  | lineStart | lineEnd | textStart | textEnd | wordStart | wordEnd | boundary | noBoundary
deriving DecidableEq

inductive Regex where
  | empty
  | char (c : Char)
  | any
  | set (s : CharSet)
  | anchor (a : Anchor)
  | cat (first second : Regex)
  | alt (first second : Regex)
  | times (r : Regex) (least : Nat) (most : Option Nat)
  | group (number : Nat) (r : Regex)
  /-- What a group took, once more. -/
  | again (number : Nat)
deriving DecidableEq

namespace Regex

structure Manner where
  /-- Upper and lower case are the same. -/
  folds : Bool
  /-- Lines start and end at line ends inside the text too. -/
  lines : Bool
  wide : Bool := false

def isWordChar (wide : Bool) (c : Char) : Bool := CharClass.alnum.holds wide c || c = '_'

variable (m : Manner) (text : Array Char)

def holdsAt (a : Anchor) (i : Nat) : Bool :=
  let before := if i = 0 then none else text[i - 1]?
  let behind := text[i]?
  let isWord (c : Option Char) : Bool := c.any (isWordChar m.wide)
  match a with
  | .lineStart => i = 0 || (m.lines && before = some '\n')
  | .lineEnd => i = text.size || (m.lines && behind = some '\n')
  | .textStart => i = 0
  | .textEnd => i = text.size
  | .wordStart => !isWord before && isWord behind
  | .wordEnd => isWord before && !isWord behind
  | .boundary => isWord before != isWord behind
  | .noBoundary => isWord before == isWord behind

variable (r : Regex)

def takes (c : Char) : Bool :=
  match r with
  | .char a => a = c || (m.folds && Case.isSame m.wide a c)
  | .any => !Letters.isStray c
  | .set s => if m.folds then s.holdsFolded m.wide c else s.holds c
  | _ => false

def union (a b : List Nat) : List Nat := a ++ b.filter (!a.contains ·)

def closure (step : List Nat → List Nat) : Nat → (seen fresh : List Nat) → List Nat
  | 0, seen, _ => seen
  | n + 1, seen, fresh =>
    let new := (step fresh).filter (!seen.contains ·)
    if new.isEmpty then seen else closure step n (seen ++ new) new

def stepTimes (step : List Nat → List Nat) : Nat → List Nat → List Nat
  | 0, places => places
  | n + 1, places => if places.isEmpty then [] else stepTimes step n (step places)

/-- The places at which a match can end that starts at one of some places. -/
def ends : Regex → List Nat → List Nat
  | .empty, places => places
  | .anchor a, places => places.filter (holdsAt m text a)
  | .cat r s, places =>
    match ends r places with
    | [] => []
    | places => ends s places
  | .alt r s, places => union (ends r places) (ends s places)
  | .group _ r, places => ends r places
  | .times r least most, places =>
    let start := stepTimes (ends r) least places
    match most with
    | none => closure (ends r) (text.size + 1) start start
    | some n => closure (ends r) (n - least) start start
  | .again _, places => places
  | r, places => places.filterMap fun i => if text[i]?.any (takes m r) then some (i + 1) else none

abbrev Groups := List (Nat × Nat × Nat)

abbrev Rest := Nat → Groups → Option Groups

def rounds (step : Nat → Groups → Rest → Option Groups) :
    (fuel least : Nat) → (most : Option Nat) → Nat → Groups → Rest → Option Groups
  | 0, _, _, i, g, k => k i g
  | fuel + 1, least, most, i, g, k =>
    let stop := if least = 0 then k i g else none
    if most = some 0 then k i g
    else
      match step i g fun j h =>
        if j = i then if least = 0 then none else rounds step fuel (least - 1) (most.map (· - 1)) j h k
        else rounds step fuel (least - 1) (most.map (· - 1)) j h k with
      | some found => some found
      | none => stop

/-- Matches from a place on, each choice in turn, until the rest matches too. -/
def follow : Regex → Nat → Groups → Rest → Option Groups
  | .empty, i, g, k => k i g
  | .anchor a, i, g, k => if holdsAt m text a i then k i g else none
  | .cat r s, i, g, k => follow r i g fun j h => follow s j h k
  | .alt r s, i, g, k =>
    match follow r i g k with
    | some found => some found
    | none => follow s i g k
  | .group n r, i, g, k => follow r i g fun j h => k j ((n, i, j) :: h)
  | .times r least most, i, g, k => rounds (follow r) (text.size + least + 2) least most i g k
  | .again n, i, g, k =>
    match g.find? (·.1 = n) with
    | none => none
    | some (_, a, b) =>
      let same (x y : Char) : Bool := x = y || (m.folds && Case.isSame m.wide x y)
      let size := b - a
      if i + size ≤ text.size &&
          (List.range size).all fun d => same (text.getD (a + d) ' ') (text.getD (i + d) ' ') then
        k (i + size) g
      else none
  | r, i, g, k => if text[i]?.any (takes m r) then k (i + 1) g else none

def repeats : Regex → Bool
  | .again _ => true
  | .cat r s | .alt r s => r.repeats || s.repeats
  | .group _ r | .times r _ _ => r.repeats
  | _ => false

structure Match where
  start : Nat
  stop : Nat
  groups : Groups

def endFrom (i : Nat) : Option Nat :=
  if r.repeats then
    (follow m text r i [] fun j g => some ((0, i, j) :: g)).bind fun g => g.head?.map fun (_, _, j) => j
  else
    match ends m text r [i] with
    | [] => none
    | e :: es => some (es.foldl max e)

def searchFrom : Nat → Nat → Option (Nat × Nat)
  | 0, _ => none
  | n + 1, i =>
    match endFrom m text r i with
    | some e => some (i, e)
    | none => searchFrom n (i + 1)

def find? (i : Nat) : Option (Nat × Nat) :=
  searchFrom m text r (text.size + 1 - i) i

def match? (i : Nat) : Option Match :=
  (find? m text r i).map fun (a, b) =>
    let groups := follow m text r a [] fun j g => if j = b then some g else none
    ⟨a, b, groups.getD []⟩

def matchesIn (text : Chars) : Bool := (find? m text.toArray r 0).isSome

end Regex

end Prune

/-!
Regular expressions as they are written: basic ones, in which most operators take a backslash, and
extended ones.
-/

namespace Prune.Regex

structure Dialect where
  extended : Bool
  /-- `\{` or `{` starts a number of times. -/
  intervals : Bool
  /-- Letters behind a backslash that stand for control characters. -/
  controls : Bool
  /-- A backslash keeps its meaning between brackets. -/
  escapesInSets : Bool
  /-- There is a way to speak of what a group took. -/
  references : Bool
  /-- Operators where nothing can be repeated, and brackets that close nothing, are let pass. -/
  lenient : Bool
  wide : Bool := false

def basic : Dialect := ⟨false, true, false, false, true, true, false⟩

def extended : Dialect := ⟨true, true, false, false, true, true, false⟩

structure Reading where
  rest : Chars
  groups : Nat

abbrev Read := StateT Reading (Except String)

def bracketed? (sign : Char) (text : Chars) : Option (Chars × Chars) :=
  let name := text.takeWhile (· ≠ sign)
  match text.drop name.length with
  | s :: ']' :: rest => if s = sign then some (name, rest) else none
  | _ => none

variable (d : Dialect)

variable (text : Chars)

def setChar : Option (Char × Chars) :=
  match text with
  | '[' :: '.' :: rest =>
    match bracketed? '.' rest with
    | some ([c], rest) => some (c, rest)
    | _ => none
  | '[' :: '=' :: rest =>
    match bracketed? '=' rest with
    | some ([c], rest) => some (c, rest)
    | _ => none
  | '\\' :: c :: rest =>
    if d.escapesInSets then some ((Chars.control? c).getD c, rest)
    else if d.controls && c = 'n' then some ('\n', rest)
    else if d.controls && c = 't' then some ('\t', rest)
    else some ('\\', c :: rest)
  | c :: rest => some (c, rest)
  | [] => none

def unmatchedBracket : String := "Unmatched [, [^, [:, [., or [="

def setMembers : Nat → Bool → Chars → Except String (List CharRange × Chars)
  | 0, _, _ => .error unmatchedBracket
  | n + 1, first, text => do
    match text with
    | [] => .error unmatchedBracket
    | ']' :: rest => if first then range n text else return ([], rest)
    | '[' :: ':' :: rest =>
      let some (name, rest) := bracketed? ':' rest | .error unmatchedBracket
      let some k := CharClass.ofName? name | .error "Invalid character class name"
      let (ms, rest) ← setMembers n false rest
      return (.named k d.wide :: ms, rest)
    | _ => range n text
where
  range (n : Nat) (text : Chars) : Except String (List CharRange × Chars) := do
    let some (low, rest) := setChar d text | .error unmatchedBracket
    match rest with
    | '-' :: more =>
      if more.head? = some ']' || more.isEmpty then
        let (ms, rest) ← setMembers n false rest
        return (.between low low :: ms, rest)
      let some (high, rest) := setChar d more | .error unmatchedBracket
      if high < low then .error "Invalid range end"
      else
        let (ms, rest) ← setMembers n false rest
        return (.between low high :: ms, rest)
    | rest =>
      let (ms, rest) ← setMembers n false rest
      return (.between low low :: ms, rest)

def charSet : Except String (CharSet × Chars) := do
  match text with
  | [] => .error (if d.lenient then "Invalid regular expression" else unmatchedBracket)
  | ':' :: rest =>
    let (ms, behind) ← setMembers d (text.length + 2) true text
    if rest[rest.length - behind.length - 2]? = some ':' && rest.length > behind.length + 2 then
      .error "character class syntax is [[:space:]], not [:space:]"
    else return (⟨false, ms⟩, behind)
  | '^' :: rest =>
    let (ms, rest) ← setMembers d (text.length + 2) true rest
    return (⟨true, ms⟩, rest)
  | _ =>
    let (ms, rest) ← setMembers d (text.length + 2) true text
    return (⟨false, ms⟩, rest)

def wordSet (wide negated : Bool) : Regex := .set ⟨negated, [.named .alnum wide, .between '_' '_']⟩

def spaceSet (wide negated : Bool) : Regex := .set ⟨negated, [.named .space wide]⟩

/-- What a character behind a backslash stands for, where it is no operator. -/
def escaped (groups : Nat) (c : Char) : Except String Regex :=
  if c.isDigit && c ≠ '0' && d.references then
    let n := c.toNat - '0'.toNat
    if n ≤ groups then .ok (.again n) else .error "Invalid back reference"
  else
    match c with
    | 'w' => .ok (wordSet d.wide false)
    | 'W' => .ok (wordSet d.wide true)
    | 's' => .ok (spaceSet d.wide false)
    | 'S' => .ok (spaceSet d.wide true)
    | '<' => .ok (.anchor .wordStart)
    | '>' => .ok (.anchor .wordEnd)
    | 'b' => .ok (.anchor .boundary)
    | 'B' => .ok (.anchor .noBoundary)
    | '\x60' => .ok (.anchor .textStart)
    | '\'' => .ok (.anchor .textEnd)
    | c => .ok (.char (if d.controls then (Chars.control? c).getD c else c))

/-- A number of times, behind its opening brace: least, most, and what follows. -/
def interval? : Option (Nat × Option Nat × Chars) :=
  let low := text.takeWhile Char.isDigit
  let behind := text.drop low.length
  let close (rest : Chars) : Option Chars :=
    if d.extended then
      match rest with
      | '\x7d' :: rest => some rest
      | _ => none
    else
      match rest with
      | '\\' :: '\x7d' :: rest => some rest
      | _ => none
  match behind with
  | ',' :: more =>
    let high := more.takeWhile Char.isDigit
    (close (more.drop high.length)).bind fun rest =>
      let least := (Chars.toNat? low).getD 0
      let most := Chars.toNat? high
      if most.any (· < least) then none else some (least, most, rest)
  | rest => (Chars.toNat? low).bind fun n => (close rest).map fun rest => (n, some n, rest)

def timesOp? : Option ((Nat × Option Nat) × Chars) :=
  match text with
  | '*' :: rest => some ((0, none), rest)
  | '+' :: rest => if d.extended then some ((1, none), rest) else none
  | '?' :: rest => if d.extended then some ((0, some 1), rest) else none
  | '\\' :: '+' :: rest => if d.extended then none else some ((1, none), rest)
  | '\\' :: '?' :: rest => if d.extended then none else some ((0, some 1), rest)
  | '\x7b' :: rest =>
    if d.extended && d.intervals then (interval? d rest).map fun (low, high, rest) => ((low, high), rest)
    else none
  | '\\' :: '\x7b' :: rest =>
    if !d.extended && d.intervals then (interval? d rest).map fun (low, high, rest) => ((low, high), rest)
    else none
  | _ => none

def withTimes : Nat → Regex → Chars → Regex × Chars
  | 0, r, text => (r, text)
  | n + 1, r, text =>
    match timesOp? d text with
    | some ((low, high), rest) => withTimes n (.times r low high) rest
    | none => (r, text)

def nothingBefore : String := "Invalid preceding regular expression"

def badInterval : String :=
  let close := if d.extended then ['\x7d'] else ['\\', '\x7d']
  if Chars.occursIn close text then "Invalid content of \\\x7b\\\x7d" else "Unmatched \\\x7b"

def startsBar : Chars → Bool
  | '|' :: _ => d.extended
  | '\\' :: '|' :: _ => !d.extended
  | '\n' :: _ | _ => false

def startsClose : Chars → Bool
  | ')' :: _ => d.extended
  | '\\' :: ')' :: _ => !d.extended
  | _ => false

def endsBranch : Bool := text.isEmpty || startsBar d text || startsClose d text

mutual

def alternatives (d : Dialect) : Nat → Read Regex
  | 0 => return .empty
  | n + 1 => do
    let first ← branch d n true
    let rest := (← get).rest
    if startsBar d rest then
      modify fun s => { s with rest := rest.drop (if d.extended then 1 else 2) }
      return .alt first (← alternatives d n)
    return first

def branch (d : Dialect) : Nat → Bool → Read Regex
  | 0, _ => return .empty
  | n + 1, start => do
    let rest := (← get).rest
    if rest.isEmpty || startsBar d rest || startsClose d rest then return .empty
    let r ← atom d n start
    let isAnchor := r = .anchor .lineStart
    let behind := (← get).rest
    let (r, behind) := if isAnchor && !d.extended then (r, behind)
      else withTimes d (behind.length + 1) r behind
    modify ({ · with rest := behind })
    let more ← branch d n (start && isAnchor && !d.extended)
    return if more = .empty then r else .cat r more

def atom (d : Dialect) : Nat → Bool → Read Regex
  | 0, _ => return .empty
  | n + 1, start => do
    let s ← get
    let take (count : Nat) (r : Regex) : Read Regex := do
      modify fun s => { s with rest := s.rest.drop count }
      return r
    match s.rest with
    | [] => return .empty
    | '.' :: _ => take 1 .any
    | '[' :: rest =>
      let (members, rest) ← charSet d rest
      modify ({ · with rest })
      return .set members
    | '^' :: _ => if d.extended || start then take 1 (.anchor .lineStart) else take 1 (.char '^')
    | '$' :: rest => if d.extended || endsBranch d rest then take 1 (.anchor .lineEnd) else take 1 (.char '$')
    | '*' :: _ =>
      if !d.extended then take 1 (.char '*')
      else if d.lenient then take 1 .empty
      else throw nothingBefore
    | ['\\'] => throw "Trailing backslash"
    | '\\' :: '(' :: _ => if d.extended then take 2 (.char '(') else group n 2
    | '\\' :: ')' :: _ => if d.extended then take 2 (.char ')') else throw "Unmatched ) or \\)"
    | '\\' :: '\x7b' :: rest =>
      if d.extended then take 2 (.char '\x7b')
      else if (interval? d rest).isNone then throw (badInterval d rest)
      else if d.lenient then take 2 (.char '\x7b')
      else throw nothingBefore
    | '\\' :: '|' :: _ => take 2 (.char '|')
    | '\\' :: c :: _ =>
      match escaped d s.groups c with
      | .ok r => take 2 r
      | .error e => throw e
    | '(' :: _ => if d.extended then group n 1 else take 1 (.char '(')
    | c :: rest =>
      if d.extended && (c = '+' || c = '?') then
        if d.lenient then take 1 .empty else throw nothingBefore
      else if d.extended && d.intervals && c = '\x7b' && !d.lenient then
        throw (if start then nothingBefore else badInterval d rest)
      else take 1 (.char c)
where
  group (n count : Nat) : Read Regex := do
    let s ← get
    let number := s.groups + 1
    modify fun s => { s with rest := s.rest.drop count, groups := number }
    let body ← alternatives d n
    let rest := (← get).rest
    if startsClose d rest then
      modify ({ · with rest := rest.drop (if d.extended then 1 else 2) })
      return .group number body
    throw "Unmatched ( or \\("

end

def parse : Except String Regex := do
  let (r, _) ← (whole (text.length + 1)).run ⟨text, 0⟩
  return r
where
  /-- All of the text; a bracket that closes nothing stands for itself, or is an error. -/
  whole : Nat → Read Regex
    | 0 => throw "Unmatched ) or \\)"
    | n + 1 => do
      let r ← alternatives d (4 * text.length + 4)
      let _ :: rest := (← get).rest | return r
      if d.extended && d.lenient then
        modify ({ · with rest })
        return .cat r (.cat (.char ')') (← whole n))
      throw "Unmatched ) or \\)"

def ofText : Chars → Regex
  | [] => .empty
  | [c] => .char c
  | c :: rest => .cat (.char c) (ofText rest)

def groupCount : Regex → Nat
  | .group n r => max n r.groupCount
  | .cat r s | .alt r s => max r.groupCount s.groupCount
  | .times r _ _ => r.groupCount
  | _ => 0

end Prune.Regex
