import Prune.Text.Letter
import Prune.Text.Chars

/-!
Patterns for the values of fields. Only whether a text is a pattern is asked for here, since no report
stands where a value is looked at. A pattern can fail by how deep its parts are nested, so each part is
read together with its depth; and in a mode that knows only ASCII it can fail by what a class of
characters comes to, so classes are worked out.
-/

namespace Prune.Log.Pattern

inductive Flaw where
  | malformed
  /-- It is one, but looks for the edges of words, which cannot be done. -/
  | edges
deriving DecidableEq, Repr

structure Mode where
  /-- Classes go beyond ASCII. There are no tables for those that have names. -/
  wide : Bool
  /-- Upper and lower case are alike. There is no table for this either. -/
  folds : Bool
  loose : Bool

def Mode.plain : Mode := ⟨true, false, false⟩

variable (m : Mode)

def Mode.knowsCase : Bool := !(m.folds && m.wide)

/-- Characters by their numbers, from the first to the last of each range. -/
abbrev Ranges := List (Nat × Nat)

namespace Ranges

def meet (a b : Ranges) : Ranges :=
  a.flatMap fun (low, high) => (b.map fun (l, h) => (max low l, min high h)).filter fun (l, h) => l ≤ h

def cut (hole : Nat × Nat) (r : Nat × Nat) : Ranges :=
  let (low, high) := r
  let (l, h) := hole
  if h < low || high < l then [r]
  else (if low < l then [(low, l - 1)] else []) ++ (if h < high then [(h + 1, high)] else [])

def without (a b : Ranges) : Ranges := b.foldl (fun a hole => a.flatMap (cut hole)) a

def either (a b : Ranges) : Ranges := a.without b ++ b.without a

end Ranges

def Mode.all : Ranges := if m.wide then [(0, 0xD7FF), (0xE000, 0x10FFFF)] else [(0, 0xFF)]

inductive Escape where
  | literal (code : Nat)
  | kind (rs : Ranges)
  | anchor
  | edge

def classes : List (String × Ranges) :=
  [("alnum", [(48, 57), (65, 90), (97, 122)]), ("alpha", [(65, 90), (97, 122)]), ("ascii", [(0, 127)]),
    ("blank", [(9, 9), (32, 32)]), ("cntrl", [(0, 31), (127, 127)]), ("digit", [(48, 57)]),
    ("graph", [(33, 126)]), ("lower", [(97, 122)]), ("print", [(32, 126)]),
    ("punct", [(33, 47), (58, 64), (91, 96), (123, 126)]), ("space", [(9, 13), (32, 32)]),
    ("upper", [(65, 90)]), ("word", [(48, 57), (65, 90), (95, 95), (97, 122)]),
    ("xdigit", [(48, 57), (65, 70), (97, 102)])]

def classOf (name : String) : Ranges := (classes.lookup name).getD []

/-- A text without the blanks and comments at its start, where they are passed over. -/
def passOver : Nat → List Char → List Char
  | 0, cs => cs
  | n + 1, cs =>
    if !m.loose then cs
    else
      match cs with
      | '#' :: rest => passOver n ((rest.dropWhile (· ≠ '\n')).drop 1)
      | c :: rest => if Text.isBlank c then passOver n rest else cs
      | [] => []

variable (cs : List Char)

/-- What stands behind a text, from where something stands that is not passed over. -/
def Mode.next : List Char := passOver m (cs.length + 1) cs

/-- So many characters with what is passed over between them, and what is behind them. -/
def spaced : Nat → List Char → List Char × List Char
  | 0, cs => ([], cs)
  | n + 1, cs =>
    match m.next cs with
    | [] => ([], [])
    | c :: rest =>
      let (more, rest) := spaced n rest
      (c :: more, rest)

/-- The characters at the start for which something holds, with what is passed over between them, and
what is behind them. -/
def row (holds : Char → Bool) : Nat → List Char → List Char × List Char
  | 0, cs => ([], cs)
  | _, [] => ([], [])
  | n + 1, c :: rest =>
    if holds c then
      let (more, rest) := row holds n (m.next rest)
      (c :: more, rest)
    else ([], c :: rest)

/-- A character by its number, between braces or in `width` digits. Two digits stand for a byte, if bytes
count. -/
def code? (width : Nat) (cs : List Char) : Option (Escape × List Char) :=
  let literal (digits rest : List Char) (isByte : Bool) : Option (Escape × List Char) :=
    let n := Chars.valueIn 16 digits
    if digits.isEmpty || !digits.all (Chars.isDigitOf 16) || !n.isValidChar then none
    else if isByte && !m.wide && n > 0x7F then none
    else some (.literal n, rest)
  match m.next cs with
  | '\x7b' :: more =>
    match more.span (· ≠ '\x7d') with
    | (inner, _ :: rest) => literal (spaced m inner.length inner).1 rest false
    | (_, []) => none
  | cs =>
    let (digits, rest) := spaced m width cs
    if digits.length = width then literal digits rest (width = 2) else none

def edgeNames : List String := ["start", "end", "start-half", "end-half"]

/-- What is behind the name of an edge between braces, if it is one; nothing is read if it is a count. -/
def namedEdge? : Option (List Char) :=
  match cs with
  | '\x7b' :: more =>
    let isPart (c : Char) : Bool := c.isAlpha || c = '-'
    match m.next more with
    | [] => none
    | c :: rest =>
      if !isPart c then some cs
      else
        match row m isPart (rest.length + 1) (c :: rest) with
        | (name, '\x7d' :: rest) => if edgeNames.contains (String.ofList name) then some rest else none
        | _ => none
  | cs => some cs

def escape? : List Char → Option (Escape × List Char)
  | [] => none
  | c :: rest =>
    let border : Escape := if m.wide then .edge else .anchor
    let kind (name : String) : Option (Escape × List Char) :=
      if m.wide then none else some (.kind (classOf name), rest)
    match c with
    | 'x' => code? m 2 rest
    | 'u' => code? m 4 rest
    | 'U' => code? m 8 rest
    | 'd' => kind "digit"
    | 's' => kind "space"
    | 'w' => kind "word"
    | 'a' | 'f' | 't' | 'n' | 'r' | 'v' => (Chars.control? c).map fun c => (.literal c.toNat, rest)
    | 'A' | 'z' => some (.anchor, rest)
    | 'b' => (namedEdge? m rest).map fun rest => (border, rest)
    | 'B' | '<' | '>' => some (border, rest)
    | c => if c.toNat < 0x80 && !c.isAlphanum then some (.literal c.toNat, rest) else none

/-- A class of ASCII with a name, such as `[:alpha:]`, and what is behind it. -/
def namedClass? : List Char → Option (Ranges × List Char)
  | '[' :: ':' :: rest =>
    let isTurned := rest.head? = some '^'
    let rest := if isTurned then rest.tail else rest
    let (name, rest) := rest.span (· ≠ ':')
    match rest, classes.lookup (String.ofList name) with
    | ':' :: ']' :: rest, some rs => some (if isTurned then Ranges.without m.all rs else rs, rest)
    | _, _ => none
  | _ => none

/-- One member of a class: its number if it is a character. Bytes are members only below 128. -/
def member? : List Char → Option ((Nat ⊕ Ranges) × List Char)
  | '\\' :: rest =>
    match escape? m rest with
    | some (.literal n, rest) => if !m.wide && n > 0x7F then none else some (.inl n, rest)
    | some (.kind rs, rest) => some (.inr rs, rest)
    | _ => none
  | c :: rest => if !m.wide && c.toNat > 0x7F then none else some (.inl c.toNat, rest)
  | [] => none

inductive Combination where
  | meet | without | either

def Combination.apply : Combination → Ranges → Ranges → Ranges
  | .meet => Ranges.meet
  | .without => Ranges.without
  | .either => Ranges.either

/-- A part of a class: what is in it, and how deep its parts are nested. -/
structure Part where
  set : Ranges
  depth : Nat

structure Open where
  isTurned : Bool
  before : Option (Combination × Part)
  set : Ranges
  count : Nat
  depth : Nat

namespace Open

def add (o : Open) (p : Part) : Open :=
  { o with set := p.set ++ o.set, count := o.count + 1, depth := max o.depth p.depth }

/-- All parts of a class so far as one, if the mode can tell letters apart. -/
def joined? (m : Mode) (o : Open) : Option Part :=
  let last : Part := ⟨o.set, if o.count > 1 then o.depth + 1 else o.depth⟩
  match o.before with
  | none => some last
  | some (op, first) =>
    if !m.knowsCase && !(first.set.isEmpty && last.set.isEmpty) then none
    else some ⟨op.apply first.set last.set, max first.depth last.depth + 1⟩

/-- The part that a class is when it is closed. In a mode of bytes it may hold ASCII only. -/
def close? (m : Mode) (o : Open) : Option Part := do
  let inner ← o.joined? m
  if !m.knowsCase && !inner.set.isEmpty then none
  else
    let set := if o.isTurned then Ranges.without m.all inner.set else inner.set
    if !m.wide && set.any (·.2 > 0x7F) then none else some ⟨set, inner.depth + 1⟩

end Open

/-- The opening of a class: it may be turned around; dashes and a bracket that come first are members.
None if nothing is behind it. -/
def classOpening? : Option (Open × List Char) :=
  let cs := m.next cs
  let isTurned := cs.head? = some '^'
  let cs := if isTurned then m.next cs.tail else cs
  let (o, cs) := dashes cs.length ⟨isTurned, none, [], 0, 0⟩ cs
  let (o, cs) := if o.count = 0 && cs.head? = some ']' then (o.add ⟨[(93, 93)], 0⟩, m.next cs.tail) else (o, cs)
  if cs.isEmpty then none else some (o, cs)
where
  dashes : Nat → Open → List Char → Open × List Char
    | n + 1, o, '-' :: rest => dashes n (o.add ⟨[(45, 45)], 0⟩) (m.next rest)
    | _, o, cs => (o, cs)

/-- A class, read from behind its opening, and what is behind it; others are open around it. -/
def class? : Nat → Open → List Open → List Char → Option (Part × List Char)
  | 0, _, _, _ => none
  | n + 1, o, outer, cs =>
    let combine (op : Combination) (rest : List Char) : Option (Part × List Char) := do
      let first ← o.joined? m
      class? n { o with before := some (op, first), set := [], count := 0, depth := 0 } outer rest
    match m.next cs with
    | [] => none
    | ']' :: rest => do
      let p ← o.close? m
      match outer with
      | [] => some (p, rest)
      | around :: outer => class? n (around.add p) outer rest
    | '[' :: rest =>
      match namedClass? m ('[' :: rest) with
      | some (rs, rest) => class? n (o.add ⟨rs, 0⟩) outer rest
      | none => do
        let (inner, rest) ← classOpening? m rest
        class? n inner (o :: outer) rest
    | '&' :: '&' :: rest => combine .meet rest
    | '-' :: '-' :: rest => combine .without rest
    | '~' :: '~' :: rest => combine .either rest
    | cs => do
      let (low, rest) ← member? m cs
      let rest := m.next rest
      let alone : Part := match low with
        | .inl code => ⟨[(code, code)], 0⟩
        | .inr rs => ⟨rs, 0⟩
      let isRange := match rest with
        | '-' :: more => (m.next more).head? ≠ some ']' && (m.next more).head? ≠ some '-'
        | _ => false
      if !isRange then class? n (o.add alone) outer rest
      else
        match low, ← member? m (m.next rest.tail) with
        | .inl low, (.inl high, rest) =>
          if low ≤ high then class? n (o.add ⟨[(low, high)], 0⟩) outer rest else none
        | _, _ => none

/-- The flags of a group and what is behind them; each can be given once, and a dash turns off those
behind it. -/
def flags? : Bool → List Char → Mode → List Char → Option (Mode × List Char)
  | _, _, _, [] => none
  | on, seen, m, c :: rest =>
    if c = ':' || c = ')' then
      if seen.head? = some '-' then none else some (m, c :: rest)
    else if seen.contains c || !"imsRUux-".contains c then none
    else
      let m := match c with
        | 'i' => { m with folds := on }
        | 'u' => { m with wide := on }
        | 'x' => { m with loose := on }
        | _ => m
      flags? (on && c ≠ '-') (c :: seen) m rest

def groupName? : Option (List Char × List Char) :=
  let name := cs.takeWhile (· ≠ '>')
  let starts (c : Char) : Bool := c = '_' || (Text.isLetter c && !c.isDigit)
  let follows (c : Char) : Bool := c = '_' || Text.isLetter c || c = '.' || c = '[' || c = ']'
  match name, cs.drop name.length with
  | c :: more, _ :: rest => if starts c && more.all follows then some (name, rest) else none
  | _, _ => none

def decimal? : Option (Nat × List Char) :=
  let (digits, rest) := row m Char.isDigit (cs.length + 1) (cs.dropWhile Text.isBlank)
  let n := digits.foldl (fun n c => 10 * n + (c.toNat - 48)) 0
  if digits.isEmpty || n ≥ 2 ^ 32 then none else some (n, rest.dropWhile Text.isBlank)

/-- What is behind a count between braces, read from behind the opening one. -/
def count? : Option (List Char) := do
  let (low, rest) ← decimal? m (m.next cs)
  match rest with
  | ',' :: rest =>
    match m.next rest with
    | '\x7d' :: rest => some (m.next rest)
    | rest =>
      let (high, rest) ← decimal? m rest
      match rest with
      | '\x7d' :: rest => if low ≤ high then some (m.next rest) else none
      | _ => none
  | '\x7d' :: rest => some (m.next rest)
  | _ => none

def depthLimit : Nat := 250

def depthOf : List Nat → Nat
  | [] => 0
  | [d] => d
  | ds => ds.foldl max 0 + 1

/-- A group that is being read: what came before it and the mode behind it. -/
structure Group where
  mode : Mode
  /-- The depths of the alternatives before the one being read. -/
  alternatives : List Nat
  /-- The depths of the parts of the alternative being read, the last one first, none for one that
  cannot be repeated. -/
  parts : List (Option Nat)

def Group.depth (g : Group) : Nat :=
  let last := depthOf (g.parts.map (·.getD 0))
  if g.alternatives.isEmpty then last else depthOf (last :: g.alternatives)

/-- Reads a pattern: `outer` holds the groups that are open around `g`, `names` those of the groups so
far, and `edges` says whether an edge of a word has been asked for. -/
def read : Nat → Group → List Group → List (List Char) → (edges : Bool) → List Char → Except Flaw Unit
  | 0, _, _, _, _, _ => .error .malformed
  | n + 1, g, outer, names, edges, cs =>
    let m := g.mode
    let take (depth : Nat) (rest : List Char) : Except Flaw Unit :=
      read n { g with parts := some depth :: g.parts } outer names edges rest
    let literal (rest : List Char) : Except Flaw Unit := if m.knowsCase then take 0 rest else .error .malformed
    let again (rest : List Char) : Except Flaw Unit :=
      let rest := if rest.head? = some '?' then rest.tail else rest
      match g.parts with
      | some depth :: parts => read n { g with parts := some (depth + 1) :: parts } outer names edges rest
      | _ => .error .malformed
    let openGroup (mode : Mode) (names : List (List Char)) (rest : List Char) : Except Flaw Unit :=
      read n ⟨mode, [], []⟩ (g :: outer) names edges rest
    match m.next cs with
    | [] =>
      if !outer.isEmpty || g.depth > depthLimit then .error .malformed
      else if edges then .error .edges
      else .ok ()
    | '|' :: rest =>
      let done := depthOf (g.parts.map (·.getD 0))
      read n { g with alternatives := done :: g.alternatives, parts := [] } outer names edges rest
    | ')' :: rest =>
      match outer with
      | around :: outer =>
        read n { around with parts := some (g.depth + 1) :: around.parts } outer names edges rest
      | [] => .error .malformed
    | '(' :: rest =>
      match m.next rest with
      | '?' :: rest =>
        let named? := match rest with
          | 'P' :: '<' :: more | '<' :: more => groupName? more
          | _ => none
        match named? with
        | some (name, rest) =>
          if names.contains name then .error .malformed else openGroup m (name :: names) rest
        | none =>
          match flags? true [] m rest with
          | some (new, ':' :: rest) => openGroup new names rest
          | some (new, ')' :: behind) =>
            if rest.head? = some ')' then .error .malformed
            else read n { g with mode := new, parts := none :: g.parts } outer names edges behind
          | _ => .error .malformed
      | rest => openGroup m names rest
    | '[' :: rest =>
      match (classOpening? m rest).bind fun (o, rest) => class? m (rest.length + 1) o [] rest with
      | some (p, rest) => take p.depth rest
      | none => .error .malformed
    | '\\' :: rest =>
      match escape? m rest with
      | some (.literal _, rest) => literal rest
      | some (.edge, rest) => read n { g with parts := some 0 :: g.parts } outer names true rest
      | some (_, rest) => take 0 rest
      | none => .error .malformed
    | '\x7b' :: rest =>
      match count? m rest with
      | some rest => again rest
      | none => .error .malformed
    | '^' :: rest | '$' :: rest => take 0 rest
    | '.' :: rest => if m.wide then take 0 rest else .error .malformed
    | c :: rest => if c = '*' || c = '+' || c = '?' then again rest else literal rest

/-- Whether a text is a decimal number without a sign, or the name of one. -/
def isNumber : Bool :=
  let names := ["inf", "infinity", "nan"]
  let (mantissa, power) := cs.span fun c => c ≠ 'e' && c ≠ 'E'
  let (whole, fraction) := mantissa.span (· ≠ '.')
  let digits := whole ++ fraction.tail
  let power := match power.tail with
    | '+' :: ds | '-' :: ds | ds => ds
  names.contains (String.ofList (cs.map Char.toLower)) ||
    (!digits.isEmpty && digits.all Char.isDigit &&
      (!cs.any (fun c => c = 'e' || c = 'E') || (!power.isEmpty && power.all Char.isDigit)))

def check (value : String) : Except Flaw Unit :=
  match value.toList with
  | '+' :: rest => if isNumber rest then .ok () else .error .malformed
  | cs => read (2 * cs.length + 2) ⟨.plain, [], []⟩ [] [] false cs

end Prune.Log.Pattern
