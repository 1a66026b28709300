import Prune.Shell.Names
import Prune.Shell.State
import Prune.Shell.Quoting

/-!
From the words of a script to the texts a command gets: parameters, substitutions and arithmetic are
replaced, the result is split into fields, and fields that are patterns become the names they match.
-/

namespace Prune.Shell

open Host

inductive Bit where
  /-- With `loose` the word may be split here. -/
  | glyph (g : Glyph) (loose : Bool)
  /-- There is a field here even if it is empty. -/
  | mark
  /-- There are no arguments here, so quotes around this alone make no field. -/
  | void
  /-- One argument ends and another begins. -/
  | gap

def bitsOf (quoted : Bool) (text : Chars) : List Bit := text.map fun c => .glyph ⟨c, quoted⟩ (!quoted)

def bitsOfArgs (quoted : Bool) (args : List Chars) : List Bit :=
  match args with
  | [] => if quoted then [.void] else []
  | first :: rest =>
    let bits (a : Chars) : List Bit := (if quoted then [.mark] else []) ++ bitsOf quoted a
    bits first ++ rest.flatMap fun a => .gap :: bits a

def glyphs (joint : Chars) (bits : List Bit) : List Glyph :=
  bits.flatMap fun
    | .glyph g _ => [g]
    | .gap => joint.map fun c => ⟨c, true⟩
    | _ => []

def textOf (joint : Chars) (bits : List Bit) : Chars := (glyphs joint bits).map (·.char)

structure Splitting where
  done : List (List Glyph)
  current : List Glyph
  started : Bool
  void : Bool
  /-- A field has just been ended by blanks. -/
  blank : Bool

namespace Splitting

def close (s : Splitting) : Splitting :=
  if !s.current.isEmpty || (s.started && !s.void) then ⟨s.current.reverse :: s.done, [], false, false, true⟩
  else { s with started := false, void := false }

def step (dividers : Chars) (s : Splitting) : Bit → Splitting
  | .mark => { s with started := true }
  | .void => { s with void := true }
  | .gap => { s.close with blank := false }
  | .glyph g loose =>
    if loose && dividers.contains g.char then
      if g.char = ' ' || g.char = '\t' || g.char = '\n' then s.close
      else if s.blank && s.current.isEmpty && !s.started then { s with blank := false }
      else ⟨s.current.reverse :: s.done, [], false, false, false⟩
    else { s with current := g :: s.current, started := true, blank := false }

end Splitting

def split (dividers : Chars) (bits : List Bit) : List (List Glyph) :=
  (bits.foldl (Splitting.step dividers) ⟨[], [], false, false, false⟩).close.done.reverse

inductive Value where
  | unset
  | text (t : Chars)
  | all (args : List Chars) (joined : Bool)

def Value.map (f : Chars → Chars) : Value → Value
  | .unset => .unset
  | .text t => .text (f t)
  | .all args joined => .all (args.map f) joined

namespace Sh

def pick : Sh Chars := do
  let s ← get
  let seed := (s.seed * 1103515245 + 12345) % 2 ^ 31
  set { s with seed }
  return Chars.ofNat (seed / 65536 % 32768)

def parameter (name : Chars) : Sh Value := do
  let s ← get
  let number (n : Nat) : Sh Value := return .text (Chars.ofNat n)
  let ordinary : Sh Value := return ((lookup s name).map .text).getD .unset
  match name with
  | ['@'] => return .all s.args false
  | ['*'] => return .all s.args true
  | ['#'] => number s.args.length
  | ['?'] => number s.status
  | ['$'] => number s.pid
  | ['-'] =>
    let letters := s.options.filter Char.isAlpha
    return .text (if s.dialect = .common then letters.reverse else letters ++ (if s.given then ['c'] else []))
  | ['!'] =>
    match s.lastBackground with
    | some pid => number pid
    | none => return if s.dialect = .common then .text [] else .unset
  | _ =>
    match Chars.toNat? name with
    | some 0 => return .text s.name
    | some n => return (s.args[n - 1]?.map .text).getD .unset
    | none =>
      if s.dialect = .extended then
        match String.ofList name with
        | "RANDOM" | "SRANDOM" => return .text (← pick)
        | "SECONDS" => number (((← ask .now) - s.started) / 1000000)
        | "BASHPID" => number (← ask .self)
        | _ => ordinary
      else ordinary

def elements (name : Chars) (joined : Bool) : Sh Value := do
  return .all (((aimedContent (← get) name).map Content.values).getD []) joined

def joint : Sh Chars := do return (← dividers).take 1

/-- The output of a command as a text: without zeros, and without the breaks at its end. -/
def captured (output : Chars) : Chars := Chars.trimEnd (· = '\n') (output.filter (· ≠ '\x00'))

/-- A process that runs `body` with the end `other` of a pipe at a place, and has not the end `mine`. -/
def piped (self : Self) (body : Command) (mine other place : Nat) (s : State) : Act Nat := do
  Act.ask (.close mine)
  let _ ← Act.ask (.duplicateTo other place)
  if other ≠ place then Act.ask (.close other)
  apart self (self.run body ⟨false, true⟩) { s with nesting := s.nesting + 1 }

def substitute (self : Self) (body : Command) : Sh Chars := do
  let (out, into) ← ask .pipe
  let inherits ← choice "inherit_errexit"
  let _ ← claimNumber
  let s ← get
  let options := if s.dialect = .extended && !inherits then s.options.filter (· ≠ 'e') else s.options
  let pid ← Act.fork (piped self body out into 1 { s with options })
  ask (.close into)
  let text ← Act.readAll out
  ask (.close out)
  let status ← awaitEnd pid
  modify ({ · with substituted := some status, status := status })
  return captured (text.toOption.getD [])

def setting : Sh Arithmetic.Setting := do
  let s ← get
  let random ← pick
  let made (name : Chars) : Option Chars :=
    if s.dialect = .extended && name = "RANDOM" then some random
    else if s.dialect = .extended && (name = ['@'] || name = ['*']) then none
    else lookup s name
  return ⟨s.dialect, made, aimsAtTable s⟩

def computed (text : Chars) : Sh (Except Chars Int) := do
  let setting ← setting
  match Arithmetic.evaluate setting text with
  | .error f => return .error (f.message setting.dialect text)
  | .ok (n, assigned) =>
    for (name, v) in assigned do
      assign name (Chars.ofInt v)
    return .ok n

def compute (text : Chars) : Sh Int := do
  match ← computed text with
  | .error message => giveUp message
  | .ok n => return n

/-- The home directory that a word with a tilde in front stands for, and what follows in the word. -/
def home? (inAssignment : Bool) (w : Word) : Sh (Option (Chars × Word)) := do
  match w with
  | .plain '~' :: rest =>
    let user := rest.takeWhile fun
      | .plain c => c ≠ '/' && !(inAssignment && c = ':')
      | _ => false
    let behind := rest.drop user.length
    if !(behind matches [] | .plain _ :: _) then return none
    let kept (name : String) : Sh (Option (Chars × Word)) := do return (← value name).map (·, behind)
    match (literal? user).getD [], ← isExtended with
    | [], _ => kept "HOME"
    | ['+'], true => kept "PWD"
    | ['-'], true => kept "OLDPWD"
    | ['r', 'o', 'o', 't'], _ => return some ("/root", behind)
    | _, _ => return none
  | _ => return none

end Sh

structure Manner where
  /-- Its own characters can be split, as they are part of an expansion. -/
  loose : Bool
  /-- A tilde is looked for in front, and behind every colon. -/
  inAssignment : Bool

/-- A text with the case of letters changed, all of them that a pattern matches or just the first
character. -/
def recased (change : Recase) (every : Bool) (pattern : Pattern) : Chars → Chars :=
  let changed (c : Char) : Char :=
    if !pattern.isEmpty && !fits pattern.pieces [c] then c
    else
      let (low, high) := (Case.lower pattern.wide c, Case.upper pattern.wide c)
      match change with
      | .upper => high
      | .lower => low
      | .toggle => if c = high then low else high
  pattern.bytewise fun text =>
    if every then text.map changed else (text.take 1).map changed ++ text.drop 1

def replacement (glyphs : List Glyph) (found : Chars) : Chars :=
  glyphs.flatMap fun g => if g.char = '&' && !g.quoted then found else [g.char]

def replaced (which : Occurrence) (pattern : Pattern) (new : List Glyph) : Chars → Chars :=
  let ps := pattern.pieces
  let new := if pattern.wide then glyphLetters 0 new else new
  pattern.bytewise fun text =>
    if pattern.isEmpty then
      match which with
      | .atStart => replacement new [] ++ text
      | .atEnd => text ++ replacement new []
      | _ => text
    else
      match which with
      | .first => replaceAll ps (replacement new) false (text.length + 1) text
      | .every => replaceAll ps (replacement new) true (text.length + 1) text
      | .atStart =>
        match longestStart? ps text with
        | some n => replacement new (text.take n) ++ text.drop n
        | none => text
      | .atEnd =>
        match (List.range (text.length + 1)).find? fun n => fits ps (text.drop n) with
        | some n => text.take n ++ replacement new (text.drop n)
        | none => text

def propertiesOf (v : Variable) : Chars :=
  let kind := match v.content with
    | some (.list _) => ['a']
    | some (.table _) => ['A']
    | _ => v.traits.filter fun c => c = 'a' || c = 'A'
  kind ++ "ilnu".toList.filter v.traits.contains ++ (if v.fixed then ['r'] else []) ++
    (if v.exported then ['x'] else [])

def keyText (wide : Bool) (k : Chars) : Chars :=
  if Quoting.isPlain wide k then k else Quoting.double wide k

def contentText (wide : Bool) (c : Content) : Chars :=
  match c with
  | .text t => Quoting.double wide t
  | .list items =>
    '(' :: Chars.join [' '] (items.map fun (n, v) =>
      '[' :: Chars.ofNat n ++ "]=" ++ Quoting.double wide v) ++ [')']
  | .table items =>
    '(' :: items.flatMap (fun (k, v) =>
      '[' :: keyText wide k ++ "]=" ++ Quoting.double wide v ++ [' ']) ++ [')']

def declaration (wide : Bool) (v : Variable) : Chars :=
  let letters := propertiesOf v
  "declare -" ++ (if letters.isEmpty then ['-'] else letters) ++ ' ' :: v.name ++
    (match v.content with
      | some c => '=' :: contentText wide c
      | none => [])

def transformed (wide : Bool) (how : Char) (text : Chars) : Chars :=
  match how with
  | 'Q' => if text.isEmpty then "''" else Quoting.single wide text
  | 'U' => recased .upper true ⟨[], wide⟩ text
  | 'u' => recased .upper false ⟨[], wide⟩ text
  | 'L' => recased .lower true ⟨[], wide⟩ text
  | 'E' => unescaped (text.length + 1) text
  | 'K' | 'k' => Quoting.single wide text
  | _ => text
where
  unescaped : Nat → Chars → Chars
    | 0, _ | _, [] => []
    | n + 1, '\\' :: rest =>
      let (made, count) := escape rest
      made ++ unescaped n (rest.drop (count - 1))
    | n + 1, c :: rest => c :: unescaped n rest

namespace Sh

def patternStyle : Sh PatternStyle := do
  if ← isExtended then return ⟨← choice "extglob", true, ← wide, false⟩ else return .plain

/-- As `patternStyle`, with letters of both cases the same if an option says so. -/
def foldedStyle (option : String) : Sh PatternStyle := do
  let folds ← choice option
  return { (← patternStyle) with folds }

def sliced (text : Chars) (start : Int) (count : Option Int) : Sh (Option Chars) := do
  let wide ← wide
  let text := Letters.of wide text
  let size : Int := text.length
  let first := if start < 0 then size + start else start
  if first < 0 || size < first then return some []
  let some n := count | return some (Letters.toBytes wide (text.drop first.toNat))
  let last := if n < 0 then size + n else min size (first + n)
  if last < first then return none
  else return some (Letters.toBytes wide ((text.drop first.toNat).take (last - first).toNat))

def placed (name : Chars) : Sh (List (Nat × Chars)) := do
  let s ← get
  if name = ['@'] || name = ['*'] then return (s.name :: s.args).zipIdx.map fun (v, i) => (i, v)
  match aimedContent s name with
  | some (.table items) => return items.zipIdx.map fun (p, i) => (i, p.2)
  | some c => return c.items
  | none => return []

def slicedList (items : List (Nat × Chars)) (start : Int) (count : Option Int) :
    Option (List Chars) :=
  let first := if start < 0 then (Content.nextPlace items : Int) + start else start
  if first < 0 then some []
  else
    let behind := (items.filter fun p => first.toNat ≤ p.1).map (·.2)
    match count with
    | none => some behind
    | some n => if n < 0 then none else some (behind.take n.toNat)

def pairsText (wide : Bool) (c : Content) : Chars :=
  Chars.join [' '] ((c.keys.zip c.values).map fun (k, v) =>
    keyText wide k ++ ' ' :: Quoting.double wide v)

def transform (name : Chars) (index : Index) (how : Char) (value : Value) : Sh Value := do
  let s ← get
  let wide := wideIn s
  let v? := s.vars.find? (·.name = aimOf s name)
  let isWhole := index matches .every _
  match how, v? with
  | 'a', _ => return .text ((v?.map propertiesOf).getD [])
  | 'A', some v =>
    if isWhole || !(v.content.any Content.isText) then
      return .text (declaration wide (if isWhole then v else { v with content := none }))
    let letters := propertiesOf v
    let front := if letters.isEmpty then [] else "declare -".toList ++ letters ++ [' ']
    return .text (front ++ v.name ++ '=' :: Quoting.single wide (v.value.getD []))
  | 'K', some v =>
    if isWhole then return .text ((v.content.map (pairsText wide)).getD [])
    else return value.map (transformed wide how)
  | _, _ => return value.map (transformed wide how)

def feed (self : Self) (body : Command) (reads : Bool) : Sh Chars := do
  let (out, into) ← ask .pipe
  let s ← get
  let (mine, other, place) := if reads then (out, into, 1) else (into, out, 0)
  let _ ← act (Act.fork (piped self body mine other place s))
  ask (.close other)
  let number := ((List.range 50).map (63 - ·)).find? (!s.feeds.contains ·) |>.getD 63
  let _ ← ask (.duplicateTo mine number)
  ask (.close mine)
  modify fun s => { s with feeds := number :: s.feeds }
  return "/dev/fd/" ++ Chars.ofNat number

def readsOnly? : Command → Option Word
  | .simple _ [] [] [.file 0 .input name] => some name
  | _ => none

end Sh

def bitsOfValue (quoted : Bool) (joint : Chars) : Value → List Bit
  | .unset => []
  | .text t => bitsOf quoted t
  | .all args joined =>
    if quoted && joined then bitsOf true (Chars.join joint args) else bitsOfArgs quoted args

namespace Sh

variable (self : Self)

mutual

def expandWord : Nat → Manner → Word → Sh (List Bit)
  | 0, _, _ => return []
  | n + 1, manner, w => do
    let some (home, rest) ← home? manner.inAssignment w | expandParts n manner w
    return bitsOf true home ++ (← expandParts n manner rest)

def expandParts : Nat → Manner → Word → Sh (List Bit)
  | 0, _, _ | _, _, [] => return []
  | n + 1, manner, .plain c :: rest => do
    let bits ← if c = ':' && manner.inAssignment then expandWord n manner rest else expandParts n manner rest
    return .glyph ⟨c, false⟩ manner.loose :: bits
  | n + 1, manner, .quoted c :: rest => do return .glyph ⟨c, true⟩ false :: (← expandParts n manner rest)
  | n + 1, manner, p :: rest => do
    let bits ← expandPart n p
    return bits ++ (← expandParts n manner rest)

def expandPart : Nat → Part → Sh (List Bit)
  | _, .mark => return [.mark]
  | _, .malformed text => do
    giveUp (if ← isExtended then text ++ ": bad substitution" else "Bad substitution")
  | n + 1, .command body quoted => do
    let some name := if ← isExtended then readsOnly? body else none
      | return bitsOf quoted (← substitute self body)
    let path := textOf [' '] (← expandWord n ⟨false, false⟩ name)
    match ← Act.readFile path with
    | .ok content =>
      modify ({ · with substituted := some 0, status := 0 })
      return bitsOf quoted (captured content)
    | .error f =>
      complain (path ++ ": " ++ f.text)
      modify ({ · with substituted := some 1, status := 1 })
      return []
  | n + 1, .sum body quoted => do
    return bitsOf quoted (Chars.ofInt (← compute (textOf [' '] (← expandParts n ⟨false, false⟩ body))))
  | n + 1, .param name index form quoted => expandParam n name index form quoted
  | _, .feed body reads => return bitsOf true (← feed self body reads)
  | _, _ => return []

def expandParam : Nat → Chars → Index → Form → Bool → Sh (List Bit)
  | 0, _, _, _, _ => return []
  | n + 1, name, index, form, quoted => do
    let joint ← joint
    let string (w : Word) : Sh Chars := do return textOf joint (← expandWord n ⟨false, false⟩ w)
    let signs (w : Word) : Sh (List Glyph) := do return glyphs joint (← expandWord n ⟨false, false⟩ w)
    /- The name with the place in it. -/
    let full ← match index with
      | .element w =>
        let isTable := aimsAtTable (← get) name
        let text := textOf joint (← expandParts n ⟨false, false⟩ w)
        pure (Arithmetic.elementName name (← if isTable then pure text else Chars.ofInt <$> compute text))
      | _ => pure name
    let value ← match index with
      | .every joined => elements name joined
      | _ => parameter full
    let extended ← isExtended
    let bits := bitsOfValue quoted joint value
    let text : Chars := match value with
      | .unset => []
      | .text t => t
      | .all args _ => Chars.join joint args
    let isUnset := match value with
      | .unset => true
      | .all args _ => extended && args.isEmpty
      | _ => false
    let strict := (← get).options.contains 'u'
    let checked (act : Sh (List Bit)) : Sh (List Bit) := do
      if value matches .unset && strict then
        if extended then
          let front := if full.head?.any Char.isDigit then ['$'] else []
          giveOut (front ++ full ++ ": unbound variable")
        else giveUp (name ++ ": parameter not set")
      else act
    let lacks (colon : Bool) : Bool := isUnset || (colon && text.isEmpty)
    let pattern (w : Word) : Sh Pattern := do return .ofGlyphs (← patternStyle) (← signs w)
    let changed (f : Chars → Chars) : Sh (List Bit) :=
      checked (return if extended then bitsOfValue quoted joint (value.map f) else bitsOf quoted (f text))
    let number (w : Word) : Sh Int := do
      compute (textOf [' '] (← expandParts n ⟨false, false⟩ w))
    match form with
    | .value => checked (return bits)
    | .length =>
      let count := (Letters.of (← wide) text).length
      let size := match value with
        | .all args _ => if extended then args.length else count
        | _ => count
      checked (return bitsOf quoted (Chars.ofNat size))
    | .orElse colon w => if lacks colon then expandWord n ⟨!quoted, false⟩ w else return bits
    | .andThen colon w => if lacks colon then return [] else expandWord n ⟨!quoted, false⟩ w
    | .orAssign colon w =>
      if lacks colon then
        let t ← string w
        if isName name then
          assign full t
          return bitsOf quoted t
        else if extended then giveUp ('$' :: name ++ ": cannot assign in this way")
        else giveUp (name ++ ": bad variable name")
      else return bits
    | .orFail colon w =>
      if lacks colon then
        if w.isEmpty then
          giveOut (full ++ ": parameter " ++
            (if extended && colon then "null or not set" else "not set").toList ++
            (if colon && !extended then " or null".toList else []))
        else giveOut (full ++ ": " ++ (← string w))
      else return bits
    | .withoutStart longest w => changed ((← pattern w).dropStart longest)
    | .withoutEnd longest w => changed ((← pattern w).dropEnd longest)
    | .slice start count => do
      let first ← number start
      let count ← count.mapM number
      let negative : Sh (List Bit) := giveUp (Chars.ofInt (count.getD 0) ++ ": substring expression < 0")
      match value with
      | .all _ joined =>
        match slicedList (← placed name) first count with
        | some args => return bitsOfValue quoted joint (.all args joined)
        | none => negative
      | .text t =>
        match ← sliced t first count with
        | some part => return bitsOf quoted part
        | none => negative
      | .unset => checked (return [])
    | .replace which w new => do
      let pattern := Pattern.ofGlyphs (← foldedStyle "nocasematch") (← signs w)
      changed (replaced which pattern (← signs new))
    | .recase change every w => changed (recased change every (← pattern w))
    | .keys =>
      let keys := ((aimedContent (← get) name).map Content.keys).getD []
      let joined := match index with
        | .every joined => joined
        | _ => false
      return bitsOfValue quoted joint (.all keys joined)
    | .names joined =>
      let names := ((← get).vars.filter fun v => name.isPrefixOf v.name && v.content.isSome).map (·.name)
      return bitsOfValue quoted joint (.all (sortBy Chars.le names) joined)
    | .through form => do
      let v? ← var? name
      if v?.any (·.traits.contains 'n') then return bitsOf quoted ((v?.bind Variable.value).getD [])
      else if isUnset then
        match form with
        | .value => giveUp (full ++ ": invalid indirect expansion")
        | _ => expandParam n name index form quoted
      else
        match nameAndPlace text with
        | (target, none) =>
          if !isName target && paramName target ≠ target || target.isEmpty then
            giveUp (target ++ ": invalid variable name")
          else expandParam n target .whole form quoted
        | (target, some ['@']) => expandParam n target (.every false) form quoted
        | (target, some ['*']) => expandParam n target (.every true) form quoted
        | (target, some place) => expandParam n target (.element (place.map .quoted)) form quoted
    | .transform how => checked (return bitsOfValue quoted joint (← transform name index how value))

end

def effort : Nat := 2 ^ 60

variable (w : Word)

def single : Sh Chars := do
  return textOf (← joint) (← expandWord self effort ⟨false, false⟩ w)

def assigned : Sh Chars := do
  return textOf (← joint) (← expandWord self effort ⟨false, true⟩ w)

def patternGlyphs : Sh (List Glyph) := do
  return glyphs (← joint) (← expandWord self effort ⟨false, false⟩ w)

def pattern : Sh Pattern := do
  return .ofGlyphs (← foldedStyle "nocasematch") (← patternGlyphs self w)

def document : Sh Chars := do
  return textOf (← joint) (← expandParts self effort ⟨false, false⟩ w)

def nameOptions : Sh NameOptions := do
  if ← isExtended then
    return ⟨← foldedStyle "nocaseglob", ← choice "dotglob", ← choice "globstar", !(← choice "globskipdots")⟩
  return .common

def namesFor (fields : List (List Glyph)) : Sh (List Chars) := do
  let o ← nameOptions
  if (← option 'f') || !(fields.any (isPattern o)) then return fields.map fun gs => gs.map (·.char)
  let d ← ask .disk
  let vanishes ← choice "nullglob"
  let fails ← choice "failglob"
  let names ← fields.mapM fun gs => do
    let text := gs.map (·.char)
    if isPattern o gs then
      match pathsFor o d gs with
      | [] =>
        if fails then giveUp ("no match: " ++ text)
        else return if vanishes then [] else [text]
      | paths => return paths
    else return [text]
  return names.flatten

def fieldsOf : Sh (List Chars) := do
  let bits ← expandWord self effort ⟨false, false⟩ w
  namesFor (split (← dividers) bits)

def fields : Sh (List Chars) := do
  if (← isExtended) && (← option 'B') then return (← (Braces.expand w).mapM (fieldsOf self)).flatten
  fieldsOf self w

def allFields (ws : List Word) : Sh (List Chars) := do
  return (← ws.mapM (fields self)).flatten

end Sh

end Prune.Shell
