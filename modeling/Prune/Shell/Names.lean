import Prune.Disk.Access
import Prune.Order
import Prune.Shell.Pattern
import Prune.Shell.Syntax

/-!
Words with alternatives or sequences in braces stand for several words, one for each of them.
-/

namespace Prune.Shell.Braces

/-- How long the text of a brace is up to the one that closes it. There has to be a comma or two dots in
it that are not in another brace. -/
def length? : (depth : Nat) → (divided : Bool) → Word → Option Nat
  | _, _, [] => none
  | depth, divided, p :: rest =>
    if depth = 0 && divided && p matches .plain '\x7d' then some 0
    else
      let divides := match p, rest with
        | .plain ',', _ | .plain '.', .plain '.' :: _ => depth = 0
        | _, _ => false
      let depth := match p with
        | .plain '\x7d' => depth - 1
        | .plain '\x7b' => depth + 1
        | _ => depth
      (length? depth (divided || divides) rest).map (· + 1)

def find? : Word → Option (Word × Word × Word)
  | [] => none
  | p :: rest =>
    let later := (find? rest).map fun (before, inner, behind) => (p :: before, inner, behind)
    match if p matches .plain '\x7b' then length? 0 false rest else none with
    | some n => some ([], rest.take n, rest.drop (n + 1))
    | none => later

def alternatives : (depth : Nat) → Word → List Word
  | _, [] => [[]]
  | depth, p :: rest =>
    let kept (depth : Nat) : List Word := Chars.ontoFirst p (alternatives depth rest)
    match p with
    | .plain ',' => if depth = 0 then [] :: alternatives 0 rest else kept depth
    | .plain '\x7b' => kept (depth + 1)
    | .plain '\x7d' => kept (depth - 1)
    | _ => kept depth

def dotted : Chars → List Chars
  | [] => [[]]
  | '.' :: '.' :: rest => [] :: dotted rest
  | c :: rest => Chars.ontoFirst c (dotted rest)

def run (first last : Int) (step : Nat) : List Int :=
  let count := (last - first).natAbs / step + 1
  (List.range count).map fun i => if first ≤ last then first + (i * step : Nat) else first - (i * step : Nat)

def isPadded (text : Chars) : Bool :=
  match text with
  | '-' :: '0' :: _ :: _ | '0' :: _ :: _ => true
  | _ => false

def padded (width : Nat) (n : Int) : Chars :=
  if n < 0 then '-' :: (Chars.ofNat n.natAbs).leftpad (width - 1) '0'
  else (Chars.ofNat n.toNat).leftpad width '0'

def sequence? (text : Chars) : Option (List Chars) := do
  let (first, last, step) ← match dotted text with
    | [first, last] => some (first, last, some 1)
    | [first, last, step] => some (first, last, (Chars.toInt? step).map Int.natAbs)
    | _ => none
  let step := max 1 (← step)
  match Chars.toInt? first, Chars.toInt? last with
  | some a, some b =>
    let width := if isPadded first || isPadded last then max first.length last.length else 0
    return (run a b step).map (padded width)
  | none, none =>
    let ([a], [b]) := (first, last) | none
    if a.isAlpha && b.isAlpha then return (run a.toNat b.toNat step).map fun n => [Char.ofNat n.toNat]
    none
  | _, _ => none

def hasComma (w : Word) : Bool := w.any fun
  | .plain ',' => true
  | _ => false

def expandAt : Nat → Word → List Word
  | 0, w => [w]
  | n + 1, w =>
    match find? w with
    | none => [w]
    | some (before, inner, behind) =>
      let middles :=
        if hasComma inner then (alternatives 0 inner).flatMap (expandAt n)
        else
          match (literal? inner).bind sequence? with
          | some texts => texts.map plainWord
          | none => [.plain '\x7b' :: inner ++ [.plain '\x7d']]
      let ends := expandAt n behind
      middles.flatMap fun middle => ends.map fun last => before ++ middle ++ last

def expand (w : Word) : List Word := expandAt (w.length + 1) w

end Prune.Shell.Braces

/-!
The names on a disk that a pattern matches. A pattern is matched directory by directory; a name that
starts with a dot is only matched by a dot.
-/

namespace Prune.Shell

structure NameOptions where
  style : PatternStyle
  /-- A name that starts with a dot is matched as others are. -/
  dots : Bool
  /-- Two stars match directories at any depth. -/
  deep : Bool
  /-- A dot in a pattern matches the directory itself and the one it is in. -/
  selves : Bool

def NameOptions.common : NameOptions := ⟨.plain, false, false, true⟩

def isMeta (g : Glyph) : Bool := !g.quoted && (g.char = '*' || g.char = '?' || g.char = '[')

variable (o : NameOptions)

def isPattern : List Glyph → Bool
  | [] => false
  | g :: gs =>
    let opens := !g.quoted && isGroupSign g.char && gs.head? = some ⟨'(', false⟩
    isMeta g || (o.style.groups && opens) || isPattern gs

def namesIn (d : Disk) (dir : Chars) (gs : List Glyph) : List Chars :=
  let pattern := Pattern.ofGlyphs o.style gs
  let dotted := gs.head?.any (·.char = '.')
  match d.children ⟨Chars.toBytes (if dir.isEmpty then ['.'] else dir)⟩ with
  | .error _ => []
  | .ok entries =>
    let names := entries.map fun (name, _) => Chars.ofBytes name
    let names :=
      if dotted && o.selves then ['.'] :: ['.', '.'] :: names
      else if dotted || o.dots then names
      else names.filter (·.head? ≠ some '.')
    names.filter pattern.fits

def cutSlashes (gs : List Glyph) : List Glyph × Nat × List Glyph :=
  let start := gs.takeWhile (·.char ≠ '/')
  let behind := gs.drop start.length
  let slashes := (behind.takeWhile (·.char = '/')).length
  (start, slashes, behind.drop slashes)

def directoriesUnder (d : Disk) : Nat → Chars → List Chars
  | 0, _ => []
  | n + 1, dir =>
    (namesIn o d dir [⟨'*', false⟩]).flatMap fun name =>
      let path := dir ++ name
      if (d.look ⟨Chars.toBytes path⟩).toOption.any Entry.isDir then
        (path ++ ['/']) :: directoriesUnder d n (path ++ ['/'])
      else []

def pathsFrom (d : Disk) : Nat → (done : Chars) → List Glyph → List Chars
  | 0, _, _ => []
  | n + 1, done, gs =>
    let (start, slashes, rest) := cutSlashes gs
    if o.deep && start = [⟨'*', false⟩, ⟨'*', false⟩] then
      let dirs := done :: directoriesUnder o d d.entries.length done
      if slashes = 0 && rest.isEmpty then
        (if done.isEmpty then [] else [done]) ++
          dirs.flatMap fun dir => (namesIn o d dir [⟨'*', false⟩]).map (dir ++ ·)
      else if rest.isEmpty then dirs.filter (!·.isEmpty)
      else dirs.flatMap fun dir => pathsFrom d n dir rest
    else
      let steps := if isPattern o start then (namesIn o d done start).map (done ++ ·)
        else [done ++ start.map (·.char)]
      if slashes = 0 && rest.isEmpty then steps.filter fun p => (d.look ⟨Chars.toBytes p⟩).isOk
      else
        steps.flatMap fun p =>
          let p := p ++ List.replicate slashes '/'
          if rest.isEmpty then if (d.look ⟨Chars.toBytes p⟩).isOk then [p] else []
          else pathsFrom d n p rest

def pathsFor (d : Disk) (gs : List Glyph) : List Chars :=
  (sortBy Chars.le (pathsFrom o d (gs.length + 1) [] gs)).eraseDups

end Prune.Shell
