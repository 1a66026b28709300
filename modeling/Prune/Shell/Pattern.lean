import Prune.Text.CharClass

/-!
Patterns of names, with `*`, `?` and sets in brackets. In the extended form a sign and alternatives in
brackets stand for one of them, any number of them, or none.
-/

namespace Prune.Shell

/-- A character of an expanded word. A quoted one stands for itself. -/
structure Glyph where
  char : Char
  quoted : Bool
deriving DecidableEq

structure PatternStyle where
  /-- Alternatives in brackets have a meaning. -/
  groups : Bool
  /-- A caret too makes a set of all others. -/
  caret : Bool
  /-- Characters can take several bytes. -/
  wide : Bool
  /-- The case of letters does not count. -/
  folds : Bool

def PatternStyle.plain : PatternStyle := ⟨false, false, false, false⟩

def PatternStyle.fileNames : PatternStyle := ⟨false, true, true, false⟩

inductive Piece where
  | char (c : Char)
  | any
  | set (s : CharSet)
  | star
  /-- Alternatives, as often as the sign says: `@` once, `?` at most once, `+` at least once, `*` any
  number of times; or with `!` anything that is none of them. -/
  | group (sign : Char) (alternatives : List (List Piece))

def className? (gs : List Glyph) : Option (CharClass × List Glyph) :=
  let name := gs.takeWhile fun g => g.char.isAlpha
  match gs.drop name.length with
  | ⟨':', _⟩ :: ⟨']', _⟩ :: rest => (CharClass.ofName? (name.map (·.char))).map fun k => (k, rest)
  | _ => none

/-- The members of a set up to the bracket that closes it. One at the start stands for itself. -/
def setMembers (wide : Bool) : Nat → Bool → List Glyph → Option (List CharRange × List Glyph)
  | 0, _, _ | _, _, [] => none
  | n + 1, first, g :: gs =>
    let behind (m : CharRange) (gs : List Glyph) : Option (List CharRange × List Glyph) :=
      (setMembers wide n false gs).map fun (ms, rest) => (m :: ms, rest)
    let range : Option (List CharRange × List Glyph) :=
      match gs with
      | ⟨'-', false⟩ :: high :: rest =>
        if high = ⟨']', false⟩ then behind (.between g.char g.char) gs
        else behind (.between g.char high.char) rest
      | gs => behind (.between g.char g.char) gs
    match g, gs with
    | ⟨']', false⟩, _ => if first then range else some ([], gs)
    | ⟨'[', false⟩, ⟨':', false⟩ :: more =>
      match className? more with
      | some (k, rest) => behind (.named k wide) rest
      | none => range
    | _, _ => range

variable (style : PatternStyle)

def charSet? (gs : List Glyph) : Option (CharSet × List Glyph) :=
  let negated := gs.head?.any fun g => !g.quoted && (g.char = '!' || (style.caret && g.char = '^'))
  (setMembers style.wide (gs.length + 1) true (if negated then gs.tail else gs)).map fun (ms, rest) =>
    (⟨negated, ms⟩, rest)

def alternatives : Nat → List Glyph → Option (List (List Glyph) × List Glyph)
  | _, [] => none
  | depth, g :: gs =>
    let kept (depth : Nat) : Option (List (List Glyph) × List Glyph) :=
      (alternatives depth gs).map fun (parts, rest) => (Chars.ontoFirst g parts, rest)
    if g.quoted then kept depth
    else if g.char = '(' then kept (depth + 1)
    else if g.char = ')' then if depth = 0 then some ([[]], gs) else kept (depth - 1)
    else if g.char = '|' && depth = 0 then (alternatives 0 gs).map fun (others, rest) => ([] :: others, rest)
    else kept depth

def isGroupSign (c : Char) : Bool := "?*+@!".contains c

def group? (g : Glyph) : List Glyph → Option (List (List Glyph) × List Glyph)
  | ⟨'(', false⟩ :: more =>
    if style.groups && !g.quoted && isGroupSign g.char then alternatives 0 more else none
  | _ => none

def piecesFrom : Nat → List Glyph → List Piece
  | 0, _ | _, [] => []
  | n + 1, g :: gs =>
    let (piece, rest) : Piece × List Glyph :=
      match g, group? style g gs with
      | ⟨sign, _⟩, some (parts, rest) => (.group sign (parts.map (piecesFrom n)), rest)
      | ⟨'*', false⟩, _ => (.star, gs)
      | ⟨'?', false⟩, _ => (.any, gs)
      | ⟨'[', false⟩, _ => ((charSet? style gs).map fun (s, rest) => (.set s, rest)).getD (.char '[', gs)
      | ⟨c, _⟩, _ => (.char c, gs)
    piece :: piecesFrom n rest

def endsOf : Chars → List Chars
  | [] => [[]]
  | cs@(_ :: rest) => cs :: endsOf rest

def someEnd (goal : Chars → Bool) : Chars → Bool
  | [] => goal []
  | cs@(_ :: rest) => goal cs || someEnd goal rest

def closure (step : Chars → Chars → Bool) : Nat → List Chars → List Chars
  | 0, found => found
  | n + 1, found =>
    let new := found.flatMap fun cs =>
      (endsOf cs).filter fun r => r.length < cs.length && step cs r && !found.contains r
    if new.isEmpty then found else closure step n (found ++ new.eraseDups)

mutual

def fitsThen : List Piece → Chars → (Chars → Bool) → Bool
  | [], cs, goal => goal cs
  | p :: ps, cs, goal => p.fitsThen cs fun rest => fitsThen ps rest goal

def Piece.fitsThen : Piece → Chars → (Chars → Bool) → Bool
  | .char a, c :: cs, goal => a == c && goal cs
  | .any, _ :: cs, goal => goal cs
  | .set s, c :: cs, goal => s.holds c && goal cs
  | .star, cs, goal => someEnd goal cs
  | .group sign options, cs, goal =>
    let step (cs rest : Chars) : Bool := someFits options cs fun r => r.length == rest.length
    if sign = '@' then someFits options cs goal
    else if sign = '?' then goal cs || someFits options cs goal
    else if sign = '*' then (closure step (cs.length + 1) [cs]).any goal
    else if sign = '+' then someFits options cs fun r => (closure step (r.length + 1) [r]).any goal
    else
      let isOther (r : Chars) : Bool :=
        !someFits options (cs.take (cs.length - r.length)) List.isEmpty && goal r
      someEnd isOther cs
  | _, [], _ => false

def someFits : List (List Piece) → Chars → (Chars → Bool) → Bool
  | [], _, _ => false
  | ps :: others, cs, goal => fitsThen ps cs goal || someFits others cs goal

end

def fits (ps : List Piece) (cs : Chars) : Bool := fitsThen ps cs List.isEmpty

mutual

def foldedPieces (wide : Bool) : List Piece → List Piece
  | [] => []
  | p :: ps => p.folded wide :: foldedPieces wide ps

def Piece.folded (wide : Bool) : Piece → Piece
  | .char c =>
    let (low, high) := (Case.lower wide c, Case.upper wide c)
    if low = high then .char c else .set ⟨false, [.between low low, .between high high]⟩
  | .set s =>
    .set ⟨s.negated, s.members.flatMap fun
      | .between low high =>
        [.between low high, .between (Case.lower wide low) (Case.lower wide high),
          .between (Case.upper wide low) (Case.upper wide high)]
      | m => [m]⟩
  | .group sign options => .group sign (foldedAll wide options)
  | p => p

def foldedAll (wide : Bool) : List (List Piece) → List (List Piece)
  | [] => []
  | ps :: others => foldedPieces wide ps :: foldedAll wide others

end

/-- The pattern of a text that is not quoted anywhere, a backslash keeping the meaning from the
character behind it. -/
def glyphsOf : Chars → List Glyph
  | [] => []
  | '\\' :: c :: rest => ⟨c, true⟩ :: glyphsOf rest
  | c :: rest => ⟨c, false⟩ :: glyphsOf rest

def glyphLetters : Nat → List Glyph → List Glyph
  | _, [] => []
  | k + 1, _ :: rest => glyphLetters k rest
  | 0, g :: rest =>
    let (letter, size) := Letters.letterAt g.char (rest.map (·.char))
    ⟨letter, g.quoted⟩ :: glyphLetters (size - 1) rest

structure Pattern where
  pieces : List Piece
  wide : Bool

namespace Pattern

def ofGlyphs (style : PatternStyle) (gs : List Glyph) : Pattern :=
  let isPlain := gs.all (·.char.toNat < 0x80)
  let gs := if style.wide && !isPlain then glyphLetters 0 gs else gs
  let ps := piecesFrom style (gs.length + 1) gs
  ⟨if style.folds then foldedPieces style.wide ps else ps, style.wide⟩

variable (p : Pattern)

def isEmpty : Bool := p.pieces.isEmpty

def fits (text : Chars) : Bool := Shell.fits p.pieces (Letters.of p.wide text)

def bytewise (f : Chars → Chars) (text : Chars) : Chars :=
  Letters.toBytes p.wide (f (Letters.of p.wide text))

def dropStart (longest : Bool) : Chars → Chars :=
  p.bytewise fun text =>
    let sizes := List.range (text.length + 1)
    let sizes := if longest then sizes.reverse else sizes
    text.drop ((sizes.find? fun n => Shell.fits p.pieces (text.take n)).getD 0)

def dropEnd (longest : Bool) : Chars → Chars :=
  p.bytewise fun text =>
    let sizes := List.range (text.length + 1)
    let sizes := if longest then sizes else sizes.reverse
    text.take ((sizes.find? fun n => Shell.fits p.pieces (text.drop n)).getD text.length)

end Pattern

def matchesText (pattern text : Chars) : Bool :=
  (Pattern.ofGlyphs style (glyphsOf pattern)).fits text

def longestStart? (pattern : List Piece) (text : Chars) : Option Nat :=
  ((List.range (text.length + 1)).reverse).find? fun n => fits pattern (text.take n)

def replaceAll (pattern : List Piece) (new : Chars → Chars) (every : Bool) : Nat → Chars → Chars
  | 0, text => text
  | _, [] => []
  | n + 1, text@(c :: rest) =>
    match longestStart? pattern text with
    | some (k + 1) =>
      let behind := text.drop (k + 1)
      new (text.take (k + 1)) ++ (if every then replaceAll pattern new every n behind else behind)
    | _ => c :: replaceAll pattern new every n rest

end Prune.Shell
