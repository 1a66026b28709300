import Std.Data.HashMap

/-!
What two rows of things differ in. The common things are found from both ends at once along the
diagonals of the table of pairs: a point where the two searches meet splits the table into two smaller
ones. Changes are then moved, so that they stand together and as late as possible.
-/

namespace Prune.Edits

structure Changed where
  old : Array Bool
  new : Array Bool

/-- Where both searches are on each diagonal, and between which diagonals they are. -/
structure Search where
  down : Array Int
  up : Array Int
  downLow : Int
  downHigh : Int
  upLow : Int
  upHigh : Int

structure Region where
  xStart : Int
  xStop : Int
  yStart : Int
  yStop : Int

structure Rows where
  old : Array Nat
  new : Array Nat

namespace Rows

variable (r : Rows)

def same (x y : Int) : Bool := r.old[x.toNat]? == r.new[y.toNat]?

def middle : Int := r.new.size + 2

def width : Nat := r.old.size + r.new.size + 5

def at_ (row : Array Int) (d : Int) : Int := row.getD (d + r.middle).toNat 0

def put (row : Array Int) (d value : Int) : Array Int := row.setIfInBounds (d + r.middle).toNat value

variable (g : Region)

def slideDown : Nat → Int → Int → Int
  | 0, x, _ => x
  | n + 1, x, y => if x < g.xStop && y < g.yStop && r.same x y then slideDown n (x + 1) (y + 1) else x

def slideUp : Nat → Int → Int → Int
  | 0, x, _ => x
  | n + 1, x, y =>
    if g.xStart < x && g.yStart < y && r.same (x - 1) (y - 1) then slideUp n (x - 1) (y - 1) else x

/-- Searches on from the start along `n` diagonals, from the highest down. The point is one where the
searches meet. -/
def extendDown (odd : Bool) : Nat → Int → Search → Option (Int × Int) × Search
  | 0, _, s => (none, s)
  | n + 1, d, s =>
    let low := r.at_ s.down (d - 1)
    let high := r.at_ s.down (d + 1)
    let start := if low < high then high else low + 1
    let x := r.slideDown g r.width start (start - d)
    let s := { s with down := r.put s.down d x }
    if odd && s.upLow ≤ d && d ≤ s.upHigh && r.at_ s.up d ≤ x then (some (x, x - d), s)
    else extendDown odd n (d - 2) s

def extendUp (odd : Bool) : Nat → Int → Search → Option (Int × Int) × Search
  | 0, _, s => (none, s)
  | n + 1, d, s =>
    let low := r.at_ s.up (d - 1)
    let high := r.at_ s.up (d + 1)
    let start := if low < high then low else high - 1
    let x := r.slideUp g r.width start (start - d)
    let s := { s with up := r.put s.up d x }
    if !odd && s.downLow ≤ d && d ≤ s.downHigh && x ≤ r.at_ s.down d then (some (x, x - d), s)
    else extendUp odd n (d - 2) s

def farOff : Int := Int.pow 2 62

/-- Searches from both ends with one edit more each round, until the searches meet. -/
def meet : Nat → Search → Int × Int
  | 0, _ => (g.xStart, g.yStart)
  | n + 1, s =>
    let lowest := g.xStart - g.yStop
    let highest := g.xStop - g.yStart
    let odd := (g.xStart - g.yStart - (g.xStop - g.yStop)) % 2 ≠ 0
    let s := if s.downLow > lowest then
        { s with downLow := s.downLow - 1, down := r.put s.down (s.downLow - 2) (-1) }
      else { s with downLow := s.downLow + 1 }
    let s := if s.downHigh < highest then
        { s with downHigh := s.downHigh + 1, down := r.put s.down (s.downHigh + 2) (-1) }
      else { s with downHigh := s.downHigh - 1 }
    match r.extendDown g odd ((s.downHigh - s.downLow) / 2 + 1).toNat s.downHigh s with
    | (some point, _) => point
    | (none, s) =>
      let s := if s.upLow > lowest then
          { s with upLow := s.upLow - 1, up := r.put s.up (s.upLow - 2) farOff }
        else { s with upLow := s.upLow + 1 }
      let s := if s.upHigh < highest then
          { s with upHigh := s.upHigh + 1, up := r.put s.up (s.upHigh + 2) farOff }
        else { s with upHigh := s.upHigh - 1 }
      match r.extendUp g odd ((s.upHigh - s.upLow) / 2 + 1).toNat s.upHigh s with
      | (some point, _) => point
      | (none, s) => meet n s

def middlePoint : Int × Int :=
  let start := g.xStart - g.yStart
  let stop := g.xStop - g.yStop
  let blank := Array.replicate r.width (0 : Int)
  r.meet g r.width ⟨r.put blank start g.xStart, r.put blank stop g.xStop, start, start, stop, stop⟩

def trim : Region :=
  let x := r.slideDown g r.width g.xStart g.yStart
  let g := { g with xStart := x, yStart := g.yStart + (x - g.xStart) }
  let x := r.slideUp g r.width g.xStop g.yStop
  { g with xStop := x, yStop := g.yStop - (g.xStop - x) }

def mark (flags : Array Bool) (start stop : Int) : Array Bool :=
  (List.range (stop - start).toNat).foldl (fun flags i => flags.setIfInBounds (start.toNat + i) true) flags

def compare : Nat → Region → Changed → Changed
  | 0, g, c => ⟨mark c.old g.xStart g.xStop, mark c.new g.yStart g.yStop⟩
  | n + 1, g, c =>
    let g := r.trim g
    if g.xStart = g.xStop then { c with new := mark c.new g.yStart g.yStop }
    else if g.yStart = g.yStop then { c with old := mark c.old g.xStart g.xStop }
    else
      let (x, y) := r.middlePoint g
      let c := compare n { g with xStop := x, yStop := y } c
      compare n { g with xStart := x, yStart := y } c

def changed : Changed :=
  r.compare (r.width + 1) ⟨0, r.old.size, 0, r.new.size⟩
    ⟨Array.replicate r.old.size false, Array.replicate r.new.size false⟩

end Rows

/-- The places of the things that the other row has, too: the others are changed in any case. -/
def shared (row other : Array Nat) : Array Nat :=
  let known : Std.HashMap Nat Unit := other.foldl (fun m c => m.insert c ()) ∅
  ((List.range row.size).filter fun i => known.contains (row.getD i 0)).toArray

/-- A run of changes in one row, and the place in the other row that belongs to its end. -/
structure Run where
  flags : Array Bool
  start : Nat
  stop : Nat
  other : Int
  /-- The last end at which there are changes in the other row. -/
  fitting : Option Nat

def flag (flags : Array Bool) (i : Int) : Bool := 0 ≤ i && flags.getD i.toNat false

def before (flags : Array Bool) : Nat → Int → Int
  | 0, j => j
  | n + 1, j => if flag flags (j - 1) then before flags n (j - 1) else j - 1

def from_ (flags : Array Bool) : Nat → Int → Int
  | 0, j => j
  | n + 1, j => if flag flags j then from_ flags n (j + 1) else j

def startOf (flags : Array Bool) : Nat → Nat → Nat
  | 0, i => i
  | n + 1, i => if flag flags ((i : Int) - 1) then startOf flags n (i - 1) else i

def moveBack (row : Array Nat) (others : Array Bool) : Nat → Run → Run
  | 0, r => r
  | n + 1, r =>
    if r.start > 0 && row[r.start - 1]? == row[r.stop - 1]? then
      let flags := (r.flags.setIfInBounds (r.start - 1) true).setIfInBounds (r.stop - 1) false
      moveBack row others n
        { r with
          flags
          start := startOf flags flags.size (r.start - 1)
          stop := r.stop - 1
          other := before others (others.size + 1) r.other }
    else r

def moveOn (row : Array Nat) (others : Array Bool) : Nat → Run → Run
  | 0, r => r
  | n + 1, r =>
    if r.stop < row.size && row[r.start]? == row[r.stop]? then
      let flags := (r.flags.setIfInBounds r.start false).setIfInBounds r.stop true
      let stop := (from_ flags flags.size (r.stop + 1)).toNat
      let other := from_ others (others.size + 1) (r.other + 1)
      moveOn row others n
        { r with
          flags
          start := r.start + 1
          stop
          other
          fitting := if other = r.other + 1 then r.fitting else some stop }
    else r

def merge (row : Array Nat) (others : Array Bool) : Nat → Run → Run
  | 0, r => r
  | n + 1, r =>
    let length := r.stop - r.start
    let r := moveBack row others row.size r
    let r := { r with fitting := if flag others (r.other - 1) then some r.stop else none }
    let r := moveOn row others row.size r
    if length = r.stop - r.start then r else merge row others n r

def moveToFit (others : Array Bool) : Nat → Run → Run
  | 0, r => r
  | n + 1, r =>
    if r.fitting.any (· < r.stop) then
      moveToFit others n
        { r with
          flags := (r.flags.setIfInBounds (r.start - 1) true).setIfInBounds (r.stop - 1) false
          start := r.start - 1
          stop := r.stop - 1
          other := before others (others.size + 1) r.other }
    else r

def shift (row : Array Nat) (others : Array Bool) : Nat → Nat → Int → Array Bool → Array Bool
  | 0, _, _, flags => flags
  | n + 1, i, j, flags =>
    if i ≥ row.size then flags
    else if !flag flags i then shift row others n (i + 1) (from_ others (others.size + 1) j + 1) flags
    else
      let stop := (from_ flags flags.size i).toNat
      let run : Run := ⟨flags, i, stop, from_ others (others.size + 1) j, none⟩
      let run := moveToFit others row.size (merge row others row.size run)
      shift row others n run.stop run.other run.flags

/-- Things that are replaced: where they start and how many they are, in both rows. -/
structure Hunk where
  oldStart : Nat
  oldCount : Nat
  newStart : Nat
  newCount : Nat

def hunksFrom (c : Changed) : Nat → Nat → Nat → List Hunk
  | 0, _, _ => []
  | n + 1, i, j =>
    if i ≥ c.old.size && j ≥ c.new.size then []
    else
      let i' := (from_ c.old c.old.size i).toNat
      let j' := (from_ c.new c.new.size j).toNat
      let rest := hunksFrom c n (i' + 1) (j' + 1)
      if i' = i && j' = j then rest else ⟨i, i' - i, j, j' - j⟩ :: rest

def hunks (r : Rows) : List Hunk :=
  let oldPlaces := shared r.old r.new
  let newPlaces := shared r.new r.old
  let c := Rows.changed ⟨oldPlaces.map fun i => r.old.getD i 0, newPlaces.map fun i => r.new.getD i 0⟩
  let spread (size : Nat) (places : Array Nat) (flags : Array Bool) : Array Bool :=
    (List.range places.size).foldl (fun all k => all.setIfInBounds (places.getD k 0) (flags.getD k false))
      (Array.replicate size true)
  let old := spread r.old.size oldPlaces c.old
  let new := spread r.new.size newPlaces c.new
  let old := shift r.old new (2 * r.old.size + 2) 0 0 old
  let new := shift r.new old (2 * r.new.size + 2) 0 0 new
  hunksFrom ⟨old, new⟩ (r.old.size + r.new.size + 2) 0 0

def classesOf [BEq α] [Hashable α] (old new : List α) : Rows :=
  let number (m : Std.HashMap α Nat) (a : α) : Std.HashMap α Nat × Nat :=
    match m[a]? with
    | some n => (m, n)
    | none => (m.insert a (m.size + 1), m.size + 1)
  let all (m : Std.HashMap α Nat) (row : List α) : Std.HashMap α Nat × Array Nat :=
    row.foldl (fun (m, out) a =>
      let (m, n) := number m a
      (m, out.push n)) (m, #[])
  let (m, old) := all ∅ old
  let (_, new) := all m new
  ⟨old, new⟩

end Prune.Edits
