import Prune.Text.Bytes

/-!
Paths. A path is its text, kept as it is spelled; its meaning is the list of its components. Empty
pieces and `.` pieces carry no meaning, except a `.` in front. Paths are compared by components.
-/

namespace Prune

structure Path where
  text : Bytes
deriving DecidableEq, Repr

inductive Component where
  | root
  | here
  | up
  | name (name : Bytes)
deriving DecidableEq, Repr

namespace Path

def slash : UInt8 := 0x2F

def dot : UInt8 := 0x2E

def ofString (s : String) : Path := ⟨Bytes.ofString s⟩

variable (p : Path)

def display : String := Utf8.lossy p.text

def isEmpty : Bool := p.text.isEmpty

def isAbsolute : Bool := p.text.head? == some slash

/-- A piece behind the first one that names nothing: empty, or `.`. -/
def isIdle (piece : Bytes) : Bool := piece == [] || piece == [dot]

def trimIdle (pieces : List Bytes) : List Bytes := (pieces.reverse.dropWhile isIdle).reverse

def front : Bytes := (Bytes.splitOn slash p.text).headD []

/-- The pieces behind the first one, up to the last that names something. -/
def rest : List Bytes := trimIdle (Bytes.splitOn slash p.text).tail

def Component.ofPiece (piece : Bytes) : Component := if piece = [dot, dot] then .up else .name piece

def frontComponents : List Component :=
  if p.isAbsolute then [.root]
  else if p.front = [] then []
  else if p.front = [dot] then [.here]
  else [Component.ofPiece p.front]

def components : List Component :=
  p.frontComponents ++ (p.rest.filter (!isIdle ·)).map Component.ofPiece

def fileName? : Option Bytes :=
  match p.components.getLast? with
  | some (.name n) => some n
  | _ => none

def ofPieces (absolute : Bool) (front : Bytes) (rest : List Bytes) : Path :=
  match rest with
  | [] => ⟨if absolute then [slash] else front⟩
  | rest => ⟨Bytes.joinWith slash (front :: rest)⟩

/-- The path without its last component; none for the root and for the empty path. -/
def parent? : Option Path :=
  if p.rest = [] then
    if p.isAbsolute || p.isEmpty then none else some ⟨[]⟩
  else some (ofPieces p.isAbsolute p.front (trimIdle p.rest.dropLast))

def join (name : Bytes) : Path :=
  if name.head? = some slash then ⟨name⟩
  else if p.text = [] || p.text.getLast? = some slash then ⟨p.text ++ name⟩
  else ⟨p.text ++ slash :: name⟩

/-- The path whose last component, if that is a name, is replaced by `name`; otherwise `name` is
added. -/
def withFileName (name : Bytes) : Path :=
  match p.fileName?, p.parent? with
  | some _, some dir => dir.join name
  | _, _ => p.join name

def splitLastDot : Bytes → Option (Bytes × Bytes)
  | [] => none
  | b :: bs =>
    match splitLastDot bs with
    | some (stem, ext) => some (b :: stem, ext)
    | none => if b = dot then some ([], bs) else none

/-- A file name as stem and extension. A dot in front starts no extension. -/
def splitName (name : Bytes) : Bytes × Option Bytes :=
  match splitLastDot name with
  | some ([], _) => (name, none)
  | some (stem, ext) => (stem, some ext)
  | none => (name, none)

def stem? : Option Bytes := p.fileName?.map fun n => (splitName n).1

def extension? : Option Bytes := p.fileName?.bind fun n => (splitName n).2

def directory : Path :=
  match p.parent? with
  | some dir => if dir.isEmpty then ⟨[dot]⟩ else dir
  | none => ⟨[dot]⟩

end Path

/-- Components in their order: the root, `.`, `..`, then names by their bytes. -/
def Component.key : Component → List Nat
  | .root => [0]
  | .here => [1]
  | .up => [2]
  | .name n => 3 :: n.map UInt8.toNat

namespace Path

/-- Paths are ordered by their keys: component by component, and a proper start comes first. -/
def key (p : Path) : List (List Nat) := p.components.map Component.key

def lt (p q : Path) : Bool := decide (p.key < q.key)

def le (p q : Path) : Bool := !q.lt p

/-- Two spellings of one path. -/
def same (p q : Path) : Bool := p.components == q.components

end Path

end Prune
