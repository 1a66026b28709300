/-!
Strings of bytes: what a file holds, what a directory entry is called, how a path is spelled.
-/

namespace Prune

abbrev Bytes := List UInt8

namespace Bytes

def ofString (s : String) : Bytes := s.toList.flatMap String.utf8EncodeChar

instance : Coe String Bytes := ⟨ofString⟩

-- a power of numbers is the core library's, also where algebra is imported
attribute [instance (20000), default_instance 20000] instPowNat

def splitOn (sep : UInt8) : Bytes → List Bytes
  | [] => [[]]
  | b :: bs =>
    if b = sep then [] :: splitOn sep bs
    else
      match splitOn sep bs with
      | [] => [[b]]
      | p :: ps => (b :: p) :: ps

def joinWith (sep : UInt8) : List Bytes → Bytes
  | [] => []
  | [p] => p
  | p :: ps => p ++ sep :: joinWith sep ps

theorem splitOn_ne_nil (sep : UInt8) (bs : Bytes) : splitOn sep bs ≠ [] := by
  cases bs with
  | nil => simp [splitOn]
  | cons b bs =>
    simp only [splitOn]
    split
    · simp
    · split <;> simp

theorem joinWith_cons (sep : UInt8) (p : Bytes) {ps : List Bytes} (h : ps ≠ []) :
    joinWith sep (p :: ps) = p ++ sep :: joinWith sep ps := by
  cases ps with
  | nil => exact absurd rfl h
  | cons q qs => rfl

def lowerByte (b : UInt8) : UInt8 := if 0x41 ≤ b ∧ b ≤ 0x5A then b + 0x20 else b

def lower (bs : Bytes) : Bytes := bs.map lowerByte

def occursIn (needle : Bytes) : Bytes → Bool
  | [] => needle.isEmpty
  | b :: bs => needle.isPrefixOf (b :: bs) || occursIn needle bs

def le : Bytes → Bytes → Bool
  | [], _ => true
  | _ :: _, [] => false
  | a :: as, b :: bs => a < b || (a == b && le as bs)

end Bytes

end Prune

/-!
Reading bytes as UTF-8. The reader goes byte by byte and never fails: where the bytes are ill formed
it yields one gap for each longest start of a character that breaks off.
-/

namespace Prune.Utf8

/-- Where the reader stands: between characters, or `need` bytes short of one whose bits so far are
`bits` and whose next byte lies between `low` and `high`. -/
inductive State where
  | start
  | within (need : Nat) (low high : UInt8) (bits : Nat)

def lead (b : UInt8) : Option State :=
  if 0xC2 ≤ b ∧ b ≤ 0xDF then some (.within 1 0x80 0xBF (b.toNat - 0xC0))
  else if b = 0xE0 then some (.within 2 0xA0 0xBF 0)
  else if b = 0xED then some (.within 2 0x80 0x9F 0xD)
  else if 0xE1 ≤ b ∧ b ≤ 0xEF then some (.within 2 0x80 0xBF (b.toNat - 0xE0))
  else if b = 0xF0 then some (.within 3 0x90 0xBF 0)
  else if 0xF1 ≤ b ∧ b ≤ 0xF3 then some (.within 3 0x80 0xBF (b.toNat - 0xF0))
  else if b = 0xF4 then some (.within 3 0x80 0x8F 4)
  else none

def first (b : UInt8) : List (Option Char) × State :=
  if b < 0x80 then ([some (Char.ofNat b.toNat)], .start)
  else
    match lead b with
    | some s => ([], s)
    | none => ([none], .start)

/-- A byte met in a state. A byte that cannot continue the open character leaves a gap and is read
again from the start. -/
def step : State → UInt8 → List (Option Char) × State
  | .start, b => first b
  | .within need low high bits, b =>
    if low ≤ b ∧ b ≤ high then
      let bits := bits * 64 + (b.toNat - 0x80)
      if need ≤ 1 then ([some (Char.ofNat bits)], .start)
      else ([], .within (need - 1) 0x80 0xBF bits)
    else
      let (out, next) := first b
      (none :: out, next)

def readFrom : State → Bytes → List (Option Char)
  | .start, [] => []
  | .within .., [] => [none]
  | s, b :: bs =>
    let (out, next) := step s b
    out ++ readFrom next bs

variable (bytes : Bytes)

def read : List (Option Char) := readFrom .start bytes

def isValid : Bool := (read bytes).all (·.isSome)

def decode? : Option String :=
  if isValid bytes then some (String.ofList ((read bytes).filterMap id)) else none

def lossy : String := String.ofList ((read bytes).map (·.getD '�'))

end Prune.Utf8
