import Prune.Disk.Access
import Prune.Host.Call

/-!
Whole texts in and out of a process.
-/

namespace Prune.Host.Act

/-- More rounds than any loop makes in the time there is. -/
def patience : Nat := 2 ^ 60

def blockSize : Nat := 65536

def writeFrom (fd : Nat) : Nat → Chars → Act (Except Fault Unit)
  | 0, _ => return .ok ()
  | n + 1, text => do
    match ← ask (.write fd text) with
    | .error f => return .error f
    | .ok count => if count < text.length then writeFrom fd n (text.drop count) else return .ok ()

def write (fd : Nat) (text : Chars) : Act (Except Fault Unit) :=
  if text.isEmpty then return .ok () else writeFrom fd patience text

def readFrom (fd : Nat) (line : Bool) : Nat → List Chars → Act (Except Fault Chars)
  | 0, acc => return .ok acc.reverse.flatten
  | n + 1, acc => do
    match ← ask (.read fd blockSize line) with
    | .error f => return .error f
    | .ok [] => return .ok acc.reverse.flatten
    | .ok text =>
      if line && text.getLast? = some '\n' then return .ok (text :: acc).reverse.flatten
      else readFrom fd line n (text :: acc)

def readAll (fd : Nat) : Act (Except Fault Chars) := readFrom fd false patience []

def readLine (fd : Nat) : Act (Except Fault Chars) := readFrom fd true patience []

instance : Coe Chars Path := ⟨fun name => ⟨Chars.toBytes name⟩⟩

def openToRead (name : Chars) : Act (Except Fault Nat) := ask (.open name .reading 0)

def readFile (name : Chars) : Act (Except Fault Chars) := do
  match ← openToRead name with
  | .error f => return .error f
  | .ok fd =>
    let text ← readAll fd
    ask (.close fd)
    return text

end Prune.Host.Act

def Prune.Fault.text (f : Fault) : Chars := f.words.2.toList
