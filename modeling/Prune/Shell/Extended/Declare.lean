import Prune.Shell.Extended.Options

/-!
Built-in commands that give variables their properties.
-/

namespace Prune.Shell.Extended

open Host Sh

/-- An argument that names a variable, with what is assigned to it. -/
structure Declared where
  name : Chars
  place : Option Chars
  appends : Bool
  value : Option Chars

def declared (arg : Chars) : Declared :=
  let (front, value) := Chars.cut '=' arg
  let appends := value.isSome && front.getLast? = some '+'
  let front := if appends then front.dropLast else front
  let (name, place) := nameAndPlace front
  ⟨name, place, appends, value⟩

def makeLocal (name : Chars) : Sh Unit := do
  let s ← get
  let frame :: frames := s.locals | pure ()
  if !frame.any (·.1 = name) then
    set { s with locals := ((name, s.vars.find? (·.name = name)) :: frame) :: frames }
    putVar ⟨name, none, false, false, []⟩

def withTraits (letters : List Given) (v : Variable) : Variable :=
  letters.foldl (fun v g =>
    let on := g.sign = '-'
    let others := v.traits.filter (· ≠ g.letter)
    match g.letter with
    | 'x' => { v with exported := on }
    | 'r' => { v with fixed := v.fixed || on }
    | 'a' | 'A' =>
      let made (first : List Chars) : Content :=
        if g.letter = 'a' then .list (first.map (0, ·)) else .table (first.map (['0'], ·))
      match v.content with
      | some (.text t) => { v with content := some (made [t]) }
      | some _ => v
      | none => { v with content := some (made []) }
    | 'u' | 'l' =>
      { v with traits := if on then g.letter :: others.filter fun c => c ≠ 'u' && c ≠ 'l' else others }
    | c => if "in".contains c then { v with traits := if on then c :: others else others } else v) v

def declareOne (self : Self) (command : String) (letters : List Given) (isLocal : Bool)
    (arg : Chars) : Sh Nat := do
  let list? := (← get).lists.lookup arg
  let d : Declared := match list? with
    | some (.mk name _ appends _) => ⟨name, none, appends, none⟩
    | none => declared arg
  if !isName d.name then return ← fail 1 (command ++ ": \x60" ++ arg ++ "': not a valid identifier")
  if isLocal then makeLocal d.name
  let v := (← var? d.name).getD ⟨d.name, none, false, false, []⟩
  if v.fixed && (d.value.isSome || list?.isSome) then
    complain (d.name ++ ": readonly variable")
    return 1
  let refers := letters.any fun g => g.letter = 'n' && g.sign = '-'
  putVar (withTraits (letters.filter fun g => g.letter ≠ 'r' && g.letter ≠ 'n') v)
  match list?, d.value with
  | some a, _ => let _ ← assignWord self false a
  | none, some text =>
    if refers then assignText d.name text
    else
      let index := d.place.map fun p => p.map Part.quoted
      let shows := command = "export" || command = "readonly"
      let _ ← assignWord self shows (.mk d.name index d.appends (text.map .quoted))
  | none, none => pure ()
  let v := (← var? d.name).getD v
  putVar (withTraits (letters.filter fun g => g.letter = 'r' || g.letter = 'n') v)
  return 0

variable (command : String)

def showDeclared (names : List Chars) (isShown : Variable → Bool) : Sh Nat := do
  let s ← get
  if names.isEmpty then
    return ← forEach (Builtin.sortedVars (s.vars.filter isShown)) fun v => do
      tell (declaration (← wide) v ++ ['\n'])
  forEach names fun name => do
    match s.vars.find? (·.name = name), madeUp s name with
    | some v, _ => tell (declaration (← wide) v ++ ['\n'])
    | none, some c => tell (declaration (← wide) ⟨name, some c, false, false, []⟩ ++ ['\n'])
    | none, none => fail 1 (command ++ ": " ++ name ++ ": not found")

def declareUsage : String :=
  command ++ " [-aAfFgiIlnrtux] [name[=value] ...] or " ++ command ++ " -p [-aAfFilnrtux] [name ...]"

def declareAll (self : Self) (command : String) (letters : List Given) (isLocal : Bool)
    (args : List Chars) : Sh Nat :=
  forEach args (declareOne self command letters isLocal)

def showFunctions (names : List Chars) : Sh Nat := do
  let known := sortBy Chars.le ((← get).functions.map (·.1))
  if names.isEmpty then forEach known fun name => tell ("declare -f " ++ name ++ ['\n'])
  else forEach names fun name => if known.contains name then tell (name ++ ['\n']) else return 1

def declare : Builtin := fun self _ args => do
  let (letters, names) ← readGiven command (declareUsage command) "aAfFgiIlnprtux" true (args.length + 1) args
  let s ← get
  if has letters 'f' || has letters 'F' then showFunctions names
  else if has letters 'p' || (names.isEmpty && !letters.isEmpty) then
    let wanted := letters.filter fun g => g.letter ≠ 'p'
    showDeclared command names fun v => wanted.all fun g => (propertiesOf v).contains g.letter
  else if names.isEmpty then showAll
  else declareAll self command letters (!s.locals.isEmpty && !has letters 'g') names

def localVars : Builtin := fun self _ args => do
  if (← get).locals.isEmpty then refuse "local" "can only be used in a function"
  else
    let (letters, names) ← readGiven "local" "local [option] name[=value] ..." "aAfFgiIlnprtux" true
      (args.length + 1) args
    declareAll self "local" letters true names

def exportVars : Builtin := fun self _ args => do
  let usage := "export [-fn] [name[=value] ...] or export -p"
  let (letters, names) ← given "export" usage "fnp" args
  if names.isEmpty then showDeclared "export" [] (·.exported)
  else if has letters 'f' then
    let s ← get
    forEach names fun name =>
      if s.functions.any (·.1 = name) then return 0 else fail 1 ("export: " ++ name ++ ": not a function")
  else declareAll self "export" [⟨if has letters 'n' then '+' else '-', 'x', []⟩] false names

def fixVars : Builtin := fun self _ args => do
  let usage := "readonly [-aAf] [name[=value] ...] or readonly -p"
  let (letters, names) ← given "readonly" usage "aAfp" args
  if names.isEmpty then showDeclared "readonly" [] (·.fixed)
  else if has letters 'f' then return 0
  else
    let kinds := letters.filter fun g => g.letter = 'a' || g.letter = 'A'
    declareAll self "readonly" (kinds ++ [⟨'-', 'r', []⟩]) false names

def unsetElement (self : Self) (name place : Chars) : Sh Unit := do
  let some v ← var? name | pure ()
  match v.content with
  | some (.table items) =>
    let key ← placeOf self true (place.map .quoted)
    putVar { v with content := some (.table (items.filter (·.1 ≠ key))) }
  | some (.list items) =>
    let n := (Chars.toInt? (← placeOf self false (place.map .quoted))).getD 0
    let n := if n < 0 then Content.nextPlace items + n else n
    putVar { v with content := some (.list (items.filter fun p => (p.1 : Int) ≠ n)) }
  | _ => if place = ['0'] then forget name

def unsetVars : Builtin := fun self _ args => do
  let (letters, names) ← given "unset" "unset [-f] [-v] [-n] [name ...]" "fvn" args
  forEach names fun word => do
    let (base, place) := nameAndPlace word
    let s ← get
    let name := if has letters 'n' then base else aimOf s base
    match if has letters 'f' then none else s.vars.find? (·.name = name) with
    | none =>
      if !has letters 'v' then set { s with functions := s.functions.filter (·.1 ≠ word) }
    | some v =>
      if v.fixed then return ← fail 1 ("unset: " ++ name ++ ": cannot unset: readonly variable")
      match place with
      | some ['@'] | some ['*'] | none => forget name
      | some place => unsetElement self name place
    return 0

def letVars : Builtin := fun _ _ args => do
  if args.isEmpty then refuse "let" "expression expected"
  let mut last : Int := 0
  for arg in args do
    match ← computed arg with
    | .ok n => last := n
    | .error message => refuse "let" message
  return if last = 0 then 1 else 0

/-!
Reading into variables and lists.
-/

structure Manner where
  fd : Nat
  /-- The character that ends it. -/
  last : Char
  /-- A backslash is a character as others are. -/
  raw : Bool
  /-- How many characters are read at most. -/
  most : Option Nat
  /-- The character that ends it counts as others do. -/
  exact : Bool

def nextChar (fd : Nat) : Sh (Option Char) := do
  match ← ask (.read fd 1 false) with
  | .ok (c :: _) => return some c
  | _ => return none

/-- Reads characters, each with whether a backslash stood before it; and whether the end was met. The
characters are in reverse. -/
def readChars (m : Manner) : Nat → Nat → List (Char × Bool) → Sh (List (Char × Bool) × Bool)
  | 0, _, acc => return (acc, false)
  | n + 1, count, acc => do
    if m.most = some count then return (acc, true)
    let some c ← nextChar m.fd | return (acc, false)
    if c = m.last && !m.exact then return (acc, true)
    else if c = '\\' && !m.raw then
      match ← nextChar m.fd with
      | none => return (acc, false)
      | some '\n' => readChars m n count acc
      | some d => readChars m n (count + 1) ((d, true) :: acc)
    else if c = '\x00' then readChars m n count acc
    else readChars m n (count + 1) ((c, false) :: acc)

def readUsage : String :=
  "read [-ers] [-a array] [-d delim] [-i text] [-n nchars] [-N nchars] [-p prompt] [-t timeout] [-u fd] [name ...]"

def delimiter (letters : List Given) : Char := ((valueOf? letters 'd').getD ['\n']).headD '\x00'

def readVars : Builtin := fun _ _ args => do
  let (letters, names) ← given "read" readUsage "ersa:d:i:n:N:p:t:u:" args
  match names.find? fun n => !isName (nameAndPlace n).1 with
  | some bad => refuse "read" ('\x60' :: bad ++ "': not a valid identifier")
  | none =>
    let fd := ((valueOf? letters 'u').bind Chars.toNat?).getD 0
    let isOpen := (← ask (.describe fd)).isSome
    if !isOpen && has letters 'u' then
      refuse "read" (Chars.ofNat fd ++ ": invalid file descriptor: Bad file descriptor")
    let exact := has letters 'N'
    let most := ((valueOf? letters 'N').orElse fun _ => valueOf? letters 'n').bind Chars.toNat?
    let last := delimiter letters
    let (chars, complete) ← readChars ⟨fd, last, has letters 'r', most, exact⟩ Act.patience 0 []
    let chars := chars.reverse
    let text := chars.map (·.1)
    let bits := chars.map fun (c, quoted) => Bit.glyph ⟨c, quoted⟩ !quoted
    let dividers ← dividers
    match valueOf? letters 'a' with
    | some name =>
      let fields := (split dividers bits).map fun gs => gs.map (·.char)
      let v ← changeable name
      putVar { v with content := some (.list (fields.zipIdx.map fun (f, i) => (i, f))) }
    | none =>
      if names.isEmpty then assign "REPLY" text
      let fields := if exact then [text] else Builtin.lineFields dividers names.length bits
      for (name, i) in names.zipIdx do
        assign name (fields.getD i [])
    return if complete then 0 else 1

def piecesOf (last : Char) : Chars → List Chars
  | [] => []
  | c :: rest =>
    if c = last then [c] :: piecesOf last rest else Chars.ontoFirst c (piecesOf last rest)

def mapfile : Builtin := fun _ _ args => do
  let usage := command ++
    " [-d delim] [-n count] [-O origin] [-s count] [-t] [-u fd] [-C callback] [-c quantum] [array]"
  let (letters, names) ← given command usage "d:n:O:s:tu:C:c:" args
  let name := names.headD "MAPFILE"
  let number (c : Char) : Nat := ((valueOf? letters c).bind Chars.toNat?).getD 0
  let last := delimiter letters
  let text := (← Act.readAll (number 'u')).toOption.getD []
  let lines := (piecesOf last text).drop (number 's')
  let lines := if number 'n' = 0 then lines else lines.take (number 'n')
  let lines := lines.map fun l => if has letters 't' && l.getLast? = some last then l.dropLast else l
  let v ← changeable name
  let before := if has letters 'O' then (v.content.map Content.items).getD [] else []
  let items := lines.zipIdx.foldl (fun items (l, i) => Content.insertAt items (number 'O' + i) l) before
  putVar { v with content := some (.list items) }
  return 0

end Prune.Shell.Extended
