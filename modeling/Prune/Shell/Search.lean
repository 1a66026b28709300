import Prune.Shell.Extended.Control
import Prune.Shell.Extended.Declare
import Prune.Shell.Extended.Jobs

/-!
What the name of a command means: a function, a built-in command, or a program to be found.
-/

namespace Prune.Shell

open Host Sh

/-- A built-in command. A special one ends the shell when it fails. -/
structure Known where
  run : Builtin
  special : Bool

def specialBuiltins : List (String × Builtin) :=
  [(":", .nothing), (".", .source), ("break", .jump "break" .leave), ("continue", .jump "continue" .again),
    ("eval", .eval), ("exit", .exit), ("export", .exportVars), ("local", .localVars),
    ("readonly", .fixVars), ("return", .back), ("set", .setArgs), ("shift", .shift), ("times", .times),
    ("trap", .trap), ("unset", .unsetVars)]

def otherBuiltins : List (String × Builtin) :=
  [("[", .test true), ("alias", .aliases), ("cd", .changeDirectory), ("chdir", .changeDirectory),
    ("echo", .echo), ("false", .failure), ("getopts", .nextOption), ("kill", .kill), ("printf", .printf),
    ("pwd", .printDirectory), ("read", .readVars), ("test", .test false), ("true", .nothing),
    ("ulimit", .limits), ("umask", .umask), ("unalias", .unalias), ("wait", .wait)]

def builtins : List (String × Known) :=
  specialBuiltins.map (fun (name, run) => (name, ⟨run, true⟩)) ++
    otherBuiltins.map fun (name, run) => (name, ⟨run, false⟩)

def extendedBuiltins : List (String × Builtin) :=
  [(":", .nothing), (".", Extended.source "."), ("[", Extended.test true), ("alias", .aliases),
    ("break", Extended.jump "break" .leave), ("cd", Extended.changeDirectory),
    ("continue", Extended.jump "continue" .again), ("declare", Extended.declare "declare"),
    ("echo", Extended.echo), ("enable", .nothing), ("eval", Extended.eval), ("exit", Extended.exit),
    ("export", Extended.exportVars), ("false", .failure), ("getopts", .nextOption), ("history", .nothing),
    ("kill", Extended.kill), ("let", Extended.letVars), ("local", Extended.localVars),
    ("logout", Extended.exit), ("mapfile", Extended.mapfile "mapfile"), ("printf", Extended.printf),
    ("pwd", Extended.printDirectory), ("read", Extended.readVars),
    ("readarray", Extended.mapfile "readarray"), ("readonly", Extended.fixVars), ("return", Extended.back),
    ("set", Extended.setArgs), ("shift", Extended.shift), ("shopt", Extended.shopt),
    ("source", Extended.source "source"), ("test", Extended.test false), ("times", .times),
    ("trap", Extended.trap), ("true", .nothing), ("typeset", Extended.declare "typeset"),
    ("ulimit", .limits), ("umask", Extended.umask), ("unalias", .unalias), ("unset", Extended.unsetVars),
    ("wait", Extended.wait)]

def partOfRunning : List String := ["command", "exec", "type"]

def extendedReserved : List String := reserved ++ ["[[", "]]", "function", "select", "time", "coproc"]

def mayRun? (d : Disk) (path : Chars) : Option Bool :=
  (d.stat path).toOption.map fun e => e.isFile && Utility.Test.mayUse e Disk.runBit

variable (name : Chars)

def findProgram : Sh (Except Fault Chars) := do
  if name.contains '/' then return .ok name
  if let some path := (← get).found.lookup name then return .ok path
  let d ← ask .disk
  let paths := (← Builtin.searchPath).map (Builtin.inDirectory · name)
  match paths.find? fun p => mayRun? d p = some true with
  | some p =>
    if p.head? = some '/' then modify fun s => { s with found := (name, p) :: s.found }
    return .ok p
  | none => return .error (if paths.any fun p => mayRun? d p = some false then .denied else .notFound)

def runFault (dialect : Dialect) (name : Chars) (isThere : Bool) (f : Fault) : Chars × Nat :=
  let isMissing := f = .notFound || f = .notDirectory
  match dialect with
  | .common =>
    if isMissing then ("not found", 127)
    else (f.text, if f = .tooManyLinks || f = .nameTooLong then 127 else 126)
  | .extended =>
    if f = .notFound && !name.contains '/' then ("command not found", 127)
    else if f = .notFound && isThere then ("cannot execute: required file not found", 127)
    else (f.text, if f = .notFound then 127 else 126)

def faultFor (f : Fault) : Sh (Chars × Nat) := do
  let d ← ask .disk
  let entry := (d.stat name).toOption
  let f := if entry.any Entry.isDir && f = .denied && (← isExtended) then Fault.isDirectory else f
  return runFault (← get).dialect name entry.isSome f

def describe (verbose : Bool) (name : Chars) : Sh Nat := do
  let s ← get
  let say (short long : Chars) : Sh Nat := do
    tell ((if verbose then name ++ long else short) ++ ['\n'])
  let text := String.ofList name
  if reserved.contains text then say name " is a shell keyword"
  else
    match s.aliases.lookup name with
    | some value => say ("alias " ++ name ++ '=' :: Quoting.between value) (" is an alias for " ++ value)
    | none =>
      let isSpecial := (builtins.find? (·.1 = text)).any (·.2.special) || text = "exec"
      if isSpecial then say name " is a special shell builtin"
      else if s.functions.any (·.1 = name) then say name " is a shell function"
      else if builtins.any (·.1 = text) || partOfRunning.contains text then say name " is a shell builtin"
      else
        let isTracked := s.found.any (·.1 = name)
        let found ← findProgram name
        let d ← ask .disk
        match found.toOption.filter fun p => mayRun? d p = some true with
        | some path => say path ((if isTracked then " is a tracked alias for " else " is ").toList ++ path)
        | none =>
          if verbose then Sh.say (name ++ ": not found\n")
          return 127

def typeOf : Builtin := fun _ _ args => do
  let mut status := 0
  for name in args do
    let n ← describe true name
    if n ≠ 0 then status := n
  return status

/-- What the name of a command can stand for in the extended dialect. -/
inductive Sense where
  | shorthand (text : Chars)
  | keyword
  | function
  | builtin
  | program (path : Chars)

def sensesOf : Sh (List Sense) := do
  let s ← get
  let text := String.ofList name
  let d ← ask .disk
  let dirs ← Builtin.searchPath
  let paths := if name.contains '/' then [name] else dirs.map (Builtin.inDirectory · name)
  let aliases := if s.choices.contains "expand_aliases" then (s.aliases.lookup name).toList else []
  return aliases.map .shorthand ++
    (if extendedReserved.contains text then [.keyword] else []) ++
    (if s.functions.any (·.1 = name) then [.function] else []) ++
    (if extendedBuiltins.any (·.1 = text) || partOfRunning.contains text || text = "builtin" then [.builtin]
      else []) ++
    (paths.filter (mayRun? d · = some true)).map .program

def Sense.words : Sense → Chars
  | .shorthand text => name ++ " is aliased to \x60" ++ text ++ ['\'']
  | .keyword => name ++ " is a shell keyword"
  | .function => name ++ " is a function"
  | .builtin => name ++ " is a shell builtin"
  | .program path => name ++ " is " ++ path

def Sense.kind : Sense → String
  | .shorthand _ => "alias"
  | .keyword => "keyword"
  | .function => "function"
  | .builtin => "builtin"
  | .program _ => "file"

def extendedTypeOf : Builtin := fun _ _ args => do
  let (letters, names) ← Extended.given "type" "type [-afptP] name [name ...]" "afptP" args
  let has := Extended.has letters
  let isAsked : Sense → Bool
    | .function => !has 'f' && !has 'P'
    | .program _ => true
    | _ => !has 'P'
  forEach names fun name => do
    let senses := (← sensesOf name).filter isAsked
    if senses.isEmpty && !has 't' && !has 'p' && !has 'P' then complainPlain ("type: " ++ name ++ ": not found")
    for sense in if has 'a' then senses else senses.take 1 do
      if has 't' then say (sense.kind ++ ['\n'])
      else if has 'p' || has 'P' then
        match sense with
        | .program path => say (path ++ ['\n'])
        | _ => pure ()
      else say (sense.words name ++ ['\n'])
    return if senses.isEmpty then 1 else 0

def describeAll (verbose : Bool) (names : List Chars) : Sh Nat := do
  let wide ← wide
  let mut found := false
  for name in names do
    match ← sensesOf name with
    | sense :: _ =>
      found := true
      let text := match sense with
        | .program path => path
        | .shorthand text => "alias " ++ name ++ '=' :: Quoting.single wide text
        | _ => name
      say ((if verbose then sense.words name else text) ++ ['\n'])
    | [] => if verbose then complainPlain ("command: " ++ name ++ ": not found")
  return if found then 0 else 1

end Prune.Shell
