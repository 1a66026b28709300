import Prune.Regex.Parse
import Prune.Shell.Builtin.Surroundings
import Prune.Shell.Extended.Options

/-!
Conditions on words, as they stand between doubled square brackets. A status of zero means that a
condition holds, one that it does not, and two that it makes no sense.
-/

namespace Prune.Shell

open Host

def regexText (gs : List Glyph) : Chars :=
  gs.flatMap fun g =>
    if g.quoted && ".[]\\*^$+?()\x7b\x7d|".contains g.char then ['\\', g.char] else [g.char]

namespace Sh

variable (self : Self)

def named (s : State) (names : List (Char × String)) (letter : Char) (name : Chars) : Option Bool :=
  match letter with
  | 'v' =>
    match nameAndPlace name with
    | (base, some ['@']) => some ((aimedContent s base).any fun c => !c.values.isEmpty)
    | _ =>
      match Chars.toNat? name with
      | some n => some (n = 0 || n ≤ s.args.length)
      | none => some (lookup s name).isSome
  | 'R' => some ((s.vars.find? (·.name = name)).any (·.traits.contains 'n'))
  | 'o' => some (names.any fun (c, w) => w.toList = name && s.options.contains c)
  | _ => none

def truth (b : Bool) : Nat := if b then 0 else 1

def tested (r : Except Chars Bool) : Sh Nat := return (r.toOption.map truth).getD 2

def noteMatch (values : List Chars) : Sh Unit :=
  putVar ⟨"BASH_REMATCH", some (.list (values.zipIdx.map fun (v, i) => (i, v))), false, false, []⟩

def matchRegex (text : Chars) (gs : List Glyph) : Sh Nat := do
  let wide ← wide
  let .ok r := Regex.parse { Regex.extended with wide } (Letters.of wide (regexText gs)) | return 2
  let text := Letters.of wide text
  match r.match? ⟨← choice "nocasematch", false, wide⟩ text.toArray 0 with
  | none =>
    noteMatch []
    return 1
  | some m =>
    let part (start stop : Nat) : Chars := Letters.toBytes wide ((text.drop start).take (stop - start))
    let groups := (List.range r.groupCount).map fun i =>
      let (start, stop) := (m.groups.lookup (i + 1)).getD (0, 0)
      part start stop
    noteMatch (part m.start m.stop :: groups)
    return 0

def operand (text : Chars) : Sh (Option Int) := do
  match ← computed text with
  | .ok n => return some n
  | .error message =>
    complain ("[[: " ++ message)
    return none

def traceCondition (negated : Bool) (words : List Chars) : Sh Unit :=
  traceText self do
    let shown := words.map fun w => if w.isEmpty then "''" else w
    return "[[ " ++ (if negated then "! ".toList else []) ++ Chars.join [' '] shown ++ " ]]"

def patternText (gs : List Glyph) : Chars := gs.flatMap fun g => if g.quoted then ['\\', g.char] else [g.char]

def binaryHolds (negated : Bool) (left : Word) (op : Chars) (right : Word) : Sh Nat := do
  let text ← single self left
  let word := String.ofList op
  if ["=", "==", "!=", "=~"].contains word then
    let gs ← patternGlyphs self right
    traceCondition self negated [text, op, patternText gs]
    if word = "=~" then matchRegex text gs
    else
      let folds ← choice "nocasematch"
      let style := { (← patternStyle) with groups := true, folds }
      return truth ((Pattern.ofGlyphs style gs).fits text != (word = "!="))
  else
    let other ← single self right
    traceCondition self negated [text, op, other]
    let compare (f : Int → Int → Bool) : Sh Nat := do
      let some a ← operand text | return 1
      let some b ← operand other | return 1
      return truth (f a b)
    match word with
    | "-eq" => compare (· == ·)
    | "-ne" => compare (· != ·)
    | "-lt" => compare fun a b => a < b
    | "-le" => compare fun a b => a ≤ b
    | "-gt" => compare fun a b => b < a
    | "-ge" => compare fun a b => b ≤ a
    | _ => tested (Utility.Test.binary .extended (← ask .disk) op text other)

def holds (names : List (Char × String)) (negated : Bool) : Condition → Sh Nat
  | .text w => do
    let text ← single self w
    traceCondition self negated ["-n", text]
    return truth !text.isEmpty
  | .unary op w => do
    let text ← single self w
    traceCondition self negated [op, text]
    let letter := op.getD 1 'n'
    match named (← get) names letter text with
    | some b => return truth b
    | none => tested (Utility.Test.unary .extended (← ask .disk) (if letter = 'a' then 'e' else letter) text)
  | .binary left op right => binaryHolds self negated left op right
  | .not body => do return truth ((← holds names true body) ≠ 0)
  | .and first second => do
    let status ← holds names false first
    if status = 0 then holds names false second else return status
  | .or first second => do
    let status ← holds names false first
    if status = 0 then return 0 else holds names false second

end Sh

end Prune.Shell

/-!
Built-in commands of the extended dialect that decide what is run next, or change the directory.
-/

namespace Prune.Shell.Extended

open Host Sh

variable (name : String)

def statusFor (args : List Chars) : Sh Nat := do
  match args with
  | [] => return (← get).status
  | text :: _ =>
    match Chars.toInt? text with
    | some n => return (n % 256).toNat
    | none => fail 2 (name.toList ++ ": " ++ text ++ ": numeric argument required")

def exit : Builtin := fun _ _ args => do
  let args := Builtin.behindDashes args
  if args.length > 1 && (Chars.toInt? (args.headD [])).isSome then
    complainPlain "exit: too many arguments"
    throw (.drop 1)
  else throw (.exit (← statusFor "exit" args))

def back : Builtin := fun _ _ args => do
  let args := Builtin.behindDashes args
  if (← get).calls = 0 then
    fail 2 "return: can only \x60return' from a function or sourced script"
  else if args.length > 1 then refuse "return" "too many arguments"
  else throw (.back (← statusFor "return" args))

def loopsFor (args : List Chars) : Sh (Option Nat) := do
  let loops := (← get).loops
  if loops = 0 then
    complainPlain (name.toList ++ ": only meaningful in a \x60for', \x60while', or \x60until' loop")
    return none
  let text :: _ := args | return some 1
  match Chars.toInt? text with
  | none =>
    complainPlain (name.toList ++ ": " ++ text ++ ": numeric argument required")
    throw (.exit 128)
  | some n =>
    if n ≤ 0 then
      complainPlain (name.toList ++ ": " ++ text ++ ": loop count out of range")
      modify ({ · with status := 1 })
      throw (.leave loops)
    else return some (min n.toNat loops)

def jump (stop : Nat → Stop) : Builtin := fun _ _ args => do
  match ← loopsFor name args with
  | some n => throw (stop n)
  | none => return 0

def shift : Builtin := fun _ _ args => do
  let text := args.headD ['1']
  let some n := Chars.toInt? text | refuse "shift" (text ++ ": numeric argument required")
  if n < 0 then refuse "shift" (text ++ ": shift count out of range")
  let s ← get
  if s.args.length < n then return 1
  set { s with args := s.args.drop n.toNat }
  return 0

def eval : Builtin := fun self mode args => do
  self.runPart (Chars.join [' '] (Builtin.behindDashes args)) ⟨mode.tested, false⟩

/-- Runs a script in this shell, with arguments of its own if there are any. -/
def source (name : String) : Builtin := fun self _ args => do
  match Builtin.behindDashes args with
  | [] =>
    complainPlain (name.toList ++ ": filename argument required")
    sayUsage name (name ++ " filename [arguments]")
    return 2
  | file :: own =>
    let path := (← Builtin.scriptNamed file).getD file
    let s ← get
    match ← Act.readFile path with
    | .error f =>
      if f = .isDirectory then refuse name (file ++ ": is a directory")
      else
        fail 1 (file ++ ": " ++ f.text)
    | .ok text =>
      modify fun s => { s with
        calls := s.calls + 1
        frames := ("source", s.line) :: s.frames
        args := if own.isEmpty then s.args else own }
      let restore := modify fun t => { t with
        calls := s.calls
        frames := s.frames
        args := if own.isEmpty then t.args else s.args }
      always restore (backed (self.runText text ⟨false, false⟩))

def goTo (dest : Chars) (physical prints : Bool) : Sh Nat := do
  let (dest, prints) ← if Builtin.isLocal dest || dest.isEmpty then pure (dest, prints)
    else Builtin.byRoots dest prints
  let goal ← if dest.isEmpty then Builtin.workingDirectory else pure dest
  let refuse (f : Fault) : Sh Nat := refuse name (dest ++ ": " ++ f.text)
  match (← ask .disk).stat goal with
  | .ok e => if e.isDir then Builtin.enter goal physical prints refuse else refuse .notDirectory
  | .error f => refuse f

def changeDirectory : Builtin := fun _ _ args => do
  let (letters, rest) ← given "cd" "cd [-L|[-P [-e]] [-@]] [dir]" "LPe@" args
  let physical := ((letters.filter fun g => g.letter = 'L' || g.letter = 'P').getLast?).any (·.letter = 'P')
    || (← option 'P')
  let goToValue (name : String) (prints : Bool) : Sh Nat := do
    match ← value name with
    | some dest => goTo "cd" dest physical prints
    | none => refuse "cd" (name ++ " not set")
  match rest with
  | [] => goToValue "HOME" false
  | [['-']] => goToValue "OLDPWD" true
  | [dest] => goTo "cd" dest physical false
  | _ => refuse "cd" "too many arguments"

def printDirectory : Builtin := fun _ _ args => do
  let (letters, _) ← given "pwd" "pwd [-LP]" "LP" args
  tell ((← Builtin.directoryText (letters.getLast?.any (·.letter = 'P'))) ++ ['\n'])

def echo : Builtin := fun _ _ args => do
  let args := if ← choice "xpg_echo" then ['-', 'e'] :: args else args
  tell (Utility.echoProgram args)

def printf : Builtin := fun _ _ args => do
  let usage := "printf [-v var] format [arguments]"
  let (letters, rest) ← match args with
    | ('-' :: _ :: _) :: _ => given "printf" usage "v:" args
    | args => pure ([], args)
  match rest with
  | [] =>
    sayUsage "printf" usage
    return 2
  | format :: rest =>
    let r := Utility.Printf.run (.extended (← wide)) format rest
    for text in r.complaints do
      complainPlain ("printf: " ++ text)
    match valueOf? letters 'v' with
    | some name => assign name r.output
    | none => say r.output
    return if r.ok then 0 else 1

def test (bracket : Bool) : Builtin := fun _ _ args => do
  if bracket && args.getLast? ≠ some [']'] then misuse "[" "missing \x60]'"
  let words := if bracket then args.dropLast else args
  if words.isEmpty then return 1
  let s ← get
  match Utility.Test.holdsBy ⟨.extended, ← ask .disk, named s optionNames⟩ words with
  | .ok b => return if b then 0 else 1
  | .error text => misuse (if bracket then "[" else "test") text

def umask : Builtin := fun self mode args => do
  let (letters, rest) ← given "umask" "umask [-p] [-S] [mode]" "pS" args
  match rest with
  | [] =>
    if has letters 'p' then say "umask "
    if has letters 'p' && has letters 'S' then say "-S "
    Builtin.umask self mode (if has letters 'S' then [['-', 'S']] else [])
  | text :: _ =>
    if text.head?.any Char.isDigit then
      if text.all (Chars.isDigitOf 8) then Builtin.umask self mode [text]
      else refuse "umask" (text ++ ": octal number out of range")
    else
      match Builtin.symbolicMask (← ask (.umask none)) text with
      | some n =>
        let _ ← ask (.umask (some n))
        return 0
      | none => refuse "umask" ('\x60' :: text.take 1 ++ "': invalid symbolic mode operator")

end Prune.Shell.Extended
