import Prune.Shell.Start
import Prune.Utility.Archive
import Prune.Utility.Awk.Run
import Prune.Utility.Streams
import Prune.Utility.Diff
import Prune.Utility.Carry
import Prune.Utility.Dump
import Prune.Utility.Digest
import Prune.Utility.Ends
import Prune.Utility.Exchange
import Prune.Utility.Sequence
import Prune.Utility.Find
import Prune.Utility.Grep
import Prune.Utility.Sed.Run

/-!
The programs of the system by name, and how a file on the disk is run.
-/

namespace Prune.Utility

open Host

def table : List (String × Applet) :=
  [("[", test true), ("arch", fixed "x86_64" 0), ("awk", awk), ("base32", base32),
    ("base64", base64), ("basename", basename), ("cat", cat), ("chmod", chmod), ("cksum", cksum),
    ("cmp", cmp), ("comm", comm), ("cp", cp),
    ("cut", cut), ("date", date), ("diff", diff), ("dirname", dirname),
    ("du", du), ("echo", echo), ("egrep", egrep), ("env", env), ("expand", expand), ("expr", expr),
    ("false", falseProgram), ("fgrep", fgrep), ("find", find), ("fold", fold), ("grep", grep),
    ("gunzip", gunzip), ("gzip", gzip), ("head", head), ("hostname", fixed "localhost" 0),
    ("id", identity), ("install", install), ("join", join), ("kill", kill), ("link", link),
    ("ln", ln), ("ls", ls), ("mawk", awk), ("md5sum", md5sum), ("mkdir", mkdir), ("mktemp", mktemp),
    ("mv", mv), ("nice", nice), ("nl", nl), ("nproc", fixed "1" 0), ("od", od),
    ("paste", paste), ("printenv", printenv), ("printf", printf), ("pwd", pwd),
    ("readlink", readlink), ("realpath", realpath), ("rev", rev), ("rm", rm), ("rmdir", rmdir),
    ("sed", sed), ("seq", seq), ("sha1sum", sha1sum), ("sha224sum", sha224sum),
    ("sha256sum", sha256sum), ("sha512sum", sha512sum), ("sleep", sleep),
    ("sort", sort), ("stat", stat), ("sum", sum),
    ("sync", trueProgram), ("tac", tac), ("tail", tail), ("tar", tar), ("tee", tee),
    ("test", test false), ("timeout", timeout), ("touch", touch), ("tr", tr), ("true", trueProgram),
    ("truncate", truncate), ("tty", fixed "not a tty" 1), ("uname", uname), ("unexpand", unexpand), ("uniq", uniq),
    ("unlink", unlink), ("wc", wc), ("which", which), ("whoami", whoami), ("xargs", xargs),
    ("yes", yes), ("zcat", zcat)]

def isGap (c : Char) : Bool := c = ' ' || c = '\t'

def headLength : Nat := 256

/-- The interpreter that a script names on its first line, with the rest of that line. A line that is
too long may be cut behind the name, but not within it. -/
def interpreter? (content : Bytes) : Option (Chars × Option Chars) :=
  match Chars.ofBytes (content.take headLength) with
  | '#' :: '!' :: text =>
    let text := text.takeWhile (· ≠ '\x00')
    let line := text.takeWhile (· ≠ '\n')
    let isCut := line.length = text.length && content.length ≥ headLength && text.length = headLength - 2
    let line := if isCut then line.dropLast else line
    let (name, rest) := ((Chars.trimEnd isGap line).dropWhile isGap).span (!isGap ·)
    let rest := rest.dropWhile isGap
    let hasEnd := !isCut || (text.dropWhile isGap).any isGap
    if name.isEmpty || !hasEnd then none else some (name, if rest.isEmpty then none else some rest)
  | _ => none

/-- The longest argument a program can be given, and the most that all of them and the environment can
take. -/
def longestArgument : Nat := 131071

def argumentRoom : Nat := 2097152

def fits (argv : List Chars) (env : Env) : Bool :=
  let texts := argv ++ env.map fun (name, value) => name ++ '=' :: value
  texts.all (·.length ≤ longestArgument) && texts.foldl (fun n t => n + t.length + 9) 0 ≤ argumentRoom

def runnable (d : Disk) (env : Env) : Nat → Chars → List Chars → Except Fault (String × List Chars)
  | 0, _, _ => .error .tooManyLinks
  | n + 1, path, argv => do
    match ← d.stat path with
    | .special (.program name) => if fits argv env then return (name, argv) else .error .tooManyArguments
    | .file mode content =>
      if !Disk.allows mode Disk.runBit then .error .denied
      else if !fits argv env then .error .tooManyArguments
      else
        let some (name, option) := interpreter? content | .error .badFormat
        runnable d env n name (name :: option.toList ++ path :: argv.tail)
    | _ => .error .denied

def messageName (name : String) (argv : List Chars) : Chars :=
  if ["gzip", "gunzip", "zcat"].contains name then "gzip"
  else if ["egrep", "fgrep"].contains name then "grep"
  else if ["awk", "mawk", "rev"].contains name then name.toList
  else argv.headD name.toList

def start (exec : Exec) (name : String) (argv : List Chars) (env : Env) : Act Nat :=
  if name = "sh" || name = "dash" then Shell.program .common exec argv env
  else if name = "bash" then Shell.program .extended exec argv env
  else
    match table.lookup name with
    | some u => u.run ⟨messageName name argv, argv.tail, env, exec⟩
    | none => return 127

def scriptDepth : Nat := 6

def execAt : Nat → Exec
  | 0 => fun _ _ _ => return .tooManyLinks
  | n + 1 => fun path argv env => do
    match runnable (← Act.ask .disk) env scriptDepth path argv with
    | .error f => return f
    | .ok (name, argv) =>
      Act.ask .takeOver
      Act.exit (← start (execAt n) name argv env)

def exec : Exec := execAt Act.patience

end Prune.Utility
