import Prune.CommandLine.Execute
import Prune.Tool

/-!
One call of the program: read the arguments, and do what they say. Builds are made by the tool that
they name.
-/

namespace Prune.CommandLine

def misuseText (m : Misuse) : String :=
  s!"error: {m.message}\n\nFor more information, try '--help'.\n"

def run (oracleFor : Settings → Oracle) (stamp : String) (args : List Bytes) (h : Host) : Result :=
  let answer (exit : Exit) (out err : String) : Result := ⟨some exit, out, err, h, []⟩
  match Arguments.read args with
  | .error .help => answer .completed helpText ""
  | .error .shortHelp => answer .completed shortHelpText ""
  | .error .version => answer .completed versionText ""
  | .error (.misuse m) => answer .usage "" (misuseText m)
  | .ok a =>
    match a.settings? with
    | none => answer .usage "" (misuseText (.missing operandNames))
    | some s => execute s (oracleFor s) stamp h

def program (stamp : String) (args : List Bytes) (h : Host) : Result := run Tool.oracle stamp args h

end Prune.CommandLine
