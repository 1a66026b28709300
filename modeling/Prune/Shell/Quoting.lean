import Prune.Text.CharClass

/-!
Texts written so that a script that has them in it reads them back.
-/

namespace Prune.Shell.Quoting

variable (wide : Bool) (text : Chars)

def between : Chars :=
  '\'' :: text.flatMap (fun c => if c = '\'' then "'\"'\"'" else [c]) ++ ['\'']

def isVisible (c : Char) : Bool := !Letters.isStray c && CharClass.print.holds wide c

def isShown : Bool := (Letters.of wide text).all (isVisible wide)

def escaped (c : Char) : Chars :=
  match Chars.controlLetter? c with
  | some letter => ['\\', letter]
  | none =>
    let bytes := Letters.toBytes wide [c]
    if c = '\x1b' then "\\E"
    else if c = '\\' || c = '\'' then ['\\', c]
    else if isVisible wide c then bytes
    else bytes.flatMap fun b => '\\' :: Chars.octal b

def withEscapes : Chars :=
  "$'" ++ (Letters.of wide text).flatMap (escaped wide) ++ ['\'']

def single : Chars :=
  if isShown wide text then
    '\'' :: text.flatMap (fun c => if c = '\'' then "'\\''" else [c]) ++ ['\'']
  else withEscapes wide text

def double : Chars :=
  if isShown wide text then
    '"' :: text.flatMap (fun c => if "\"\\$\x60".contains c then ['\\', c] else [c]) ++ ['"']
  else withEscapes wide text

def backslashed : Chars :=
  if text.isEmpty then "''"
  else if !isShown wide text then withEscapes wide text
  else
    text.zipIdx.flatMap fun (c, i) =>
      if " '\"\\|&;()<>!\x7b\x7d*[]?^$\x60,".contains c || (i = 0 && (c = '~' || c = '#')) then
        ['\\', c]
      else [c]

def isPlain : Bool := !text.isEmpty && backslashed wide text = text

def shown : Chars :=
  if text.isEmpty then [] else if isPlain wide text then text else single wide text

end Prune.Shell.Quoting
