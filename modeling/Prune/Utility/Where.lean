import Prune.Utility.Basic

/-!
Programs that tell where names lead.
-/

namespace Prune.Utility

open Host Util

inductive WayNeed where
  | all | allButLast | nothing
deriving DecidableEq

def stepsOf (text : Chars) : List Chars := (Chars.splitAt '/' text).filter (!·.isEmpty)

variable (d : Disk) (need : WayNeed) (asWritten : Bool)

/-- Where steps lead from a location. Links are followed unless `asWritten`, and what follows a link
starts with where it leads. -/
def wayOf : Nat → Nat → Location → List Chars → Except Fault Location
  | 0, _, _, _ => .error .tooManyLinks
  | _, _, here, [] => .ok here
  | fuel + 1, links, here, step :: rest =>
    if step = ['.'] then wayOf fuel links here rest
    else if step = ['.', '.'] then wayOf fuel links here.dropLast rest
    else
      let next := here ++ [Chars.toBytes step]
      let place : Path := ⟨Bytes.joinWith Path.slash ([] :: next)⟩
      match d.look place, asWritten with
      | .ok (.link target), false =>
        match links with
        | 0 => .error .tooManyLinks
        | links + 1 =>
          let text := Chars.ofBytes target
          let start := if text.head? = some '/' then [] else here
          wayOf fuel links start (stepsOf text ++ rest)
      | .ok e, _ =>
        let isWay := e.isDir || (e.isLink && ((d.stat place).toOption).any Entry.isDir)
        if rest.isEmpty || need = .nothing || isWay then wayOf fuel links next rest
        else .error .notDirectory
      | .error f, _ =>
        let mayMiss := need = .nothing || (need = .allButLast && f = .notFound && rest.isEmpty)
        if mayMiss then wayOf fuel links next rest else .error f

def whereTo (name : Chars) : Except Fault Location := do
  if name.isEmpty then .error .notFound
  else
    let start := if name.head? = some '/' then [] else d.cwd
    let loc ← wayOf d need asWritten (64 * (name.length + 64)) Disk.maxLinks start (stepsOf name)
    let isFile := ((d.get? loc).any fun e => !e.isDir && !e.isLink)
    if name.getLast? = some '/' && isFile && need ≠ .nothing then .error .notDirectory else return loc

def wayBetween (source target : Location) : Chars :=
  let rec common : Location → Location → Nat
    | a :: as, b :: bs => if a = b then common as bs + 1 else 0
    | _, _ => 0
  let n := common source target
  let steps := List.replicate (source.length - n) "..".toList ++ (target.drop n).map Chars.ofBytes
  if steps.isEmpty then ['.'] else Chars.join ['/'] steps

def readlink : Applet :=
  withOptions (optionsOf "efmnqsvz" "canonicalize=f canonicalize-existing=e
    canonicalize-missing=m no-newline=n quiet=q silent=s verbose=v zero=z") true 1 fun p => do
  let need := (p.lastKey? ["e", "f", "m"]).map fun
    | "e" => WayNeed.all
    | "f" => .allButLast
    | _ => .nothing
  let speaks := p.lastKey? ["q", "s", "v"] = some "v"
  let isMany := p.operands.length > 1
  if p.operands.isEmpty then missing "missing operand"
  else
    if isMany && p.has "n" then complain "ignoring --no-newline with multiple arguments"
    forEach p.operands fun name => do
      let d ← disk
      let text := match need with
        | some need => (whereTo d need false name).map locationText
        | none =>
          match d.look name with
          | .ok (.link target) => .ok (Chars.ofBytes target)
          | .ok _ => .error .invalid
          | .error f => .error f
      match text with
      | .ok t =>
        print (if p.has "n" && !isMany then t else t ++ [p.mark])
        return 0
      | .error f =>
        if speaks then complainOf name f
        return 1

structure RelativeForm where
  start : Option Location
  base : Option Location

def RelativeForm.text (r : RelativeForm) (loc : Location) : Chars :=
  match r.start with
  | some start => if r.base.all (·.isPrefixOf loc) then wayBetween start loc else locationText loc
  | none => locationText loc

def realpath : Applet :=
  withOptions (optionsOf "eLmPqsz" "canonicalize-existing=e canonicalize-missing=m logical=L
    physical=P quiet=q strip=s no-symlinks=s zero=z relative-to=to: relative-base=base:") true 1 fun p => do
  let need := match p.lastKey? ["e", "m"] with
    | some "e" => WayNeed.all
    | some _ => .nothing
    | none => .allButLast
  let d ← disk
  let leads (name : Chars) : Except Fault Location :=
    match p.lastKey? ["L", "P", "s"] with
    | some "L" => do
      let loc ← whereTo d need true name
      whereTo d need false (locationText loc)
    | some "s" => whereTo d need true name
    | _ => whereTo d need false name
  let directory (name : Chars) : Except (Chars × Fault) Location := do
    let loc ← (leads name).mapError (name, ·)
    if need = .all && !(d.get? loc).any Entry.isDir then .error (name, .notDirectory) else return loc
  let form : Except (Chars × Fault) RelativeForm := do
    let given := p.value? "to"
    let start ← ((given <|> p.value? "base").mapM directory)
    match given, p.value? "base" with
    | some _, some base =>
      let base ← directory base
      if start.any base.isPrefixOf then return ⟨start, some base⟩ else return ⟨none, start⟩
    | none, some _ => return ⟨start, start⟩
    | _, none => return ⟨start, none⟩
  if p.operands.isEmpty then missing "missing operand"
  else
    match form with
    | .error (name, f) => failOn name f
    | .ok form =>
      forEach p.operands fun name => do
        match leads name with
        | .ok loc =>
          print (form.text loc ++ [p.mark])
          return 0
        | .error f =>
          if !p.has "q" then complainOf name f
          return 1

end Prune.Utility
