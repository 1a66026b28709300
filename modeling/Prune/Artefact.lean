import Prune.Path

/-!
The names of the files a sweep puts beside the user's: the backup of a source, the trial copy of a
project, the temporary that is about to replace a file. Recovery finds a backup by its name alone.
-/

namespace Prune.Artefact

def backupMark : Bytes := "sweeper-backup"

def trialMark : Bytes := "sweeper-trial"

def temporaryMark : Bytes := ".sweeper-tmp-"

/-- `name.ext` becomes `name.mark.ext`, and `name` becomes `name.mark`, in the same directory. -/
def marked (mark : Bytes) (p : Path) : Path :=
  let stem := p.stem?.getD []
  match p.extension? with
  | some ext => p.withFileName (stem ++ Path.dot :: mark ++ Path.dot :: ext)
  | none => p.withFileName (stem ++ Path.dot :: mark)

def backup (live : Path) : Path := marked backupMark live

def trial (project : Path) : Path := marked trialMark project

def temporaryStart (p : Path) : Bytes := temporaryMark ++ p.fileName?.getD [] ++ [Path.dot]

def isTemporary (p : Path) : Bool :=
  match p.fileName? with
  | some n => temporaryMark.isPrefixOf n
  | none => false

/-- Whether `mark` stands where `marked` puts it: as the extension, or behind a dot at the end of
the stem. -/
def carries (mark : Bytes) (p : Path) : Bool :=
  p.extension? == some mark ||
    match p.stem? with
    | some stem => (Path.dot :: mark).isSuffixOf stem
    | none => false

def isArtefact (p : Path) : Bool := carries backupMark p || carries trialMark p

/-- Where the progress of a sweep of `project` is kept, unless told otherwise. -/
def progressFile (project : Path) : Path := project.directory.join "include-sweeper.progress"

/-- Where the log of a sweep of `project` is kept, unless told otherwise. -/
def logFile (project : Path) : Path := project.directory.join "include-sweeper.log"

end Prune.Artefact
