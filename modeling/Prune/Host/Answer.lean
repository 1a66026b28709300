import Prune.Host.Process

/-!
What the system answers a process, and what that changes. A process that has to wait gets no answer
yet.
-/

namespace Prune.Host

def pipeRoom : Nat := 65536

/-- What is written to a pipe at once stays together up to this length. -/
def pipeUnit : Nat := 4096

def openTarget (d : Disk) (path : Path) (a : Access) (mode : Nat) : Except Fault (Target × Disk) := do
  if a.writes then
    if a.reads then
      if let .ok (.file mode _) := d.stat path then
        if !Disk.allows mode Disk.readBit then .error .denied
    let o ← d.openFile path mode
    let o := if a.empties then o.truncate else o
    match o.disk.get? o.location with
    | some (.special .full) => return (.full, d)
    | some (.special .zero) => return (.zero, d)
    | some (.special (.program _)) => .error .denied
    | some (.special _) => return (.null, d)
    | _ =>
      let (number, d) := o.disk.hold o.location
      return (.file number, d)
  else
    match ← d.resolve true path with
    | .vacant _ => .error .notFound
    | .entry _ (.special .null) => return (.null, d)
    | .entry _ (.special .full) => return (.full, d)
    | .entry _ (.special .zero) => return (.zero, d)
    | .entry _ (.special .terminal) => .error .noDevice
    | .entry _ (.special (.descriptor _)) => return (.null, d)
    | .entry _ (.special (.program _)) => return (.fixed (Chars.ofBytes Disk.programMark), d)
    | .entry _ (.link _) => .error .tooManyLinks
    | .entry _ (.dir mode) => if Disk.allows mode Disk.readBit then return (.directory, d) else .error .denied
    | .entry loc (.file mode _) =>
      if Disk.allows mode Disk.readBit then
        let (number, d) := d.hold loc
        return (.file number, d)
      .error .denied

variable (h : Host)

variable (p : Process)

def reopenTarget (fd : Nat) (a : Access) : Except Fault (Target × Disk) :=
  let d := h.diskOf p
  match h.streamAt? p fd with
  | none => .error .notFound
  | some s =>
    match s.target with
    | .file number =>
      match d.heldFile? number with
      | none => .error .notFound
      | some (mode, _) =>
        let d := if a.writes && a.empties then d.putHeld number (Disk.writtenMode mode) [] else d
        .ok (s.target, d.holdAgain number)
    | target => .ok (target, d)

def openFor (path : Path) (a : Access) (mode : Nat) :
    Except Fault (Target × Disk) :=
  match (h.diskOf p).stat path with
  | .ok (.special (.descriptor fd)) => h.reopenTarget p fd a
  | _ => openTarget (h.diskOf p) path a (Disk.masked mode p.umask)

/-- The first part of a text: `count` characters, or up to the end of the first line. -/
def portion (text : Chars) (count : Nat) (line : Bool) : Chars :=
  let text := text.take count
  if line then
    match text.span (· ≠ '\n') with
    | (before, end' :: _) => before ++ [end']
    | (before, []) => before
  else text

def hasWriter (pipe : Nat) : Bool := h.jobs.streams.any fun s => s.writes && s.target = .pipe pipe

def hasReader (pipe : Nat) : Bool := h.jobs.streams.any fun s => s.reads && s.target = .pipe pipe

def pipeContent (pipe : Nat) : Chars :=
  ((h.jobs.pipes.find? (·.number = pipe)).map (·.content)).getD []

/-- What is read from a stream; none while there is nothing to read yet. -/
def readFrom (s : Stream) (count : Nat) (line : Bool) :
    Option (Except Fault Chars × Host) :=
  let at' (content : Chars) : Option (Except Fault Chars × Host) :=
    let text := portion content count line
    some (.ok text, h.modifyStream s.number fun s => { s with offset := s.offset + text.length })
  if !s.reads then some (.error .badDescriptor, h)
  else
    match s.target with
    | .file number =>
      match h.disk.heldFile? number with
      | some (_, content) => at' (Chars.ofBytes ((content.drop s.offset).take count))
      | none => some (.ok [], h)
    | .fixed content => at' (content.drop s.offset)
    | .null => some (.ok [], h)
    | .full | .zero => some (.ok (List.replicate count '\x00'), h)
    | .directory => some (.error .isDirectory, h)
    | .pipe number =>
      let content := h.pipeContent number
      if count = 0 then some (.ok [], h)
      else if content.isEmpty then
        if h.hasWriter number then none else some (.ok [], h)
      else
        let text := portion content count line
        some (.ok text, h.modifyPipe number (·.drop text.length))

/-- `text` at a place of `content`, with zeros up to there if it is too short. -/
def overwrite (content : Bytes) (offset : Nat) (text : Bytes) : Bytes :=
  content.take offset ++ List.replicate (offset - content.length) 0 ++ text ++
    content.drop (offset + text.length)

/-- What comes of writing to a stream; none while there is no room. Whoever writes what nobody reads
gets a signal. -/
def writeTo (pid : Nat) (s : Stream) (text : Chars) :
    Option (Except Fault Nat × Host) :=
  if !s.writes then some (.error .badDescriptor, h)
  else
    match s.target with
    | .file number =>
      match h.disk.heldFile? number with
      | some (mode, content) =>
        if text.isEmpty then some (.ok 0, h)
        else
          let offset := if s.appends then content.length else s.offset
          let disk := h.disk.putHeld number (Disk.writtenMode mode)
            (overwrite content offset (Chars.toBytes text))
          some (.ok text.length,
            { h with disk }.modifyStream s.number fun s => { s with offset := offset + text.length })
      | none => some (.ok text.length, h)
    | .null | .zero => some (.ok text.length, h)
    | .full => some (if text.isEmpty then .ok 0 else .error .noSpace, h)
    | .fixed _ | .directory => some (.error .badDescriptor, h)
    | .pipe number =>
      if text.isEmpty then some (.ok 0, h)
      else if !h.hasReader number then some (.error .brokenPipe, h.signal pid Signal.pipe)
      else
        let room := pipeRoom - (h.pipeContent number).length
        if room = 0 || (text.length ≤ pipeUnit && room < text.length) then none
        else
          let text := text.take room
          some (.ok text.length, h.modifyPipe number (· ++ text))

def awaitChild (child : Option Nat) (patient interruptible : Bool) :
    Option (Awaited × Host) :=
  let candidates := h.jobs.processes.filter fun q =>
    q.parent = p.pid && (match child with
      | some pid => q.pid = pid
      | none => true)
  match candidates.findSome? fun q => q.ending.map fun e => (q.pid, e) with
  | some (pid, ending) => some (.ended pid ending, h.forget pid)
  | none =>
    if candidates.isEmpty then some (.noChild, h)
    else if !patient then some (.noneYet, h)
    else if interruptible && !p.caught.isEmpty then some (.interrupted, h)
    else none

/-- Sends a signal to whom a target stands for: a process, the own group, all, or a group. -/
def sendSignal (target : Int) (signal : Nat) : Except Fault Unit × Host :=
  let isMeant (q : Process) : Bool :=
    if target > 0 then (q.pid : Int) = target
    else if target = 0 then q.group = p.group
    else if target = -1 then q.pid ≠ p.pid
    else (q.group : Int) = -target
  let pids := (h.jobs.processes.filter isMeant).map (·.pid)
  if pids.isEmpty then (.error .noProcess, h)
  else if signal = 0 then (.ok (), h)
  else (.ok (), pids.foldl (fun h pid => h.signal pid signal) h)

def describeStream (s : Stream) : Description :=
  match s.target with
  | .file number =>
    let place := match h.disk.place? number with
      | some (.at loc) => some loc
      | _ => none
    ⟨true, ((h.disk.heldFile? number).map (·.2.length)).getD 0, place⟩
  | .fixed content => ⟨true, content.length, none⟩
  | _ => ⟨false, 0, none⟩

def attempt : (c : Call) → Option (c.Answer × Host)
  | .work => some ((), h)
  | .now => some (h.jobs.clock, h)
  | .sleepUntil time => if time ≤ h.jobs.clock then some ((), h) else none
  | .disk => some (h.diskOf p, h)
  | .change f =>
    match f (h.diskOf p) with
    | .ok d => some (.ok (), h.withDisk d)
    | .error e => some (.error e, h)
  | .open path access mode =>
    match h.openFor p path access mode with
    | .error e => some (.error e, h)
    | .ok (target, d) =>
      let fd := freeFd p 0
      let (stream, h) := (h.withDisk d).addStream target access.reads access.writes access.appends
      some (.ok fd, h.addSlot p.pid fd stream false)
  | .close fd =>
    some ((), (h.modifyProcess p.pid fun p => { p with slots := p.slots.filter (·.fd ≠ fd) }).tidy)
  | .duplicate fd lowest =>
    match p.slots.find? (·.fd = fd) with
    | none => some (.error .badDescriptor, h)
    | some slot =>
      let free := freeFd p lowest
      some (.ok free, h.addSlot p.pid free slot.stream true)
  | .duplicateTo fd target =>
    match p.slots.find? (·.fd = fd) with
    | none => some (.error .badDescriptor, h)
    | some slot => some (.ok (), (h.addSlot p.pid target slot.stream false).tidy)
  | .pipe =>
    let number := h.jobs.next
    let h := h.modifyJobs fun j => { j with pipes := ⟨number, []⟩ :: j.pipes, next := number + 1 }
    let (out, h) := h.addStream (.pipe number) true false false
    let (into, h) := h.addStream (.pipe number) false true false
    let first := freeFd p 0
    let second := freeFd { p with slots := ⟨first, out, false⟩ :: p.slots } 0
    some ((first, second), (h.addSlot p.pid first out false).addSlot p.pid second into false)
  | .read fd count line =>
    match h.streamAt? p fd with
    | none => some (.error .badDescriptor, h)
    | some s => h.readFrom s count line
  | .write fd text =>
    match h.streamAt? p fd with
    | none => some (.error .badDescriptor, h)
    | some s => h.writeTo p.pid s text
  | .rewind fd count =>
    match h.streamAt? p fd with
    | none => some ((), h)
    | some s => some ((), h.modifyStream s.number fun s => { s with offset := s.offset - count })
  | .describe fd => some ((h.streamAt? p fd).map h.describeStream, h)
  | .enter path =>
    match (h.diskOf p).resolve true path with
    | .error e => some (.error e, h)
    | .ok (.entry loc (.dir mode)) =>
      if Disk.allows mode Disk.runBit then some (.ok (), h.modifyProcess p.pid fun p => { p with cwd := loc })
      else some (.error .denied, h)
    | .ok (.entry ..) => some (.error .notDirectory, h)
    | .ok (.vacant _) => some (.error .notFound, h)
  | .umask new =>
    match new with
    | none => some (p.umask, h)
    | some mask => some (p.umask, h.modifyProcess p.pid fun p => { p with umask := mask })
  | .self => some (p.pid, h)
  | .parent => some (p.parent, h)
  | .await child patient interruptible => h.awaitChild p child patient interruptible
  | .kill target signal => some (h.sendSignal p target signal)
  | .handle signal how =>
    some ((), h.modifyProcess p.pid fun p =>
      { p with handlings := (signal, how) :: p.handlings.filter (·.1 ≠ signal) })
  | .handling signal => some (p.handlingOf signal, h)
  | .signals => some (p.caught, h.modifyProcess p.pid fun p => { p with caught := [] })
  | .takeOver =>
    some ((), (h.modifyProcess p.pid fun p =>
      { p with
        slots := p.slots.filter (!·.hidden)
        handlings := p.handlings.filter (·.2 = .ignore)
        caught := [] }).tidy)
  | .lead => some ((), h.modifyProcess p.pid fun p => { p with group := p.pid })

end Prune.Host
