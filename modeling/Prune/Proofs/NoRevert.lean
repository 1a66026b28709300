import Prune.Proofs.Keeping
import Prune.Proofs.Near

/-!
# No pass is reverted

With a build that only reads the disk, a source that could be backed up is committed: the backup's name is longer than
the source's, so what was possible for the backup is possible for the source (`writable_of_backup`). Nothing else is
asked of the disk than that it has no links, so this is shown of every world that a run can come to. `Near` says how the
disk of such a world differs from the one at the start, and `Keeps` carries it through the steps of a run.
-/

namespace Prune

open Disk Artefact Workshop

variable {d d' : Disk} {p : Path} {dir l : Location} {n : Bytes} {S : Location → Prop} {s : Settings}
  {o : Oracle} {w : World}

namespace Disk

/-- What can be replaced can be taken away, if it is there. -/
theorem remove_of_writable (hd : Tree d) (hw : Writable d p dir n) :
    d.remove p = .error .notFound ∨ ∃ d', d.remove p = .ok d' := by
  cases hg : d.get? (dir ++ [n]) with
  | none => exact .inl (by simp [remove, hw.leads.locate, bind, Except.bind, hg])
  | some e =>
    obtain ⟨d', hrm, -⟩ := remove_ok hd hw.removable hg (hg ▸ hw.leaf)
    exact .inr ⟨d', hrm⟩

end Disk

/-! ### Worlds that a run comes to -/

/-- A world without a log whose disk is near `d`. -/
structure Attained (d : Disk) (S : Location → Prop) (w : World) : Prop where
  log : w.log = none
  near : Near d (fun l _ => S l) w.disk

namespace Attained

theorem start (hd : Tree d) : Attained d S (World.start (.ofDisk d)) := ⟨rfl, .refl hd⟩

theorem emit (h : Attained d S w) (e : Event) : Attained d S (w.emit e) :=
  ⟨h.log, (World.disk_emit h.log e).symm ▸ h.near⟩

theorem emits (h : Attained d S w) (es : List Event) : Attained d S (es.foldl World.emit w) := by
  induction es generalizing w with
  | nil => exact h
  | cons e es ih => exact ih (h.emit e)

theorem changes (h : Attained d S w) {disks : List Disk} (hd : ∀ d' ∈ disks, Near d (fun l _ => S l) d') :
    Attained d S (disks.foldl World.change w) := by
  induction disks generalizing w with
  | nil => exact h
  | cons d' disks ih => exact ih ⟨h.log, hd d' (by simp)⟩ fun d'' hd'' => hd d'' (by simp [hd''])

theorem report {level : Level} {target message : String} {fields : List (String × Value)} :
    Work.Keeps (Attained d S) (Work.report level target message fields) fun _ => True := fun _ h => ⟨h.emit _, trivial⟩

theorem build (ro : o.ReadOnly) (call : BuildCall) :
    Run.Keeps o (Attained d S) (Run.build o call) fun _ => True := by
  refine Run.keeps_build fun w h => ?_
  rw [Run.on_build]
  have hanswered : Attained d S (w.answered call (o (w.builds.length + 1) call w.toHost)) :=
    ⟨h.log, h.near.congr (ro.entries _ _ _) (ro.cwd _ _ _) (.of_eq (ro.shared _ _ _))⟩
  exact hanswered.emits _

/-- A file is replaced wherever that is possible. -/
theorem replace (hn : LinkFree d) (hS : ∀ dir n, Writable d p dir n → S (dir ++ [n])) (content : Bytes) :
    Work.Keeps (Attained d S) (Work.replace p content) fun r => (∃ dir n, Writable d p dir n) → r = .ok () := by
  intro w h
  have hnear := h.near.replace hn content hS
  rw [Work.on_replace]
  rcases hrep : w.disk.replace p content with ⟨f | u, d'⟩
  all_goals rw [hrep] at hnear
  · refine ⟨⟨h.log, hnear⟩, fun ⟨dir, n, hw⟩ => ?_⟩
    obtain ⟨d₁, hrep', -⟩ := replace_ok h.near.tree (hw.alike h.near.alike) content
    cases hrep.symm.trans hrep'
  · exact ⟨⟨h.log, hnear⟩, fun _ => rfl⟩

theorem remove (hn : LinkFree d) (hS : ∀ dir n, Leads d p dir n → S (dir ++ [n])) :
    Work.Keeps (Attained d S) (Work.carryOut (·.remove p)) fun r =>
      ∀ dir n, Writable d p dir n → r = .ok () ∨ r = .error .notFound := by
  intro w h
  rw [Work.on_remove]
  cases hrm : w.disk.remove p with
  | error f =>
    refine ⟨h, fun dir n hw => ?_⟩
    rcases remove_of_writable h.near.tree (hw.alike h.near.alike) with hr | ⟨d', hr⟩
    · cases hrm.symm.trans hr
      exact .inr rfl
    · cases hrm.symm.trans hr
  | ok d' => exact ⟨⟨h.log, h.near.remove (hn.noLink p) hS hrm⟩, fun _ _ _ => .inl rfl⟩

theorem copy (hd : Tree d) (hn : LinkFree d) (ht : Tied d) (source : Path)
    (hS : ∀ dir n, Leads d p dir n → ∀ k ∈ d.twins (dir ++ [n]), S k) :
    Work.Keeps (Attained d S) (Work.copy source p) fun _ => True := by
  intro w h
  rw [Work.on_copy]
  cases hc : w.disk.copy source p with
  | error f => exact ⟨h, trivial⟩
  | ok disks =>
    refine ⟨h.changes fun d' hd' => (h.near.copy (ht.sited hd) (fun place hr hb k hk _ _ => ?_) hc d' hd').1, trivial⟩
    obtain ⟨-, dir, n, hl, hloc⟩ := ((h.near.linkFree hn).noLink p).location_of_resolve h.near.tree hr hb
    exact hS dir n (hl.alike h.near.alike.symm) k (hloc ▸ hk)

theorem discard (hn : LinkFree d) {b : Backup} (hS : ∀ dir n, Leads d b.copy dir n → S (dir ++ [n])) :
    Work.Keeps (Attained d S) b.discard fun r => (∃ dir n, Writable d b.copy dir n) → r = .ok () := by
  refine (remove hn hS).bind fun r hr => ?_
  rcases r with f | u
  · by_cases hf : f = .notFound
    · subst hf
      exact .pure fun _ => rfl
    · have hno : ¬ ∃ dir n, Writable d b.copy dir n := fun ⟨dir, n, hw⟩ => by
        rcases hr dir n hw with h | h <;> cases h
        exact hf rfl
      cases f <;> exact .pure fun h => absurd h hno
  · exact .pure fun _ => rfl

theorem commit (hn : LinkFree d) {b : Backup} (hS : ∀ dir n, Leads d b.copy dir n → S (dir ++ [n])) :
    Work.Keeps (Attained d S) b.commit fun r => (∃ dir n, Writable d b.copy dir n) → r = .ok () := by
  refine (discard hn hS).bind fun r hr => ?_
  cases r with
  | error e => exact .pure fun hw => by cases hr hw
  | ok u => exact report.bind fun _ _ => .pure fun _ => rfl

/-! ### A pass -/

section
variable (ro : o.ReadOnly) (hn : LinkFree d)
include ro hn

theorem trials (hw : ∃ dir n, Writable d p dir n) (hS : ∀ dir n, Writable d p dir n → S (dir ++ [n]))
    (call : BuildCall) (lines : List Bytes) (cs : List Pass.Candidate) (states : List Lines.State) :
    Run.Keeps o (Attained d S) (Pass.trials o call p lines cs states) fun r => ∃ out, r = .ok out := by
  induction cs generalizing states with
  | nil => exact .pure ⟨_, rfl⟩
  | cons c cs ih =>
    refine (replace hn hS _).lift.bind fun r hr => ?_
    obtain rfl := hr hw
    refine (build ro call).bind fun passed _ => ?_
    cases passed with
    | true | false =>
      refine report.lift.bind fun _ _ => (ih _).bind fun r hr => ?_
      obtain ⟨⟨findings, final⟩, rfl⟩ := hr
      exact .pure ⟨_, rfl⟩

/-- A pass over a source that can be read and written does not fail. -/
theorem pass (hw : ∃ dir n, Writable d p dir n) (hS : ∀ dir n, Writable d p dir n → S (dir ++ [n]))
    (call : BuildCall) (m : Directive.Matcher) {c : Bytes} (h : Attained d S w) (hread : w.disk.read p = .ok c) :
    Run.KeepsFrom o (Attained d S) (Pass.run o call m p) (fun r => ∃ report, r = .ok report) w := by
  rw [Run.KeepsFrom, Pass.run, Run.on_bind, Run.on_lift, Work.on_disk]
  simp only [hread]
  refine Run.Keeps.bind report.lift (fun _ _ => ?_) w h
  refine (trials ro hn hw hS call _ _ _).bind fun r hr => ?_
  obtain ⟨⟨findings, states⟩, rfl⟩ := hr
  simp only
  split
  · exact .pure ⟨_, rfl⟩
  · refine (replace hn hS _).lift.bind fun r hr => ?_
    obtain rfl := hr hw
    exact .pure ⟨_, rfl⟩

end

/-- No backup is made and nothing has changed, or the source can be read and written, and the backup too. -/
theorem create (hn : LinkFree d) (h : Attained d S w) (hS : ∀ dir n, Leads d (backup p) dir n → S (dir ++ [n])) :
    (∃ e w', Work.on (Backup.create p) w = (.error e, w') ∧ Attained d S w' ∧ w'.disk.get? = w.disk.get?) ∨
    ∃ w' c dir n, Work.on (Backup.create p) w = (.ok (.of p), w') ∧ Attained d S w' ∧ w'.disk.read p = .ok c ∧
      Writable d p dir n ∧ Writable d (backup p) dir (markedName backupMark n) := by
  have hn' := h.near.linkFree hn
  rw [Backup.on_create]
  by_cases he : w.disk.exists? (backup p) = true
  · rw [if_pos he]
    exact .inl ⟨_, w, rfl, h, rfl⟩
  rw [if_neg he]
  cases hread : w.disk.read p with
  | error f => exact .inl ⟨_, w, rfl, h, rfl⟩
  | ok c =>
    have hrep := (replace hn (fun dir n hw => hS dir n hw.leads) c w h).1
    rw [Work.on_replace] at hrep
    rcases hn'.replace_cases h.near.tree (backup p) c with ⟨f, d₁, heq, ht⟩ | ⟨dir', n', d₁, heq, hw, ht⟩
    · rw [heq] at hrep
      simp only [heq]
      exact .inl ⟨_, _, rfl, hrep, ht.view⟩
    obtain ⟨hslash, dir, n, e, hl, hg, hb⟩ := hn'.read_leaf h.near.tree hread
    obtain ⟨⟨rfl, rfl⟩, hlive⟩ := writable_of_backup h.near.tree hl hslash (hg ▸ hb) hw
    rw [heq] at hrep
    simp only [heq]
    refine .inr ⟨_, c, dir', n, rfl, hrep.emit _, ?_, hlive.alike h.near.alike.symm, hw.alike h.near.alike.symm⟩
    have hne := ne_markedName dir' backupMark n
    have hlink : ∀ target, e ≠ .link target := by
      rintro target rfl
      cases hb
    have hg₁ : d₁.get? (dir' ++ [n]) = some e := by rw [ht.view, Function.update_of_ne hne, hg]
    have hstat := (hl.alike ht.alike).stat_some hslash hg₁ hlink
    calc ((w.change d₁).emit _).disk.read p = d₁.read p := by rw [World.disk_emit (w := w.change d₁) h.log]; rfl
      _ = w.disk.read p := by simp only [Disk.read, hstat, hl.stat_some hslash hg hlink]
      _ = .ok c := hread

/-- A source that could be backed up is committed, unless the run is cut off. -/
theorem processFile (ro : o.ReadOnly) (hn : LinkFree d) (s : Settings) (h : Attained d S w)
    (hcopy : ∀ dir n, Leads d (backup p) dir n → S (dir ++ [n]))
    (hlive : ∀ dir n, Writable d p dir n → Writable d (backup p) dir (markedName backupMark n) → S (dir ++ [n])) :
    Attained d S (Run.on (Sweep.processFile s o p) w).2 ∧
    (∀ b, (Work.on (Backup.create p) w).1 = .ok b →
      (∃ report, (Run.on (Sweep.processFile s o p) w).1 = .ok (.committed report)) ∨
        (Run.on (Sweep.processFile s o p) w).1 = .error ⟨⟩ ∧ o.Cuts) ∧
    ∀ e, (Work.on (Backup.create p) w).1 = .error e → (Run.on (Sweep.processFile s o p) w).1 = .ok (.notStarted e) ∧
      (Run.on (Sweep.processFile s o p) w).2.disk.get? = w.disk.get? := by
  rw [Sweep.processFile, Run.on_bind, Run.on_lift]
  rcases h.create hn hcopy (p := p) with ⟨e, w', hmade, h', hsame⟩ | ⟨w', c, dir, n, hmade, h', hread, hw, hwb⟩
  · simp only [hmade]
    refine ⟨h'.emit _, fun b hb => (by cases hb), fun e' he' => ?_⟩
    cases he'
    exact ⟨rfl, (congrArg Disk.get? (World.disk_emit h'.log _)).trans hsame⟩
  · simp only [hmade]
    have hS : ∀ dir' n', Writable d p dir' n' → S (dir' ++ [n']) := fun dir' n' hw' => by
      obtain ⟨rfl, rfl⟩ := hw.leads.unique hw'.leads
      exact hlive _ _ hw hwb
    obtain ⟨h'', hpass⟩ := pass ro hn ⟨dir, n, hw⟩ hS (Sweep.trialCall s) s.matcher h' hread
    rw [Run.on_bind]
    rcases hrun : Run.on (Pass.run o (Sweep.trialCall s) s.matcher p) w' with ⟨r, w''⟩
    rw [hrun] at h'' hpass
    obtain ⟨r, rfl, report, rfl⟩ | ⟨rfl, hcut⟩ := hpass
    swap
    · exact ⟨h'', fun _ _ => .inr ⟨rfl, hcut⟩, fun e he => (by cases he)⟩
    have hcommit {x : Run Sweep.Fate} (hx : Run.Keeps o (Attained d S) x fun fate => ∃ report, fate = .committed report) :
        Attained d S (Run.on x w'').2 ∧ ((∃ report, (Run.on x w'').1 = .ok (.committed report)) ∨
          (Run.on x w'').1 = .error ⟨⟩ ∧ o.Cuts) := by
      refine (hx w'' h'').imp_right (Or.imp_left ?_)
      rintro ⟨_, hok, report, rfl⟩
      exact ⟨report, hok⟩
    rw [← and_assoc]
    refine ⟨(hcommit ((commit hn hcopy).lift.bind fun r hr => ?_)).imp_right fun h _ _ => h, fun e he => (by cases he)⟩
    obtain rfl := hr ⟨dir, _, hwb⟩
    exact .pure ⟨report, rfl⟩

end Attained

/-! ### A whole run -/

/-- Where a run can change something: the progress, the trial project under all its names, the file that an earlier run
was at, backups, temporaries, and the sources that can be backed up. -/
inductive Touched (d : Disk) (s : Settings) : Location → Prop
  | progress {dir : Location} {n : Bytes} (h : Leads d s.progressFile dir n) : Touched d s (dir ++ [n])
  | trial {dir k : Location} {n : Bytes} (h : Leads d s.trialProject dir n) (hk : k ∈ d.twins (dir ++ [n])) :
    Touched d s k
  | marked {m : Path} {dir : Location} {n : Bytes} (hm : Progress.read d s.progressFile = .ok (.inProgress m))
    (h : Leads d m dir n) : Touched d s (dir ++ [n])
  | backup {p : Path} {dir : Location} {n : Bytes} (h : Leads d (backup p) dir n) : Touched d s (dir ++ [n])
  | temporary {p : Path} {dir : Location} {n : Bytes} (ht : isTemporary p = true) (h : Leads d p dir n) :
    Touched d s (dir ++ [n])
  | source {p : Path} {dir : Location} {n : Bytes} (h : Leads d p dir n)
    (hw : Writable d (Artefact.backup p) dir (markedName backupMark n)) : Touched d s (dir ++ [n])

abbrev Unreverted (summary : Sweep.Summary) : Prop := summary.restored = [] ∧ summary.restoreFailed = []

namespace Attained

section
variable (ro : o.ReadOnly) (hn : LinkFree d)
include ro hn

theorem lasting : Lasting o (Attained d S) fun p => ∀ dir n, Leads d p dir n → S (dir ++ [n]) where
  emit _ e _ h := h.emit e
  build := build ro
  replace _ content hp w h := ⟨(replace hn (fun dir n hw => hp dir n hw.leads) content w h).1, trivial⟩
  remove _ hp w h := ⟨(remove hn hp w h).1, trivial⟩

theorem processFiles (total position : Nat) (files : List Path) (summary : Sweep.Summary)
    (hs : Unreverted summary) :
    Run.Keeps o (Attained d (Touched d s)) (Sweep.processFiles s o total position files summary) fun r =>
      ∀ summary', r = .ok summary' → Unreverted summary' := by
  induction files generalizing position summary with
  | nil =>
    refine .pure fun summary' h => ?_
    cases h
    exact hs
  | cons p files ih =>
    have hfate : Run.Keeps o (Attained d (Touched d s)) (Sweep.processFile s o p) fun fate =>
        (∃ report, fate = .committed report) ∨ ∃ e, fate = .notStarted e := by
      intro w h
      obtain ⟨h', hok, herr⟩ := h.processFile ro hn s (fun dir n hl => .backup hl)
        (fun dir n hw hwb => .source hw.leads hwb) (p := p)
      refine ⟨h', ?_⟩
      cases hmade : (Work.on (Backup.create p) w).1 with
      | ok b => exact (hok b hmade).imp_left fun ⟨report, hf⟩ => ⟨_, hf, .inl ⟨report, rfl⟩⟩
      | error e => exact .inl ⟨_, (herr e hmade).1, .inr ⟨e, rfl⟩⟩
    have hsave := (lasting ro hn).save fun dir n hl => Touched.progress hl (s := s)
    refine report.lift.bind fun _ _ => (hsave _).lift.bind fun r _ => ?_
    cases r with
    | error e => exact .pure fun _ h => by cases h
    | ok u =>
      refine hfate.bind fun fate hfate => (hsave _).lift.bind fun r _ => ?_
      cases r with
      | error e => exact .pure fun _ h => by cases h
      | ok u =>
        refine ih (position + 1) (summary.record p fate) ?_
        rcases hfate with ⟨report, rfl⟩ | ⟨e, rfl⟩ <;> exact hs

theorem sweepFiles (files : List Path) (marker : Option Path) :
    Run.Keeps o (Attained d (Touched d s)) (Sweep.sweepFiles s o files marker) fun r =>
      ∀ summary, r = .ok (.completed summary) → Unreverted summary := by
  refine report.lift.bind fun _ _ => (processFiles ro hn _ _ _ _ ⟨rfl, rfl⟩).bind fun r hr => ?_
  cases r with
  | error e => exact .pure fun _ h => by cases h
  | ok summary =>
    refine ((lasting ro hn).save (fun dir n hl => .progress hl) _).lift.bind fun r _ => ?_
    cases r with
    | error e => exact .pure fun _ h => by cases h
    | ok u =>
      have hremove := (lasting ro hn).removeTrialProject fun dir n hl => Touched.trial hl (self_mem_twins d _) (s := s)
      refine hremove.lift.bind fun _ _ => report.lift.bind fun _ _ => .pure fun summary' h => ?_
      cases h
      exact hr summary rfl

theorem sweepFrom (hd : Tree d) (ht : Tied d) (marker : Option Path) :
    Run.Keeps o (Attained d (Touched d s)) (Sweep.sweepFrom s o marker) fun r =>
      ∀ summary, r = .ok (.completed summary) → Unreverted summary := by
  have hlasting := lasting ro hn (S := Touched d s)
  refine hlasting.checkBaseline.bind fun r _ => ?_
  cases r with
  | error e => exact .pure fun _ h => by cases h
  | ok u =>
    refine (hlasting.find (fun q ht dir n hl => .temporary ht hl) _ _).lift.bind fun r _ => ?_
    cases r with
    | error e => exact .pure fun _ h => by cases h
    | ok files =>
      refine (copy hd hn ht s.project fun dir n hl k hk => .trial hl hk).lift.bind fun r _ => ?_
      cases r with
      | error f => exact .pure fun _ h => by cases h
      | ok u => exact sweepFiles ro hn files marker

theorem run (hd : Tree d) (ht : Tied d) :
    Run.KeepsFrom o (Attained d (Touched d s)) (Sweep.run s o)
      (fun r => ∀ summary, r = .ok (.completed summary) → Unreverted summary) (World.start (.ofDisk d)) := by
  have hstart : Attained d (Touched d s) (World.start (.ofDisk d)) := .start hd
  have hfrom := fun marker => sweepFrom ro hn hd ht marker (s := s)
  rw [Run.KeepsFrom, Sweep.run, Run.on_bind, Run.on_lift, Work.on_disk]
  simp only [show (World.start (.ofDisk d)).disk = d from rfl]
  cases hread : Progress.read d s.progressFile with
  | error e => exact Run.Keeps.pure (fun _ h => by cases h) _ hstart
  | ok position =>
    cases position with
    | fresh => exact hfrom none _ hstart
    | done => exact report.lift.bind (fun _ _ => .pure fun _ h => by cases h) _ hstart
    | inProgress m =>
      refine Run.Keeps.bind ((lasting ro hn).recover (fun dir n hl => .marked hread hl) fun dir n hl => .backup hl).lift
        (fun r _ => ?_) _ hstart
      cases r with
      | error e => exact .pure fun _ h => by cases h
      | ok u => exact hfrom (some m)

end

end Attained

/-- A name that a pass over a file would need is too long: that of the backup, or of a temporary. -/
def Artefact.Overlong (p : Path) : Prop :=
  ∃ name ∈ [(backup p).fileName?.getD [], template p, template (backup p)], maxName < name.length

theorem Disk.Leads.fileName?_backup (hl : Leads d p dir n) :
    (backup p).fileName? = some (markedName backupMark n) := by
  obtain ⟨-, -, -, -, -, hb⟩ := exists_marked isMark_backup hl.fileName?
  exact hb

theorem Disk.Leads.overlong (hl : Leads d p dir n) (h : Overlong p) : maxName < (template (backup p)).length := by
  obtain ⟨name, hname, hlong⟩ := h
  simp only [template, temporaryStart, hl.fileName?, hl.fileName?_backup, Option.getD_some, List.mem_cons,
    List.not_mem_nil, or_false] at hname ⊢
  rcases hname with rfl | rfl | rfl <;> simp only [List.length_append, length_markedName] at hlong ⊢ <;> omega

/-- Nothing touches a file that cannot be backed up because of its name. -/
theorem not_touched (hn : LinkFree d) (hl : Leads d p dir n) (hart : isArtefact p = false) (htemp : isTemporary p = false)
    (hlong : Overlong p) (hprog : p.place d.cwd ≠ s.progressFile.place d.cwd)
    (htrial : p.place d.cwd ∉ d.twins (s.trialProject.place d.cwd))
    (hmark : ∀ m, Progress.read d s.progressFile = .ok (.inProgress m) → p.place d.cwd ≠ m.place d.cwd) :
    ¬ Touched d s (p.place d.cwd) := by
  intro ht
  have hplace := hl.place hn
  generalize p.place d.cwd = l at ht hprog htrial hmark hplace
  cases ht with
  | progress h => exact hprog (h.place hn).symm
  | trial h hk => exact htrial (by rwa [h.place hn])
  | marked hm h => exact hmark _ hm (h.place hn).symm
  | backup h => exact place_ne_backup hl hart d.cwd _ (hplace.symm.trans (h.place hn).symm)
  | temporary ht h =>
    obtain ⟨-, hname⟩ := List.append_inj' hplace rfl
    cases hname
    rw [(isTemporary_iff hl.fileName?).2 ((isTemporary_iff h.fileName?).1 ht)] at htemp
    cases htemp
  | source h hw =>
    obtain ⟨-, hname⟩ := List.append_inj' hplace rfl
    cases hname
    have hshort := hw.short
    have hlong := hl.overlong hlong
    simp only [template, temporaryStart, hl.fileName?_backup, hw.leads.fileName?] at hshort hlong
    omega

/-- With a build that only reads the disk every source is committed or left alone. -/
theorem never_reverted (ro : o.ReadOnly) (s : Settings) :
    (∀ (w : World) (p : Path), w.log = none → Tree w.disk → LinkFree w.disk →
      let made := (Work.on (Backup.create p) w).1
      let taken := Run.on (Sweep.processFile s o p) w
      (∀ b, made = .ok b → (∃ report, taken.1 = .ok (.committed report)) ∨ taken.1 = .error ⟨⟩ ∧ o.Cuts) ∧
      ∀ e, made = .error e → taken.1 = .ok (.notStarted e) ∧ taken.2.disk.get? = w.disk.get?) ∧
    ∀ d : Disk, Tree d → LinkFree d → Tied d →
      let swept := Run.on (Sweep.run s o) (World.start (.ofDisk d))
      (∀ summary, swept.1 = .ok (.ok (.completed summary)) → summary.restored = [] ∧ summary.restoreFailed = []) ∧
      ∀ p, isArtefact p = false → isTemporary p = false → Overlong p →
        p.place d.cwd ≠ s.progressFile.place d.cwd → p.place d.cwd ∉ d.twins (s.trialProject.place d.cwd) →
        (∀ m, Progress.read d s.progressFile = .ok (.inProgress m) → p.place d.cwd ≠ m.place d.cwd) →
        swept.2.disk.file? p = d.file? p := by
  refine ⟨fun w p hlog hd hn => ?_, fun d hd hn ht => ?_⟩
  · have h : Attained w.disk (fun _ => True) w := ⟨hlog, .refl hd⟩
    exact (h.processFile ro hn s (fun _ _ _ => trivial) (fun _ _ _ _ => trivial)).2
  obtain ⟨hend, hsummary⟩ := Attained.run ro hn hd ht (s := s)
  refine ⟨fun summary h => ?_, fun p hart htemp hlong hprog htrial hmark => ?_⟩
  · obtain ⟨r, hr, hsummary⟩ | ⟨hr, -⟩ := hsummary
    · cases h.symm.trans hr
      exact hsummary summary rfl
    · cases h.symm.trans hr
  refine file?_congr hd hend.near.tree hend.near.alike (hn.noLink p) fun dir n hl =>
    (hend.near.frame _).resolve_right fun htouched => ?_
  rw [← hl.place hn] at htouched
  exact not_touched hn hl hart htemp hlong hprog htrial hmark htouched

namespace LongName

/-- A file can have this name, and its backup one that is made of it, but no temporary of the backup. -/
def name : Bytes := List.replicate 222 0x61 ++ Bytes.ofString ".cpp"

def path : Path := ⟨Bytes.ofString "src/" ++ name⟩

/-- The workshop with one more source. -/
def disk : Disk := (workshop 0o644).put (path.place (workshop 0o644).cwd) (.file 0o644 [])

/-- An earlier run was at that source, and there is a backup of it. -/
def marked : Disk :=
  (disk.put ((backup path).place disk.cwd) (.file 0o644 "old")).put
    (settings.progressFile.place disk.cwd) (.file 0o600 path.text)

/-- The source is the trial project under another name. -/
def tied : Disk :=
  { disk.put (settings.trialProject.place disk.cwd) (.file 0o644 []) with
    shared := [(path.place disk.cwd, 0), (settings.trialProject.place disk.cwd, 0)] }

def left (d : Disk) (s : Settings) : Option (Nat × Bytes) :=
  (Run.on (Sweep.run s (.looking builds)) (World.start (.ofDisk d))).2.disk.file? path

end LongName

/-- One source is committed, and one that cannot be backed up is left alone. -/
theorem never_reverted_overlong :
    (∃ report, (Run.on (Sweep.processFile settings (.looking builds) first)
      (World.start (.ofDisk LongName.disk))).1 = .ok (.committed report)) ∧
    LongName.left LongName.disk settings = some (0o644, []) := by
  have hd : Tree LongName.disk := tree_of_entries (by decide +kernel)
  have hn : LinkFree LongName.disk := linkFree_of_entries (by decide +kernel)
  have ht : Tied LongName.disk := fun x hx => absurd hx List.not_mem_nil
  have hmade : (Work.on (Backup.create first) (World.start (.ofDisk LongName.disk))).1 =
      .ok (.of first) := by decide +kernel
  have hfresh : Progress.read LongName.disk settings.progressFile = .ok .fresh := by decide +kernel
  obtain ⟨htaken, hswept⟩ := never_reverted (Oracle.readOnly_looking builds) settings
  constructor
  · rcases (htaken (World.start (.ofDisk LongName.disk)) first rfl hd hn).1 _ hmade with h | ⟨-, hcut⟩
    · exact h
    · obtain ⟨n, call, h, hv⟩ := hcut
      cases hv
  · have hsame := (hswept LongName.disk hd hn ht).2 LongName.path (by decide +kernel) (by decide +kernel)
      (by unfold Overlong; decide +kernel) (by decide +kernel) (by decide +kernel)
      fun m hm => by cases hfresh.symm.trans hm
    exact hsame.trans (by decide +kernel)

/-- Such a source is written where it keeps the progress, has a backup already, or is the trial project. -/
theorem overlong_touched :
    (LongName.disk.file? LongName.path = some (0o644, []) ∧
      LongName.left LongName.disk { settings with progressFile := LongName.path } =
        some (0o644, Bytes.ofString "include-sweeper:complete")) ∧
    (LongName.marked.file? LongName.path = some (0o644, []) ∧
      LongName.left LongName.marked settings = some (0o644, Bytes.ofString "old")) ∧
    LongName.tied.file? LongName.path = some (0o644, []) ∧
      LongName.left LongName.tied settings = some (0o644, Bytes.ofString "<Project/>\n") := by decide +kernel

end Prune
