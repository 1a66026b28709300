import Prune.Proofs.OpenFiles
import Prune.Proofs.ResumePosition

/-!
# A sweep with an open log

A sweep may write its log into the very disk that it sweeps. `Logged` says what stays true of that disk while the log
is open: what is written to the log is found under its own names only, so that nobody but the sweep itself changes the
progress. Each step keeps it, and so the end of a sweep says what the progress holds (`told_run`).
-/

namespace Prune

open Disk Artefact

variable {d d' : Disk} {p : Path} {l k : Location} {K : Location → Prop} {s : Settings} {o : Oracle} {w w' : World}
  {log : LogFile} {Q R : Option Entry → Prop}

/-- A build that leaves everything as it is, also what is open. -/
structure Oracle.Aside (o : Oracle) : Prop extends o.ReadOnly where
  held : ∀ n call h, (o n call h).disk.held = h.disk.held

/-- A disk with an open log, the names of which are those in `K`. The progress has none of them, and the trial project
has neither these nor the name of the progress. -/
structure Desk (s : Settings) (d : Disk) (K : Location → Prop) : Prop where
  tree : Tree d
  linkFree : LinkFree d
  sited : Sited d
  log : ∀ k, K k → Site d k ∧ ∀ j ∈ d.twins k, K j
  logFile : ∀ l, LeadsTo d s.logFile l → K l
  progress : ∀ l, LeadsTo d s.progressFile l → ¬ K l
  trial : ∀ l, LeadsTo d s.trialProject l → ∀ k ∈ d.twins l, ¬ K k ∧ ¬ LeadsTo d s.progressFile k

/-- The log is open at `w` on what has become of the disk `d`, and the progress is as `Q` says. -/
structure Logged (s : Settings) (d : Disk) (K : Location → Prop) (log : LogFile) (Q : Option Entry → Prop) (w : World) :
    Prop where
  logs : w.log = some log
  near : Near d (fun _ _ => True) w.disk
  held : ∀ number, log.file = some number → ∀ k, w.disk.place? number = some (.at k) → K k
  stays : ∀ l, LeadsTo d s.logFile l → Loggable (w.disk.get? l)
  writes : ∀ k, K k → Writes (w.disk.get? k)
  tells : ∀ l, LeadsTo d s.progressFile l → Q (w.disk.get? l)

/-- What may come to be at a place while the log is open. -/
def Admits (s : Settings) (d : Disk) (K : Location → Prop) (l : Location) (e : Option Entry) : Prop :=
  (LeadsTo d s.logFile l → Loggable e) ∧ (K l → Writes e)

/-- The same at a place that is not the progress. -/
def Spared (s : Settings) (d : Disk) (K : Location → Prop) (l : Location) (e : Option Entry) : Prop :=
  ¬ LeadsTo d s.progressFile l ∧ Admits s d K l e

/-- Paths to other places than those of the progress and the log. -/
def Elsewhere (s : Settings) (d : Disk) (p : Path) : Prop :=
  ∀ l, LeadsTo d p l → ¬ LeadsTo d s.progressFile l ∧ ¬ LeadsTo d s.logFile l

/-- Of several changes the last one counts. -/
theorem World.changes_cases (disks : List Disk) (w : World) : (disks.foldl World.change w).log = w.log ∧
    ((disks.foldl World.change w).disk = w.disk ∨ (disks.foldl World.change w).disk ∈ disks) := by
  induction disks generalizing w with
  | nil => exact ⟨rfl, .inl rfl⟩
  | cons d disks ih =>
    obtain ⟨hlog, hdisk⟩ := ih (w.change d)
    refine ⟨hlog, .inr ?_⟩
    rcases hdisk with h | h
    · exact List.mem_cons.2 (.inl h)
    · exact List.mem_cons_of_mem d h

namespace Logged

theorem mono (h : Logged s d K log Q w) (hQ : ∀ l, LeadsTo d s.progressFile l → ∀ e, Q e → R e) :
    Logged s d K log R w := { h with tells := fun l hl => hQ l hl _ (h.tells l hl) }

section
variable (hk : Desk s d K) (h : Logged s d K log Q w)
include hk h

theorem names : ∀ k, K k → Site w.disk k ∧ ∀ j ∈ w.disk.twins k, K j := fun k hKk =>
  ⟨(hk.log k hKk).1.alike h.near.alike, fun j hj => (hk.log k hKk).2 j (h.near.sharing.twins hj)⟩

theorem changed (hlog : w'.log = w.log) (hn : Near w.disk (Admits s d K) w'.disk) (hm : Moves w.disk w'.disk)
    (ht : ∀ l, LeadsTo d s.progressFile l → R (w'.disk.get? l)) : Logged s d K log R w' where
  logs := hlog.trans h.logs
  near := h.near.trans (hn.mono fun _ _ _ => trivial)
  held number hfile k hplace := by
    obtain ⟨j, hj, hkj⟩ := hm number k hplace
    exact (h.names hk j (h.held number hfile j hj)).2 k hkj
  stays l hl := by
    rcases hn.frame l with heq | ⟨hlog, -⟩
    · exact heq ▸ h.stays l hl
    · exact hlog hl
  writes k hKk := by
    rcases hn.frame k with heq | ⟨-, hw⟩
    · exact heq ▸ h.writes k hKk
    · exact hw hKk
  tells := ht

theorem step (hlog : w'.log = w.log) (hn : Near w.disk (Spared s d K) w'.disk) (hm : Moves w.disk w'.disk) :
    Logged s d K log Q w' :=
  h.changed hk hlog (hn.mono fun _ _ ha => ha.2) hm fun l hl =>
    ((hn.frame l).resolve_right fun hno => hno.1 hl).symm ▸ h.tells l hl

theorem near_emit (e : Event) :
    Near w.disk (LogFile.Wrote w.disk K) (w.emit e).disk ∧ Moves w.disk (w.emit e).disk := by
  have hdisk : (w.emit e).disk = log.append e w.disk := by simp [World.emit, h.logs]
  rw [hdisk]
  exact log.near_append h.near.tree (h.names hk) h.held e

theorem emit (e : Event) : Logged s d K log Q (w.emit e) := by
  obtain ⟨hn, hm⟩ := h.near_emit hk e
  refine h.step hk rfl (hn.mono ?_) hm
  rintro l e' ⟨hKl, k, mode, old, content, hKk, hg, rfl⟩
  refine ⟨fun hl => hk.progress l hl hKl, fun _ => trivial, fun _ mode' c heq => ?_⟩
  cases heq
  exact (allows_writtenMode mode).trans (h.writes k hKk mode old hg)

theorem emits (es : List Event) : Logged s d K log Q (es.foldl World.emit w) := by
  induction es generalizing w with
  | nil => exact h
  | cons e es ih => exact ih (h.emit hk e)

theorem linkFree : LinkFree w.disk := h.near.linkFree hk.linkFree

theorem sited : Sited w.disk := fun l hl k hk' =>
  (hk.sited l (hl.alike h.near.alike.symm) k (h.near.sharing.twins hk')).alike h.near.alike

end

section
variable (hk : Desk s d K)
include hk

theorem build (ho : o.Aside) (call : BuildCall) :
    Run.Keeps o (Logged s d K log Q) (Run.build o call) fun _ => True := by
  refine Run.keeps_build fun w h => ?_
  rw [Run.on_build]
  have hanswered : Logged s d K log Q (w.answered call (o (w.builds.length + 1) call w.toHost)) :=
    h.step hk rfl ((Near.refl h.near.tree).congr (ho.entries ..) (ho.cwd ..) (.of_eq (ho.shared ..)))
      (.of_eq (ho.held ..))
  exact hanswered.emits hk _

theorem lasting (ho : o.Aside) : Lasting o (Logged s d K log Q) (Elsewhere s d) where
  emit _ e _ h := h.emit hk e
  build := build hk ho
  replace p content hp w h := by
    have hn : Near w.disk (Spared s d K) _ := (Near.refl h.near.tree).replace (h.linkFree hk) content fun dir n hw =>
      ⟨(hp _ ⟨dir, n, hw.leads.alike h.near.alike.symm, rfl⟩).1, fun _ => trivial,
        fun hKl mode c heq => by cases heq; exact allows_inherit (h.writes _ hKl) rfl⟩
    have hm := moves_replace w.disk p content
    rw [Work.on_replace]
    rcases hrep : w.disk.replace p content with ⟨_ | _, d'⟩
    all_goals
      rw [hrep] at hn hm
      exact ⟨h.step hk rfl hn hm, trivial⟩
  remove p hp w h := by
    rw [Work.on_remove]
    cases hrm : w.disk.remove p with
    | error f => exact ⟨h, trivial⟩
    | ok d' =>
      have hn : Near w.disk (Spared s d K) d' := by
        refine (Near.refl h.near.tree).remove ((h.linkFree hk).noLink p) (fun dir n hl => ?_) hrm
        have hno := hp _ ⟨dir, n, hl.alike h.near.alike.symm, rfl⟩
        exact ⟨hno.1, fun hlog => absurd hlog hno.2, fun _ mode c heq => by cases heq⟩
      obtain ⟨dir, n, e, -, -, -, rfl⟩ := remove_inv h.near.tree hrm
      exact ⟨h.step hk rfl hn (moves_release w.disk _), trivial⟩

theorem copy (source : Path) :
    Work.Keeps (Logged s d K log Q) (Work.copy source s.trialProject) fun _ => True := by
  intro w h
  rw [Work.on_copy]
  cases hc : w.disk.copy source s.trialProject with
  | error f => exact ⟨h, trivial⟩
  | ok disks =>
    have hn : ∀ d' ∈ disks, Near w.disk (Spared s d K) d' ∧ Moves w.disk d' := by
      refine (Near.refl h.near.tree).copy (h.sited hk) (fun place hr hb k hk' mode c => ?_) hc
      obtain ⟨-, dir, n, hl, hloc⟩ := ((h.linkFree hk).noLink _).location_of_resolve h.near.tree hr hb
      have hno := hk.trial _ ⟨dir, n, hl.alike h.near.alike.symm, hloc⟩ k (h.near.sharing.twins hk')
      exact ⟨hno.2, fun hlog => absurd (hk.logFile k hlog) hno.1, fun hKk => absurd hKk hno.1⟩
    obtain ⟨hlog, hdisk | hdisk⟩ := World.changes_cases disks w
    · exact ⟨h.step hk hlog ((Near.refl h.near.tree).congr (by rw [hdisk]) (by rw [hdisk]) (.of_eq (by rw [hdisk])))
        (.of_eq (by rw [hdisk])), trivial⟩
    · exact ⟨h.step hk hlog (hn _ hdisk).1 (hn _ hdisk).2, trivial⟩

theorem save (h : Logged s d K log Q w) (x : Resume)
    (hQ : ∀ e, Q e → endsInSlash s.progressFile = false → R (some (.file (inherit e) (Progress.encode x)))) :
    let r := Work.on (Progress.save s.progressFile x) w
    (∃ e, r.1 = .error (.write s.progressFile e)) ∧ Logged s d K log Q r.2 ∨
    r.1 = .ok () ∧ Logged s d K log R r.2 ∧ endsInSlash s.progressFile = false ∧ ∃ l, LeadsTo d s.progressFile l := by
  simp only [Progress.save, Work.on_bind, Work.on_replace]
  have hmoves := moves_replace w.disk s.progressFile (Progress.encode x)
  rcases (h.linkFree hk).replace_cases h.near.tree s.progressFile (Progress.encode x) with
    ⟨f, d', hrep, ht⟩ | ⟨dir, n, d', hrep, hw, ht⟩
  all_goals
    rw [hrep] at hmoves
    simp only [hrep]
  · exact .inl ⟨⟨f, rfl⟩, h.step hk rfl ⟨ht.tree, ht.alike, ht.sharing, fun l => .inl (congrFun ht.view l)⟩ hmoves⟩
  · have hl : LeadsTo d s.progressFile (dir ++ [n]) := ⟨dir, n, hw.leads.alike h.near.alike.symm, rfl⟩
    have hn : Near w.disk (Admits s d K) d' := .of_update ht
      ⟨fun hlog => absurd (hk.logFile _ hlog) (hk.progress _ hl), fun hKl => absurd hKl (hk.progress _ hl)⟩
    have h' : Logged s d K log R (w.change d') := h.changed hk rfl hn hmoves fun l hl' => by
      obtain rfl := hl.unique hl'
      simpa [World.change, ht.view] using hQ _ (h.tells _ hl) hw.slash
    exact .inr ⟨rfl, h'.emit hk _, hw.slash, _, hl⟩

end

end Logged

/-! ### What the progress says -/

/-- The progress says that all is done. -/
def Done (e : Option Entry) : Prop := ∃ mode c, e = some (.file mode c) ∧ allows mode readBit = true ∧
  Utf8.isValid c = true ∧ Progress.decode c = .done

/-- The progress can be read and does not say that all is done, if it is kept in a file. -/
def Underway (s : Settings) (e : Option Entry) : Prop :=
  endsInSlash s.progressFile = false → ∀ mode c, e = some (.file mode c) →
    allows mode readBit = true ∧ Progress.decode c ≠ .done

/-- The progress is as it was on `d`. -/
def Unmoved (s : Settings) (d : Disk) (e : Option Entry) : Prop := ∀ l, LeadsTo d s.progressFile l → e = d.get? l

/-- The progress does not say that all is done. -/
def Undone (s : Settings) (e : Option Entry) : Prop := endsInSlash s.progressFile = false → ¬ Done e

theorem Underway.undone {e : Option Entry} (h : Underway s e) : Undone s e := by
  rintro hs ⟨mode, c, rfl, -, -, hdone⟩
  exact (h hs mode c rfl).2 hdone

theorem Underway.saved {e : Option Entry} (h : Underway s e) {x : Resume} (hx : Progress.decode (Progress.encode x) ≠ .done)
    (hs : endsInSlash s.progressFile = false) : Underway s (some (.file (inherit e) (Progress.encode x))) := by
  intro _ mode c heq
  cases heq
  exact ⟨allows_inherit (fun mode c he => (h hs mode c he).1) rfl, hx⟩

theorem decode_ne_done (h : Path.dot ∈ p.text) : Progress.decode p.text ≠ .done := by
  have hmem : Path.dot ∈ (p.text.reverse.dropWhile Progress.isLineEnd).reverse := by
    rw [List.mem_reverse]
    rw [← List.mem_reverse, ← List.takeWhile_append_dropWhile (p := Progress.isLineEnd) (l := p.text.reverse)] at h
    refine (List.mem_append.1 h).resolve_left fun ht => ?_
    exact absurd (List.mem_takeWhile_imp ht) (by decide)
  simp only [Progress.decode]
  split
  · simp
  split
  · next heq => exact absurd (heq ▸ hmem) (by decide)
  · simp

theorem read_done_iff (hd : Tree d) (hn : LinkFree d) : Progress.read d p = .ok .done ↔
    endsInSlash p = false ∧ ∃ l, LeadsTo d p l ∧ Done (d.get? l) := by
  constructor
  · intro h
    simp only [Progress.read] at h
    split at h
    · next content htext =>
      simp only [readText, bind, Except.bind] at htext
      cases hr : d.read p with
      | error f => simp [hr] at htext
      | ok c =>
        simp only [hr] at htext
        split at htext
        · next hvalid =>
          cases htext
          obtain ⟨hs, dir, n, e, hl, hg, hb⟩ := hn.read_leaf hd hr
          refine ⟨hs, _, ⟨dir, n, hl, rfl⟩, ?_⟩
          have hdone : Progress.decode content = .done := by simpa using h
          simp only [Disk.read, hl.stat_some hs hg (by rintro target rfl; cases hb), bind, Except.bind] at hr
          cases e with
          | dir | link => cases hb
          | file mode c =>
            simp only [pure, Except.pure] at hr
            split at hr
            · next hread =>
              cases hr
              exact ⟨mode, _, hg, hread, hvalid, hdone⟩
            · cases hr
          | special what =>
            cases what <;> cases hr <;> exact absurd hdone (by decide)
        · cases htext
    · cases h
    · cases h
  · rintro ⟨hs, l, ⟨dir, n, hl, rfl⟩, mode, c, hg, hread, hvalid, hdone⟩
    rw [hl.progress_read hs hg hread hvalid, hdone]

theorem underway_of_read {x : Resume} (h : Progress.read d s.progressFile = .ok x) (hx : x ≠ .done)
    (hl : LeadsTo d s.progressFile l) : Underway s (d.get? l) := by
  intro hs mode c hg
  obtain ⟨dir, n, hl, rfl⟩ := hl
  cases hr : allows mode readBit with
  | false => simp [Progress.read, readText, Disk.read, hl.stat_some hs hg (by simp), hr, bind, Except.bind] at h
  | true =>
    cases hv : Utf8.isValid c with
    | false => simp [Progress.read, readText, hl.read hs hg hr, hv, bind, Except.bind] at h
    | true =>
      rw [hl.progress_read hs hg hr hv] at h
      cases h
      exact ⟨rfl, hx⟩

/-! ### What the end of a sweep says -/

/-- What the progress says at the end of a sweep that began when it did not say that all is done. -/
def Told (s : Settings) (d : Disk) (K : Location → Prop) (log : LogFile) :
    Except Interrupted (Except Sweep.Problem Sweep.Outcome) × World → Prop
  | (.ok (.ok .alreadyComplete), _) => False
  | (.ok (.ok (.completed _)), w) =>
    endsInSlash s.progressFile = false ∧ (∃ l, LeadsTo d s.progressFile l) ∧ Logged s d K log Done w
  | (.ok (.error (.baselineFailed _)), w) | (.ok (.error (.enumeration ..)), w) => Logged s d K log (Unmoved s d) w
  | (_, w) => Logged s d K log (Undone s) w

section
variable (hk : Desk s d K)
include hk

theorem Logged.keeps_save {x : Resume} (hx : Progress.decode (Progress.encode x) ≠ .done) :
    Work.Keeps (Logged s d K log (Underway s)) (Progress.save s.progressFile x) fun _ => True := fun w h => by
  rcases h.save hk x fun e he hs => he.saved hx hs with ⟨-, h'⟩ | ⟨-, h', -⟩
  · exact ⟨h', trivial⟩
  · exact ⟨h', trivial⟩

theorem Logged.processFiles (ho : o.Aside) {files : List Path} (total position : Nat) (summary : Sweep.Summary)
    (hfiles : ∀ p ∈ files, Path.dot ∈ p.text ∧ Elsewhere s d p ∧ Elsewhere s d (backup p)) :
    Run.Keeps o (Logged s d K log (Underway s)) (Sweep.processFiles s o total position files summary)
      fun r => ∀ e, r = .error e → ∃ q, e = .progress q := by
  induction files generalizing position summary with
  | nil => exact .pure (by simp)
  | cons p files ih =>
    obtain ⟨hdot, hlive, hcopy⟩ := hfiles p (by simp)
    have htaking : Work.Keeps (Logged s d K log (Underway s)) (Work.report .info Sweep.target "processing file"
        [("file", .path p), ("position", .number position), ("total", .number total)]) fun _ => True :=
      fun w h => ⟨h.emit hk _, trivial⟩
    refine htaking.lift.bind fun _ _ => (Logged.keeps_save hk (x := .inProgress p) (decode_ne_done hdot)).lift.either
      (fun e => .pure (by simp)) fun _ => ((Logged.lasting hk ho).processFile hlive hcopy).bind fun fate _ =>
        (Logged.keeps_save hk (by decide)).lift.either (fun e => .pure (by simp)) fun _ => ?_
    exact ih (position + 1) (summary.record p fate) fun q hq => hfiles q (by simp [hq])

theorem told_sweepFiles (ho : o.Aside) {files : List Path} (marker : Option Path)
    (hfiles : ∀ p ∈ files, Path.dot ∈ p.text ∧ Elsewhere s d p ∧ Elsewhere s d (backup p))
    (htrial : Elsewhere s d s.trialProject) (h : Logged s d K log (Underway s) w) :
    Told s d K log (Run.on (Sweep.sweepFiles s o files marker) w) := by
  have hundone (w : World) (h : Logged s d K log (Underway s) w) : Logged s d K log (Undone s) w :=
    h.mono fun _ _ _ he => he.undone
  refine ((Logged.lasting hk ho).report (by decide)).lift.onward (o := o) hundone (fun _ _ w h => ?_) h
  refine (Logged.processFiles hk ho _ _ _ fun p hp => hfiles p (List.mem_of_mem_drop hp)).onward hundone
    (fun r hr w h => ?_) h
  cases r with
  | error e =>
    obtain ⟨q, rfl⟩ := hr e rfl
    exact hundone w h
  | ok summary =>
    simp only [Run.on_bind, Run.on_lift]
    have hsave := h.save hk (R := Done) .done fun e he hs =>
      ⟨_, _, rfl, allows_inherit (fun mode c hec => (he hs mode c hec).1) rfl, by decide, by decide⟩
    rcases hrun : Work.on (Progress.save s.progressFile .done) w with ⟨e | _, w'⟩
    all_goals
      rw [hrun] at hsave
      simp only at hsave ⊢
    · exact hundone w' (hsave.resolve_right (by simp)).2
    · obtain ⟨-, h', hs, hl⟩ := hsave.resolve_left (by simp)
      have hdone : Lasting o (Logged s d K log Done) _ := Logged.lasting hk ho
      exact ⟨hs, hl, (hdone.report (by decide) _ (hdone.removeTrialProject htrial w' h').1).1⟩

omit hk in
theorem Logged.near_again (h : Logged s d K log Q w) (hsame : SameTree w.disk d') : Near d (fun _ _ => True) d' :=
  h.near.congr hsame.entries hsame.cwd (.of_eq hsame.shared)

theorem Logged.read_done_iff (h : Logged s d K log Q w) (hsame : SameTree w.disk d') :
    Progress.read d' s.progressFile = .ok .done ↔
      endsInSlash s.progressFile = false ∧ ∃ l, LeadsTo d s.progressFile l ∧ Done (w.disk.get? l) := by
  have hn := h.near_again hsame
  rw [Prune.read_done_iff hn.tree (hn.linkFree hk.linkFree)]
  refine and_congr_right fun _ => exists_congr fun l => ?_
  rw [hsame.get?]
  exact and_congr_left fun _ => ⟨.alike hn.alike.symm, .alike hn.alike⟩

theorem Logged.read_done_of_unmoved (h : Logged s d K log (Unmoved s d) w) (hsame : SameTree w.disk d') :
    Progress.read d' s.progressFile = .ok .done ↔ Progress.read d s.progressFile = .ok .done := by
  rw [h.read_done_iff hk hsame, Prune.read_done_iff hk.tree hk.linkFree]
  refine and_congr_right fun _ => exists_congr fun l => and_congr_right fun hl => ?_
  rw [h.tells l hl l hl]

/-- The files that a run from `w` works on: the one that the progress names and those that it finds. -/
def Works (s : Settings) (o : Oracle) (w : World) (q : Path) : Prop :=
  marked? w.disk s = some q ∨ ∃ marker files w₁ w₂, Sweep.Finds s o w marker files w₁ w₂ ∧ q ∈ files

section
variable (ho : o.Aside) (htemp : ∀ q, isTemporary q = true → Elsewhere s d q) (htrial : Elsewhere s d s.trialProject)
  (htaken : ∀ q, Works s o w q → Elsewhere s d q ∧ Elsewhere s d (backup q))
include ho htemp htrial htaken

theorem told_sweepFrom (hund : ∀ l, LeadsTo d s.progressFile l → Underway s (d.get? l)) {marker : Option Path}
    (hb : Sweep.Begins s w marker w') (h : Logged s d K log (Unmoved s d) w') :
    Told s d K log (Run.on (Sweep.sweepFrom s o marker) w') := by
  have hsteps : Lasting o (Logged s d K log (Unmoved s d)) _ := Logged.lasting hk ho
  have hunder {w : World} (h : Logged s d K log (Unmoved s d) w) : Logged s d K log (Underway s) w :=
    h.mono fun l hl e he => he l hl ▸ hund l hl
  have hundone {w : World} (h : Logged s d K log (Unmoved s d) w) : Logged s d K log (Undone s) w :=
    (hunder h).mono fun _ _ _ he => he.undone
  have hbuilt := (hsteps.checkBaseline (s := s) w' h).1
  rw [Sweep.sweepFrom, Run.on_bind]
  rcases hrun : Run.on (Sweep.checkBaseline s o) w' with ⟨_ | e | _, w₁⟩
  all_goals rw [hrun] at hbuilt
  · exact hundone hbuilt
  · cases e with
    | baselineFailed | enumeration => exact hbuilt
    | _ => exact hundone hbuilt
  have hfind := (hsteps.find htemp s.sourceRoot s.extensions w₁ hbuilt).1
  simp only [Run.on_bind, Run.on_lift]
  rcases hfound : Work.on (Sources.find s.sourceRoot s.extensions) w₁ with ⟨_ | files, w₂⟩
  all_goals rw [hfound] at hfind
  · exact hfind
  have hlisted : Sources.listed w₁.disk s.sourceRoot s.extensions = .ok files := by
    rw [← Sources.on_find_fst, hfound]
  have hlisting := (Sources.listing_of_listed hbuilt.near.tree hlisted).1
  refine (Logged.copy hk s.project).lift.onward (o := o) (fun _ => hundone) (fun r _ w₃ h₃ => ?_) hfind
  cases r with
  | error f => exact hundone h₃
  | ok _ =>
    exact told_sweepFiles hk ho marker (fun p hp => ⟨dot_mem_of_isListed ((hlisting.mem_iff p).1 hp).1,
      htaken p (.inr ⟨marker, files, w₁, w₂, ⟨⟨w', hb, hrun⟩, hfound⟩, hp⟩)⟩) htrial (hunder h₃)

theorem told_run (h : Logged s d K log (Unmoved s d) w) (hnot : Progress.read d s.progressFile ≠ .ok .done) :
    Told s d K log (Run.on (Sweep.run s o) w) := by
  have hundone {w : World} (h : Logged s d K log (Unmoved s d) w) : Logged s d K log (Undone s) w :=
    h.mono fun l hl e he hs hdone => hnot ((read_done_iff hk.tree hk.linkFree).2 ⟨hs, l, hl, he l hl ▸ hdone⟩)
  have hund {x : Resume} (hread : Progress.read w.disk s.progressFile = .ok x) (hx : x ≠ .done) (l : Location)
      (hl : LeadsTo d s.progressFile l) : Underway s (d.get? l) := by
    rw [← h.tells l hl l hl]
    exact underway_of_read hread hx (hl.alike h.near.alike)
  rw [Sweep.run, Run.on_bind, Run.on_lift, Work.on_disk]
  dsimp only
  cases hread : Progress.read w.disk s.progressFile with
  | error e => exact hundone h
  | ok position =>
    cases position with
    | done => exact absurd ((h.read_done_of_unmoved hk ⟨rfl, rfl, rfl⟩).1 hread) hnot
    | fresh => exact told_sweepFrom hk ho htemp htrial htaken (hund hread (by simp)) (.fresh hread) h
    | inProgress m =>
      obtain ⟨hlive, hcopy⟩ := htaken m (.inl (by simp [marked?, hread]))
      have hrec := ((Logged.lasting hk ho).recover hlive hcopy w h).1
      simp only [Run.on_bind, Run.on_lift]
      rcases hrun : Work.on (Sweep.recover m) w with ⟨e | _, w'⟩
      all_goals rw [hrun] at hrec
      · cases e with
        | baselineFailed | enumeration => exact hrec
        | _ => exact hundone hrec
      · exact told_sweepFrom hk ho htemp htrial htaken (hund hread (by simp)) (.marked hread hrun) hrec

end

end

end Prune
