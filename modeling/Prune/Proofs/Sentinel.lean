import Prune.CommandLine.Execute
import Prune.Proofs.OpenLog

/-!
# The sentinel and the exit of the program

The exit of a call and the progress that it leaves agree: the progress says that all is done if and only if the sweep
came to its end, and then the next call does nothing (`sentinel_agrees_with_exit`).
-/

namespace Prune

open Disk Artefact Workshop

variable {d d' : Disk} {p : Path} {l k : Location} {K : Location → Prop} {s : Settings} {o : Oracle} {w w' : World}
  {log : LogFile} {Q : Option Entry → Prop}

namespace CommandLine

variable {stamp : String} {h : Host} {L : Location}

/-- The world in which the sweep of a call begins, if its log can be opened. -/
def begun (s : Settings) (stamp : String) (h : Host) : Option World :=
  match openLog s stamp h.disk with
  | .ok (disk, log) => some (Work.on (announce s) { World.start { h with disk } with log := some log }).2
  | .error _ => none

/-- How a call ends whose sweep came to this. -/
def exitOf : Except Interrupted (Except Sweep.Problem Sweep.Outcome) → Option Exit
  | .error _ => none
  | .ok (.error problem) => some (Failure.sweep problem).exit
  | .ok (.ok .alreadyComplete) => some .alreadyComplete
  | .ok (.ok (.completed _)) => some .completed

/-- A call ends before it has opened its log, or as its sweep does. -/
theorem execute_cases (s : Settings) (o : Oracle) (stamp : String) (h : Host) :
    let r := execute s o stamp h
    (s.flaw? ≠ none ∧ r.exit = some .usage ∨ begun s stamp h = none ∧ r.exit = some .failure) ∧ r.host = h ∨
    s.flaw? = none ∧ ∃ w, begun s stamp h = some w ∧
      let run := Run.on (Sweep.run s o) w
      r.exit = exitOf run.1 ∧ r.builds = run.2.builds ∧ SameTree run.2.disk r.host.disk := by
  simp only [execute, begun]
  cases hf : s.flaw? with
  | some flaw => exact .inl ⟨.inl ⟨by simp, rfl⟩, rfl⟩
  | none =>
    cases ho : openLog s stamp h.disk with
    | error f =>
      refine .inl ⟨.inr ⟨rfl, ?_⟩, rfl⟩
      simp only [openLog] at ho
      split at ho
      · cases ho
        rfl
      · split at ho
        · cases ho
          rfl
        · split at ho <;> cases ho
    | ok x =>
      obtain ⟨disk, log⟩ := x
      refine .inr ⟨rfl, _, rfl, ?_⟩
      have hclose (h : Host) : SameTree h.disk (log.close h).disk := by
        unfold LogFile.close
        split <;> exact ⟨rfl, rfl, rfl⟩
      have hrun : (sweep s o).run.run { World.start { h with disk } with log := some log } = Run.on (Sweep.run s o)
          (Work.on (announce s) { World.start { h with disk } with log := some log }).2 := rfl
      simp only [hrun]
      rcases Run.on (Sweep.run s o) (Work.on (announce s) { World.start { h with disk } with log := some log }).2 with
        ⟨_ | _ | _ | _, w⟩
      all_goals exact ⟨rfl, rfl, hclose _⟩

theorem openLog_ok {disk : Disk} (h : openLog s stamp d = .ok (disk, log)) :
    (∃ filter, Log.Filter.read s.logFilter = .ok filter) ∧
    ∃ o, d.openFile s.logFile plainMode = .ok o ∧ (o.device = true ∧ disk = d ∧ log.file = none ∨
      o.device = false ∧ ∃ number, log.file = some number ∧ o.disk.hold o.location = (number, disk)) := by
  simp only [openLog] at h
  split at h
  · cases h
  next filter hfilter =>
  split at h
  · cases h
  next o ho =>
  refine ⟨⟨filter, hfilter⟩, o, ho, ?_⟩
  split at h
  · next hdev =>
    cases h
    exact .inl ⟨hdev, rfl, rfl⟩
  · next hdev =>
    cases h
    exact .inr ⟨by simpa using hdev, _, rfl, rfl⟩

/-- The paths lead to different files, under whatever names. -/
def Distinct (d : Disk) (ps : List Path) : Prop :=
  ps.Pairwise fun p q => ∀ l k, LeadsTo d p l → LeadsTo d q k → k ∉ d.twins l

/-- A disk on which a call keeps its log apart from the rest. -/
structure Tidy (s : Settings) (d : Disk) : Prop where
  tree : Tree d
  linkFree : LinkFree d
  sited : Sited d
  names : (d.shared.map (·.1)).Nodup
  numbers : (d.held.map (·.number)).Nodup
  writes : ∀ l, LeadsTo d s.logFile l → Writes (d.get? l) → ∀ k ∈ d.twins l, Writes (d.get? k)
  apart : Distinct d [s.logFile, s.progressFile, s.trialProject]

theorem Tidy.desk (hc : Tidy s d) (hl : LeadsTo d s.logFile L) (hL : Site d L) : Desk s d (· ∈ d.twins L) := by
  have hapart := hc.apart
  simp only [Distinct, List.pairwise_cons, List.mem_cons, List.not_mem_nil, or_false, forall_eq_or_imp, forall_eq] at hapart
  obtain ⟨hlog, hprogress, -⟩ := hapart
  refine ⟨hc.tree, hc.linkFree, hc.sited, fun k hk => ⟨hc.sited L hL k hk, fun j hj => ?_⟩, fun l hl' => ?_,
    fun l hl' => hlog.1 L l hl hl', fun l hl' k hk => ⟨fun hkL => ?_, fun hk' => ?_⟩⟩
  · rwa [twins_eq_of_mem hc.names hk] at hj
  · rw [hl.unique hl']
    exact self_mem_twins d L
  · refine hlog.2 L l hl hl' ?_
    rw [← twins_eq_of_mem hc.names hkL, twins_eq_of_mem hc.names hk]
    exact self_mem_twins d l
  · refine hprogress k l hk' hl' ?_
    rw [twins_eq_of_mem hc.names hk]
    exact self_mem_twins d l

/-- When the log has been opened, it is all that has changed, and what was opened can be opened again. -/
theorem logged_opened (hc : Tidy s d) (hl : LeadsTo d s.logFile L) {op : Opened} (hop : WasOpened d plainMode L op)
    {disk : Disk} (hdisk : op.device = true ∧ disk = d ∧ log.file = none ∨
      op.device = false ∧ ∃ number, log.file = some number ∧ op.disk.hold op.location = (number, disk)) (h : Host) :
    Near d (fun l _ => l ∈ d.twins L) disk ∧ Logged s d (· ∈ d.twins L) log (Unmoved s d)
      { World.start { h with disk } with log := some log } := by
  have hopen : Near d (fun l _ => l ∈ d.twins L) op.disk :=
    ((Near.refl hc.tree).opened hc.sited hop fun k hk _ _ => hk).1
  obtain ⟨hloggable, hwrites, hwrote, hother⟩ := writes_opened hop
  -- The disk that was opened and the one on which the log is held have the same entries and names.
  have hsame : disk.entries = op.disk.entries ∧ disk.cwd = op.disk.cwd ∧ disk.shared = op.disk.shared := by
    rcases hdisk with ⟨hdev, rfl, -⟩ | ⟨-, number, -, hhold⟩
    · cases hop with
      | made | file => cases hdev
      | device => exact ⟨rfl, rfl, rfl⟩
    · simp only [hold] at hhold
      split at hhold <;> cases hhold <;> exact ⟨rfl, rfl, rfl⟩
  have hg (l : Location) : disk.get? l = op.disk.get? l := by simp [get?, hsame.1]
  have hn := hopen.congr hsame.1 hsame.2.1 (.of_eq hsame.2.2)
  have hdesk := hc.desk hl (hop.site hc.tree)
  refine ⟨hn, rfl, hn.mono fun _ _ _ => trivial, fun number hfile k hk => ?_, fun l hl' => ?_, fun k hk => ?_,
    fun l hl' l' hl'' => ?_⟩
  · rcases hdisk with ⟨-, -, hnone⟩ | ⟨-, number', hfile', hhold⟩
    · cases hfile.symm.trans hnone
    · cases hfile.symm.trans hfile'
      have hop' : op.location = L ∧ op.disk.held = d.held := by cases hop <;> exact ⟨rfl, rfl⟩
      exact hop'.1 ▸ hopen.sharing.twins (place?_hold (hop'.2 ▸ hc.numbers) hhold hk)
  · rw [hl.unique hl']
    exact (hg L).symm ▸ hloggable
  · refine (hg k).symm ▸ ?_
    by_cases hkL : k = L
    · rwa [hkL]
    · rw [hother k hkL]
      exact hc.writes L hl hwrote k hk
  · rw [hl''.unique hl']
    exact (hn.frame l').resolve_right (hdesk.progress l' hl'')

/-- The log is open when a sweep begins, and so far it is all that has changed. -/
theorem logged_begun (hc : Tidy s h.disk) (hw : begun s stamp h = some w) :
    ∃ L log, LeadsTo h.disk s.logFile L ∧ endsInSlash s.logFile = false ∧ Desk s h.disk (· ∈ h.disk.twins L) ∧
      Logged s h.disk (· ∈ h.disk.twins L) log (Unmoved s h.disk) w ∧
      Near h.disk (fun l _ => l ∈ h.disk.twins L) w.disk ∧ w.builds = [] ∧ w.visits = [] ∧
      ∃ filter, Log.Filter.read s.logFilter = .ok filter := by
  simp only [begun] at hw
  split at hw
  · next disk log hopen =>
    cases hw
    obtain ⟨hfilter, op, hopen, hdisk⟩ := openLog_ok hopen
    obtain ⟨place, hr, hop⟩ := openFile_cases hc.tree hopen
    obtain ⟨hs, dir, n, hl, hloc⟩ := (hc.linkFree.noLink _).location_of_resolve hc.tree hr hop.bone
    have hl : LeadsTo h.disk s.logFile place.location := ⟨dir, n, hl, hloc⟩
    have hk := hc.desk hl (hop.site hc.tree)
    obtain ⟨hn, hlogged⟩ := logged_opened hc hl hop hdisk h
    exact ⟨_, log, hl, hs, hk, hlogged.emit hk _, hn.trans ((hlogged.near_emit hk _).1.mono fun l e he => he.1), rfl,
      World.visits_emit .., hfilter⟩
  · cases hw

/-- The log of a call has the location `l` as one of its names. -/
def IsLog (s : Settings) (d : Disk) (l : Location) : Prop := ∃ L, LeadsTo d s.logFile L ∧ l ∈ d.twins L

/-- A call that finds all done says so, and has written to its log only. -/
theorem execute_of_done (hc : Tidy s h.disk) (hf : s.flaw? = none) (hw : begun s stamp h = some w)
    (hread : Progress.read h.disk s.progressFile = .ok .done) (o : Oracle) :
    let r := execute s o stamp h
    r.exit = some .alreadyComplete ∧ r.builds = [] ∧ h.disk.SameBut (IsLog s h.disk) r.host.disk := by
  obtain ⟨L, log, hl, -, hk, hlogged, hn, hbuilds, -, -⟩ := logged_begun hc hw
  obtain ⟨e, hrun⟩ : ∃ e, Run.on (Sweep.run s o) w = (.ok (.ok .alreadyComplete), w.emit e) := by
    rw [Sweep.run, Run.on_bind, Run.on_lift, Work.on_disk]
    dsimp only
    rw [(hlogged.read_done_of_unmoved hk ⟨rfl, rfl, rfl⟩).2 hread]
    exact ⟨_, rfl⟩
  rcases execute_cases s o stamp h with ⟨⟨hno, -⟩ | ⟨hno, -⟩, -⟩ | ⟨-, w', hw', he, hb, hsame⟩
  · exact absurd hf hno
  · cases hw.symm.trans hno
  · cases hw.symm.trans hw'
    rw [hrun] at he hb hsame
    have hn' := hn.trans ((hlogged.near_emit hk e).1.mono fun l e he => he.1)
    refine ⟨he, hb.trans ((w.builds_emit e).trans hbuilds), hsame.cwd.trans hn'.alike.cwd, fun l hl' => ?_⟩
    rw [hsame.get?]
    exact (hn'.frame l).resolve_right fun hmem => hl' ⟨L, hl, hmem⟩

/-- Where a call came to the end of its sweep, the next one can begin. -/
theorem begun_again (hk : Desk s d K) (h : Logged s d K log Q w) {h' : Host} (hl : LeadsTo d s.logFile L)
    (hs : endsInSlash s.logFile = false) (hfilter : ∃ filter, Log.Filter.read s.logFilter = .ok filter)
    (hsame : SameTree w.disk h'.disk) (stamp : String) : ∃ w', begun s stamp h' = some w' := by
  have hn := h.near_again hsame
  have hg := hsame.get? L
  obtain ⟨filter, hfilter⟩ := hfilter
  obtain ⟨op, hopen⟩ := openFile_of_loggable (hn.linkFree hk.linkFree) (hl.alike hn.alike) hs (hg ▸ h.stays L hl)
    (hg ▸ h.writes L (hk.logFile L hl)) plainMode
  simp only [begun, openLog, hfilter, hopen]
  cases op.device <;> exact ⟨_, rfl⟩

theorem tidy_again (hc : Tidy s d) (hk : Desk s d K) (h : Logged s d K log Q w) (hsame : SameTree w.disk d')
    (hnum : (d'.held.map (·.number)).Nodup) : Tidy s d' := by
  have hn := h.near_again hsame
  refine ⟨hn.tree, hn.linkFree hk.linkFree, fun l hl k hk' => ?_, ?_, hnum, fun l hl _ k hk' => ?_, ?_⟩
  · exact (hk.sited l (hl.alike hn.alike.symm) k (hn.sharing.twins hk')).alike hn.alike
  · obtain ⟨f, hf⟩ := hn.sharing
    rw [hf]
    exact hc.names.sublist (List.filter_sublist.map _)
  · rw [hsame.get?]
    have hKl := hk.logFile l (hl.alike hn.alike.symm)
    exact h.writes k ((hk.log l hKl).2 k (hn.sharing.twins hk'))
  · exact hc.apart.imp fun hpq l k hl hk' hmem =>
      hpq l k (hl.alike hn.alike.symm) (hk'.alike hn.alike.symm) (hn.sharing.twins hmem)

/-- The files that a call keeps for itself are different ones, and no others that it works on. -/
structure Separate (s : Settings) (d : Disk) (taken : Path → Prop) : Prop where
  apart : Distinct d [s.logFile, s.progressFile, s.trialProject]
  own : ∀ p ∈ [s.logFile, s.progressFile, s.trialProject], isTemporary p = false ∧
    ∀ q, taken q → ∀ l, LeadsTo d p l → ¬ Touches d q l

theorem tidy_of_consistent (hc : Consistent d) (hd : Tree d) (hn : LinkFree d)
    (ha : Distinct d [s.logFile, s.progressFile, s.trialProject]) : Tidy s d :=
  ⟨hd, hn, hc.tied.sited hd, hc.names, hc.numbers, fun _ _ hw _ hk => (hc.get?_twin hk).symm ▸ hw, ha⟩

section
variable {taken : Path → Prop} {q : Path} (hs : Separate s d taken)
include hs

omit hs in
theorem elsewhere_of (h : ∀ p ∈ [s.logFile, s.progressFile, s.trialProject], ∀ l, LeadsTo d p l → ¬ LeadsTo d q l) :
    Elsewhere s d q := fun l hl => ⟨fun hp => h _ (by simp) l hp hl, fun hp => h _ (by simp) l hp hl⟩

theorem Separate.of_temporary (hq : isTemporary q = true) : Elsewhere s d q := elsewhere_of fun p hp l hl hl' => by
  obtain ⟨dir, n, hl, rfl⟩ := hl
  obtain ⟨dir', n', hl', heq⟩ := hl'
  obtain ⟨-, rfl⟩ : dir = dir' ∧ n = n' := by simpa using heq
  have hno := (hs.own p hp).1
  rw [(isTemporary_iff hl.fileName?).2 ((isTemporary_iff hl'.fileName?).1 hq)] at hno
  cases hno

theorem Separate.of_trialProject : Elsewhere s d s.trialProject := by
  have hapart := hs.apart
  simp only [Distinct, List.pairwise_cons, List.mem_cons, List.not_mem_nil, or_false, forall_eq_or_imp, forall_eq] at hapart
  exact fun l hl =>
    ⟨fun hp => hapart.2.1 l l hp hl (self_mem_twins d l), fun hp => hapart.1.2 l l hp hl (self_mem_twins d l)⟩

theorem Separate.of_taken (hq : taken q) : Elsewhere s d q ∧ Elsewhere s d (backup q) :=
  ⟨elsewhere_of fun p hp l hl ⟨dir, n, hl', heq⟩ => (hs.own p hp).2 q hq l hl ⟨q, dir, n, .inl rfl, hl', heq⟩,
    elsewhere_of fun p hp l hl ⟨dir, n, hl', heq⟩ => (hs.own p hp).2 q hq l hl ⟨_, dir, n, .inr rfl, hl', heq⟩⟩

end

theorem exitOf_ne_usage (x : Except Interrupted (Except Sweep.Problem Sweep.Outcome)) : exitOf x ≠ some .usage := by
  rcases x with _ | e | _ | summary
  case ok.error => cases e <;> simp [exitOf, Failure.exit]
  all_goals simp [exitOf]

theorem completed_of_exitOf {x : Except Interrupted (Except Sweep.Problem Sweep.Outcome)}
    (h : exitOf x = some .completed) : ∃ summary, x = .ok (.ok (.completed summary)) := by
  rcases x with _ | e | _ | summary
  case ok.error => cases e <;> simp [exitOf, Failure.exit] at h
  case ok.ok.completed => exact ⟨summary, rfl⟩
  all_goals simp [exitOf] at h

/-- What the end of a sweep says about the progress, by the exit of the call. -/
theorem agrees_of_told (hk : Desk s d K) {run : Except Interrupted (Except Sweep.Problem Sweep.Outcome) × World}
    (ht : Told s d K log run) (hnot : Progress.read d s.progressFile ≠ .ok .done) (hsame : SameTree run.2.disk d') :
    exitOf run.1 ≠ some .alreadyComplete ∧
    (exitOf run.1 = some .baselineFailed ∨ exitOf run.1 = some .enumeration →
      ∀ l, LeadsTo d s.progressFile l → d'.get? l = d.get? l) ∧
    (Progress.read d' s.progressFile = .ok .done ↔ exitOf run.1 = some .completed) ∧
    (exitOf run.1 = some .completed → Logged s d K log Done run.2) := by
  obtain ⟨x, w⟩ := run
  have hundone (h : Logged s d K log (Undone s) w) : Progress.read d' s.progressFile ≠ .ok .done := fun hread =>
    let ⟨hs, l, hl, hdone⟩ := (h.read_done_iff hk hsame).1 hread
    h.tells l hl hs hdone
  have hunmoved (h : Logged s d K log (Unmoved s d) w) :
      (∀ l, LeadsTo d s.progressFile l → d'.get? l = d.get? l) ∧ Progress.read d' s.progressFile ≠ .ok .done :=
    ⟨fun l hl => (hsame.get? l).trans (h.tells l hl l hl), fun hread => hnot ((h.read_done_of_unmoved hk hsame).1 hread)⟩
  rcases x with _ | e | _ | summary
  · simp [exitOf, hundone ht]
  · cases e with
    | baselineFailed | enumeration => simpa [exitOf, Failure.exit] using hunmoved ht
    | _ => simp [exitOf, Failure.exit, hundone ht]
  · exact ht.elim
  · obtain ⟨hs, ⟨l, hl⟩, h⟩ := ht
    simpa [exitOf, h] using (h.read_done_iff hk hsame).2 ⟨hs, l, hl, h.tells l hl⟩

/-- The exit of a call and the progress that it leaves agree on whether the sweep came to its end. -/
theorem sentinel_agrees_with_exit (hd : Tree h.disk) (hn : LinkFree h.disk) (hc : Consistent h.disk) (ho : o.Aside)
    (hs : ∀ w ∈ begun s stamp h, Separate s h.disk (Works s o w)) :
    let r := execute s o stamp h
    let isDone (d : Disk) := Progress.read d s.progressFile = .ok .done
    (r.exit = some .usage → r.host = h) ∧
    (r.exit = some .alreadyComplete → r.builds = [] ∧ h.disk.SameBut (IsLog s h.disk) r.host.disk) ∧
    (r.exit = some .baselineFailed ∨ r.exit = some .enumeration →
      ∀ l, LeadsTo h.disk s.progressFile l → r.host.disk.get? l = h.disk.get? l) ∧
    (¬ isDone h.disk → (isDone r.host.disk ↔ r.exit = some .completed) ∧
      (r.exit = some .completed →
        (∃ w ∈ begun s stamp h, ∃ files w₁ w₂, Sweep.Finds s o w (marked? w.disk s) files w₁ w₂ ∧
          (Run.on (Sweep.run s o) w).2.visits =
            (Sweep.remaining files (Sweep.resumeIndex files (marked? w.disk s))).map (Sweep.visit files.length)) ∧
        ∀ (o' : Oracle) (stamp' : String) (h' : Host), SameTree r.host.disk h'.disk →
          (h'.disk.held.map (·.number)).Nodup →
          let r' := execute s o' stamp' h'
          r'.exit = some .alreadyComplete ∧ r'.builds = [] ∧ h'.disk.SameBut (IsLog s h'.disk) r'.host.disk)) := by
  have hcases := execute_cases s o stamp h
  generalize hr : execute s o stamp h = result at hcases ⊢
  intro r isDone
  rcases hcases with ⟨⟨-, he⟩ | ⟨-, he⟩, hhost⟩ | ⟨hf, w, hw, he, hb, hsame⟩
  · simp [r, he, hhost]
  · simp [r, he, hhost]
  have hsep := hs w hw
  have htidy := tidy_of_consistent hc hd hn hsep.apart
  obtain ⟨L, log, hl, hslash, hk, hlogged, -, -, hvisits, hfilter⟩ := logged_begun htidy hw
  have husage : r.exit ≠ some .usage := he ▸ exitOf_ne_usage _
  by_cases hdone : isDone h.disk
  · obtain ⟨hx, hrest⟩ := hr ▸ execute_of_done htidy hf hw hdone o
    refine ⟨fun hx' => absurd hx' husage, fun _ => hrest, ?_, fun hnot => absurd hdone hnot⟩
    rintro (hx' | hx') <;> cases hx.symm.trans hx'
  have htold := told_run hk ho (fun q => hsep.of_temporary) hsep.of_trialProject (fun q => hsep.of_taken) hlogged hdone
  obtain ⟨hno, hkept, hread, hcomplete⟩ := agrees_of_told hk htold hdone hsame
  rw [← he] at hno hkept hread hcomplete
  refine ⟨fun hx => absurd hx husage, fun hx => absurd hx hno, hkept, fun _ => ⟨hread, fun hx => ⟨⟨w, hw, ?_⟩, ?_⟩⟩⟩
  · obtain ⟨summary, hsummary⟩ := completed_of_exitOf (he.symm.trans hx)
    obtain ⟨-, hnever⟩ | ⟨files, w₁, w₂, hfinds, taken, -, htaken, hall⟩ := visitedBy_run s o w
    · exact absurd hsummary (hnever summary)
    · rw [(hall _ hsummary).1, hvisits] at htaken
      exact ⟨files, w₁, w₂, hfinds, htaken⟩
  · intro o' stamp' h' hsame' hnum
    have hfinal := hcomplete hx
    have hthen := hsame.trans hsame'
    obtain ⟨w', hw'⟩ := begun_again hk hfinal hl hslash hfilter hthen stamp'
    have hstill := (hfinal.read_done_iff hk hthen).2 ((hfinal.read_done_iff hk hsame).1 (hread.2 hx))
    exact execute_of_done (tidy_again htidy hk hfinal hthen hnum) hf hw' hstill o'

theorem separate_of_entries {taken : Path → Prop} {files : List Path} (hshared : d.shared = [])
    (hapart : [s.logFile, s.progressFile, s.trialProject].Pairwise fun p q => d.locate p ≠ d.locate q)
    (hown : ∀ p ∈ [s.logFile, s.progressFile, s.trialProject], isTemporary p = false ∧
      ∀ q ∈ files ++ files.map backup, d.locate p ≠ d.locate q)
    (ht : ∀ q, taken q → q ∈ files) : Separate s d taken := by
  have hsame {p q : Path} {l : Location} (hp : LeadsTo d p l) (hq : LeadsTo d q l) : d.locate p = d.locate q := by
    obtain ⟨dir, n, hl, rfl⟩ := hp
    obtain ⟨dir', n', hl', heq⟩ := hq
    obtain ⟨rfl, rfl⟩ := concat_inj heq
    rw [hl.locate, hl'.locate]
  refine ⟨hapart.imp fun hpq l k hl hk hmem => ?_, fun p hp => ⟨(hown p hp).1, fun q hq l hl htouch => ?_⟩⟩
  · obtain rfl : k = l := by simpa [twins, hshared] using hmem
    exact hpq (hsame hl hk)
  · obtain ⟨q', dir, n, hq', hl', rfl⟩ := htouch
    refine (hown p hp).2 q' ?_ (hsame hl ⟨dir, n, hl', rfl⟩)
    rcases hq' with rfl | rfl
    · exact List.mem_append_left _ (ht _ hq)
    · exact List.mem_append_right _ (List.mem_map_of_mem (ht q hq))

/-- A sweep of the workshop completes, the progress says so, and the next call does nothing. -/
theorem sentinel_agrees_with_exit_workshop :
    let s := { settings with logFilter := "warn" }
    let r := execute s (.looking builds) "" (.ofDisk (workshop 0o644))
    r.exit = some .completed ∧ Progress.read r.host.disk s.progressFile = .ok .done ∧
      (execute s (.looking builds) "" r.host).exit = some .alreadyComplete := by
  intro s
  generalize hr : execute s (.looking builds) "" (.ofDisk (workshop 0o644)) = r
  have hd : Tree (workshop 0o644) := tree_of_entries (by decide +kernel)
  have hn : LinkFree (workshop 0o644) := linkFree_of_entries (by decide +kernel)
  have hc : Consistent (workshop 0o644) :=
    ⟨by decide, by decide, fun x hx => absurd hx List.not_mem_nil, fun x hx => absurd hx List.not_mem_nil⟩
  have ho : (Oracle.looking builds).Aside :=
    ⟨Oracle.readOnly_looking _, fun _ _ _ => rfl⟩
  have hbegun : (begun s "" (.ofDisk (workshop 0o644))).all fun w => Progress.read w.disk s.progressFile = .ok .fresh ∧
      (Work.on (Sources.find s.sourceRoot s.extensions)
        (Run.on (Sweep.checkBaseline s (.looking builds)) w).2).1 = .ok [first, second] := by decide +kernel
  have htaken (w : World) (hw : begun s "" (.ofDisk (workshop 0o644)) = some w) (q : Path)
      (hq : Works s (.looking builds) w q) : q ∈ [first, second] := by
    rw [hw] at hbegun
    obtain ⟨hfresh, hfind⟩ := of_decide_eq_true hbegun
    rcases hq with hq | ⟨marker, files, w₁, w₂, ⟨⟨w', hb, hrun⟩, hfound⟩, hq⟩
    · simp [marked?, hfresh] at hq
    · cases hb with
      | fresh =>
        rw [hrun, hfound] at hfind
        cases hfind
        exact hq
      | marked hread => cases hfresh.symm.trans hread
  have hexit : r.exit = some .completed ∧ r.host.disk.held = [] := by
    rw [← hr]
    decide +kernel
  obtain ⟨-, -, -, hend⟩ := sentinel_agrees_with_exit hd hn hc ho fun w hw =>
    separate_of_entries rfl (by decide +kernel) (by decide +kernel) (htaken w hw)
  rw [hr] at hend
  obtain ⟨hiff, hthen⟩ := hend (by decide +kernel)
  have hnext := (hthen hexit.1).2 (.looking builds) "" r.host ⟨rfl, rfl, rfl⟩ (by simp [hexit.2])
  exact ⟨hexit.1, hiff.2 hexit.1, hnext.1⟩

end CommandLine

end Prune
