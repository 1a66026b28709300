import Prune.Proofs.Frame

/-!
# Runs that do not get to a source

A run can end before its first source: because all is done, because the progress cannot be read or the marked file
not be recovered, because the project does not build, the sources cannot be listed or the trial project not be
made. It then leaves the position where it was, and of the tree it changes no more than recovery does, temporaries
apart (`startup_failure_harmless`). What it leaves is recovered already, so the next run begins from the same tree.
-/

namespace Prune

open Disk Artefact Workshop

variable {d d' : Disk} {p m : Path} {dir l : Location} {n : Bytes} {v : View} {o : Oracle} {h : Host}
  {ds es back : List Deed} {w w' : World} {s : Settings} {marker : Option Path}
  {result : Except Sweep.Problem Sweep.Outcome}

/-- The end of a run that made no build. -/
inductive Unbuilt : Except Sweep.Problem Sweep.Outcome → Prop
  | complete : Unbuilt (.ok .alreadyComplete)
  | unread (p : Path) (f : Fault) : Unbuilt (.error (.progress (.read p f)))
  | unrecovered (p : Path) (e : Backup.Problem) : Unbuilt (.error (.recovery p e))

/-- The end of a run that had the project built and took no source. -/
inductive Untaken : Except Sweep.Problem Sweep.Outcome → Prop
  | unfit (p : Path) : Untaken (.error (.baselineFailed p))
  | unlisted (p : Path) (e : Sources.Problem) : Untaken (.error (.enumeration p e))
  | uncopied (p : Path) (f : Fault) : Untaken (.error (.trialProject p f))

/-- The end of a run that came to its sources: all were taken, or the position could not be kept. -/
inductive Entered : Except Sweep.Problem Sweep.Outcome → Prop
  | completed (summary : Sweep.Summary) : Entered (.ok (.completed summary))
  | unkept (p : Path) (f : Fault) : Entered (.error (.progress (.write p f)))

/-! ### Behind the trial project -/

theorem Run.of_on_bind {α β : Type} {x : Run α} {f : α → Run β} {b : β} (h : Run.on (x >>= f) w = (.ok b, w')) :
    ∃ a w₁, Run.on x w = (.ok a, w₁) ∧ Run.on (f a) w₁ = (.ok b, w') := by
  rw [Run.on_bind] at h
  rcases hx : Run.on x w with ⟨_ | a, w₁⟩ <;> rw [hx] at h
  · cases h
  · exact ⟨a, w₁, rfl, h⟩

theorem save_fault {path : Path} {position : Resume} {e : Progress.Problem}
    (h : (Work.on (Progress.save path position) w).1 = .error e) : ∃ f, e = .write path f := by
  simp only [Progress.save, Work.on_bind] at h
  split at h
  · next f _ => exact ⟨f, by simpa [eq_comm] using h⟩
  · cases h

theorem processFiles_fault {total position : Nat} {files : List Path} {summary : Sweep.Summary} {e : Sweep.Problem}
    (h : Run.on (Sweep.processFiles s o total position files summary) w = (.ok (.error e), w')) :
    ∃ f, e = .progress (.write s.progressFile f) := by
  induction files generalizing position summary w with
  | nil => cases h
  | cons file files ih =>
    simp only [Sweep.processFiles] at h
    obtain ⟨-, w₁, -, h⟩ := Run.of_on_bind h
    obtain ⟨saved, w₂, hsave, h⟩ := Run.of_on_bind h
    cases saved with
    | error e' =>
      obtain ⟨f, rfl⟩ := save_fault (by simpa using congrArg Prod.fst hsave)
      exact ⟨f, by simpa [eq_comm] using congrArg Prod.fst h⟩
    | ok u =>
      obtain ⟨fate, w₃, -, h⟩ := Run.of_on_bind h
      obtain ⟨saved, w₄, hsave, h⟩ := Run.of_on_bind h
      cases saved with
      | error e' =>
        obtain ⟨f, rfl⟩ := save_fault (by simpa using congrArg Prod.fst hsave)
        exact ⟨f, by simpa [eq_comm] using congrArg Prod.fst h⟩
      | ok u => exact ih h

theorem sweepFiles_entered {files : List Path} (h : Run.on (Sweep.sweepFiles s o files marker) w = (.ok result, w')) :
    Entered result := by
  simp only [Sweep.sweepFiles] at h
  obtain ⟨-, w₁, -, h⟩ := Run.of_on_bind h
  obtain ⟨taken, w₂, htaken, h⟩ := Run.of_on_bind h
  cases taken with
  | error e =>
    obtain ⟨f, rfl⟩ := processFiles_fault htaken
    cases h
    exact .unkept _ f
  | ok summary =>
    obtain ⟨saved, w₃, hsave, h⟩ := Run.of_on_bind h
    cases saved with
    | error e =>
      obtain ⟨f, rfl⟩ := save_fault (by simpa using congrArg Prod.fst hsave)
      cases h
      exact .unkept _ f
    | ok u =>
      obtain ⟨-, w₄, -, h⟩ := Run.of_on_bind h
      obtain ⟨-, w₅, -, h⟩ := Run.of_on_bind h
      cases h
      exact .completed summary

/-! ### Before the first source -/

theorem sweepFrom_untaken (ro : o.ReadOnly) (hd : Tree h.disk) (t : Trail o h ds w)
    (hrun : Run.on (Sweep.sweepFrom s o marker) w = (.ok result, w')) :
    Entered result ∨ Untaken result ∧ ∃ b es, Clearing h.disk s.sourceRoot (after h.disk.get? ds) es ∧
      Trail o h (ds ++ .build (baselineCall s) b :: es) w' ∧ ((∃ p, result = .error (.baselineFailed p)) → es = []) := by
  obtain ⟨b, w₁, t₁, hbuild⟩ := (t.emit ⟨.info, Sweep.target, "running baseline build",
    [("project", .path s.project)]⟩).build ro (baselineCall s)
  rw [baselineCall] at hbuild
  simp only [Sweep.sweepFrom, Sweep.checkBaseline, Run.on_bind, Run.on_lift, Work.on_report, hbuild] at hrun
  rcases b with _ | _ | _
  · cases hrun
  · have hrun' : (Except.ok (Except.error (Sweep.Problem.baselineFailed s.project)), w₁.emit
        ⟨.error, Sweep.target, "baseline build failed", [("project", .path s.project)]⟩) = (.ok result, w') := hrun
    cases hrun'
    exact .inr ⟨.unfit _, some false, [], by simp [Clearing], t₁.emit _, fun _ => rfl⟩
  have hafter : after h.disk.get? (ds ++ [.build (baselineCall s) (some true)]) = after h.disk.get? ds := by
    rw [after_append]
    rfl
  obtain ⟨es, w₂, t₂, hfind, hes, -⟩ := find_deeds hd s.sourceRoot s.extensions t₁
  rw [hafter] at hes
  have t₂' : Trail o h (ds ++ .build (baselineCall s) (some true) :: es) w₂ := by simpa using t₂
  simp only [if_true, Run.on_pure] at hrun
  cases hl : Sources.listed w₁.disk s.sourceRoot s.extensions with
  | error e =>
    rw [hl] at hfind
    simp only [Run.on_bind, Run.on_lift, hfind] at hrun
    cases hrun
    exact .inr ⟨.unlisted _ e, _, es, hes, t₂', by simp⟩
  | ok fs =>
    rw [hl] at hfind
    simp only [Run.on_bind, Run.on_lift, hfind] at hrun
    cases hcopy : w₂.disk.copy s.project s.trialProject with
    | error f =>
      simp only [Work.on_copy, hcopy] at hrun
      cases hrun
      exact .inr ⟨.uncopied _ f, _, es, hes, t₂', by simp⟩
    | ok disks =>
      simp only [Work.on_copy, hcopy] at hrun
      exact .inl (sweepFiles_entered hrun)

/-! ### What is left -/

/-- What is asked of a disk on which a run starts: the progress is not named like a temporary, and the trial project
is not what is marked. -/
structure Doorstep (d : Disk) (s : Settings) : Prop extends RegularPaths d s (marked? d s).toList where
  trial : NoLink d s.trialProject
  lasting : isTemporary s.progressFile = false
  untried : ∀ m ∈ marked? d s, ∀ dir n, Leads d m dir n → ∀ dir' n', Leads d s.trialProject dir' n' →
    dir ++ [n] ≠ dir' ++ [n']

theorem Doorstep.marked (hd : Doorstep d s) : ∀ m ∈ marked? d s, Plain d m ∧ Plain d (backup m) := fun m hm =>
  ⟨hd.live m (by simpa using hm), hd.copy m (by simpa using hm)⟩

/-- What a run that had the project built and took no source leaves, having begun on `h`. -/
structure Stopped (s : Settings) (h : Host) (result : Except Sweep.Problem Sweep.Outcome) (w : World) : Prop where
  build : ∃ b, w.builds = [b] ∧ b.call = ⟨s.project, s.configuration⟩
  progress : w.disk.file? s.progressFile = h.disk.file? s.progressFile
  trial : w.disk.exists? s.trialProject = true → h.disk.exists? s.trialProject = true
  /-- The marked file has what its backup held, which is gone, and its own bits. -/
  restored : ∀ m ∈ marked? h.disk s, ∀ c, h.disk.content? (backup m) = some c →
    (recovered s h).file? m = some (((h.disk.file? m).map (·.1)).getD privateMode, c) ∧
      (recovered s h).exists? (backup m) = false
  /-- Recovery has changed nothing else. -/
  spared : ∀ l, (∀ m ∈ marked? h.disk s, h.disk.content? (backup m) ≠ none → ¬ Touches h.disk m l) →
    (recovered s h).get? l = h.disk.get? l
  /-- Nothing but recovery has changed anything, temporaries apart. -/
  left : ∀ l, w.disk.get? l = (recovered s h).get? l ∨
    (∀ p, result ≠ .error (.baselineFailed p)) ∧ Discarded h.disk s (recovered s h).get? l ∧ w.disk.get? l = none
  /-- The next run goes on at the same place, and finds nothing to recover. -/
  again : marked? w.disk s = marked? h.disk s ∧ (recovered s w.toHost).get? = w.disk.get?

theorem Recovers.restored (hm : NoLink d m) (hb : NoLink d (backup m)) (hd : Tree d)
    (hr : Recovers d d.get? m back (.ok ())) (ht : Turned d (after d.get? back) d') {c : Bytes}
    (hc : d.content? (backup m) = some c) :
    d'.file? m = some (((d.file? m).map (·.1)).getD privateMode, c) ∧ d'.exists? (backup m) = false := by
  obtain ⟨hslash, dir', n', mode', hl', hg'⟩ := (content?_eq_some_iff hd hb).1 hc
  cases hr with
  | bare h => exact absurd hg' (h dir' n' hl' hslash mode' c)
  | @done dir n mode content hw hl hg hread =>
    obtain ⟨rfl, rfl⟩ := hl.unique hl'
    obtain rfl : content = c := by simpa using hg.symm.trans hg' |> Option.some.inj |> Entry.file.inj |> And.right
    have hne := hw.leads.ne_backup hd hl
    have hlive : d'.get? (dir' ++ [n]) = some (.file (inherit (d.get? (dir' ++ [n]))) content) := by
      rw [ht.view]
      simp [Deed.apply, Function.update_of_ne hne]
    have hcopy : d'.get? (dir' ++ [markedName backupMark n]) = none := by
      rw [ht.view]
      simp [Deed.apply]
    refine ⟨?_, ?_⟩
    · rw [hw.mode_file?, file?_eq_some_iff ht.tree (hm.alike ht.alike)]
      exact ⟨hw.slash, _, _, hw.leads.alike ht.alike, hlive⟩
    · simp [exists?, (hl.alike ht.alike).stat_none hslash hcopy, Except.isOk, Except.toBool]

theorem Recovers.eq_nil {r : Except Sweep.Problem Unit} (hr : Recovers d v m back r) (ht : Turned d v d')
    (hc : d'.content? (backup m) = none) : back = [] := by
  cases hr with
  | bare | refused => rfl
  | done hw hl hg =>
    rw [← ht.view] at hg
    rw [(hl.alike ht.alike).content? (endsInSlash_backup hw.leads) hg] at hc
    cases hc

theorem marked?_congr (hd : Tree d) (hd' : Tree d') (hp : Plain d s.progressFile) (hp' : Plain d' s.progressFile)
    (h : d'.file? s.progressFile = d.file? s.progressFile) : marked? d' s = marked? d s := by
  have hnone : ∀ {d : Disk}, Tree d → Plain d s.progressFile → d.file? s.progressFile = none → marked? d s = none := by
    intro d hd hp hfile
    cases hm : marked? d s with
    | none => rfl
    | some m =>
      obtain ⟨content, hread⟩ : ∃ content, d.read s.progressFile = .ok content := by
        cases hread : d.read s.progressFile with
        | error f => cases f <;> simp [marked?, Progress.read, readText, hread, bind, Except.bind] at hm
        | ok content => exact ⟨content, rfl⟩
      obtain ⟨hs, dir, n, mode, hl, hg, -⟩ := read_inv hd hp hread
      rw [(file?_eq_some_iff hd hp.noLink).2 ⟨hs, dir, n, hl, hg⟩] at hfile
      cases hfile
  have hsome : ∀ {d : Disk} {mode c}, d.file? s.progressFile = some (mode, c) →
      d.stat s.progressFile = .ok (.file mode c) := by
    intro d mode c hfile
    simp only [file?] at hfile
    split at hfile
    · next hstat =>
      cases hfile
      exact hstat
    · cases hfile
  rcases hfile : d.file? s.progressFile with _ | ⟨mode, c⟩
  · rw [hnone hd hp hfile, hnone hd' hp' (h.trans hfile)]
  · simp only [marked?, Progress.read, readText, Disk.read, hsome hfile, hsome (h.trans hfile)]

/-- What is done at the marked path before the first build, if recovery does not fail. -/
def Readies (d : Disk) (s : Settings) (back : List Deed) : Prop :=
  match marked? d s with
  | some m => Recovers d d.get? m back (.ok ())
  | none => back = []

namespace Readies

variable (hr : Readies d s back)
include hr

theorem recovers (hm : m ∈ marked? d s) : Recovers d d.get? m back (.ok ()) := by
  rw [Readies, hm] at hr
  exact hr

theorem eq_nil_of_none (hm : marked? d s = none) : back = [] := by
  rw [Readies, hm] at hr
  exact hr

theorem unbuilt : ∀ e ∈ back, e.isBuild = false := by
  cases hm : marked? d s with
  | none => simp [hr.eq_nil_of_none hm]
  | some m => exact (hr.recovers hm).unbuilt

/-- Where there is something at a place, it was there, or it is the marked file. -/
theorem cases (l : Location) : after d.get? back l = d.get? l ∨ after d.get? back l = none ∨
    ∃ m ∈ marked? d s, ∃ dir n, Leads d m dir n ∧ l = dir ++ [n] := by
  cases hm : marked? d s with
  | none => exact .inl (by rw [hr.eq_nil_of_none hm, after_nil])
  | some m =>
    cases hr.recovers hm with
    | bare => exact .inl rfl
    | @done dir n mode content hw hl hg hread =>
      by_cases hcopy : l = dir ++ [markedName backupMark n]
      · exact .inr (.inl (by simp [hcopy, Deed.apply]))
      by_cases hlive : l = dir ++ [n]
      · exact .inr (.inr ⟨m, rfl, dir, n, hw.leads, hlive⟩)
      · exact .inl (by simp [Deed.apply, hcopy, hlive])

theorem eq_nil (hd : Tree d) (hm : m ∈ marked? d s) (hc : d.content? (backup m) = none) :
    back = [] := (hr.recovers hm).eq_nil (.refl hd) hc

/-- Nothing is done but at the marked path and its backup, and that only with a backup. -/
theorem spared (hd : Tree d)
    (hl : ∀ m ∈ marked? d s, d.content? (backup m) ≠ none → ¬ Touches d m l) : after d.get? back l = d.get? l := by
  refine after_of_forall (fun e he hloc => ?_) _
  cases hm : marked? d s with
  | none => simp [hr.eq_nil_of_none hm] at he
  | some m =>
    refine hl m hm (fun hnone => ?_) ((hr.recovers hm).touches e he l hloc)
    simp [hr.eq_nil hd hm hnone] at he

omit hr in
theorem turned (hr : Readies h.disk s back) (hd : Doorstep h.disk s) :
    Turned h.disk (after h.disk.get? back) (recovered s h) := by
  obtain ⟨back', ht, hback'⟩ := exists_recovers hd.tree hd.marked
  obtain rfl : back = back' := by
    cases hmark : marked? h.disk s with
    | none =>
      simp only [hmark] at hback'
      rw [hr.eq_nil_of_none hmark, hback']
    | some m =>
      simp only [hmark] at hback'
      obtain ⟨r, hrec⟩ := hback'
      exact hrec.unique (hr.recovers hmark)
  exact ht

end Readies

theorem recovered_of_no_backup (hd : Tree h.disk)
    (hm : ∀ m ∈ marked? h.disk s, Plain h.disk m ∧ Plain h.disk (backup m))
    (hb : ∀ m ∈ marked? h.disk s, h.disk.content? (backup m) = none) : (recovered s h).get? = h.disk.get? := by
  obtain ⟨back, ht, hback⟩ := exists_recovers hd hm
  obtain rfl : back = [] := by
    cases hmark : marked? h.disk s with
    | none => simpa only [hmark] using hback
    | some m =>
      simp only [hmark] at hback
      obtain ⟨r, hrec⟩ := hback
      exact hrec.eq_nil (.refl hd) (hb m hmark)
  exact ht.view

theorem Readies.no_backup (hr : Readies h.disk s back) (hd : Doorstep h.disk s) (hm : m ∈ marked? h.disk s) :
    (recovered s h).content? (backup m) = none := by
  have ht := hr.turned hd
  have hlink := (hd.marked m hm).2.noLink
  cases hc : h.disk.content? (backup m) with
  | none =>
    rw [hr.eq_nil hd.tree hm hc] at ht
    rw [← hc]
    exact content?_congr hd.tree ht.tree ht.alike hlink fun dir n _ => by rw [ht.view, after_nil]
  | some c =>
    have hgone := ((hr.recovers hm).restored (hd.marked m hm).1.noLink hlink hd.tree ht hc).2
    refine Option.eq_none_iff_forall_ne_some.2 fun c' hc' => ?_
    obtain ⟨hs, dir, n, mode, hl, hg⟩ := (content?_eq_some_iff ht.tree (hlink.alike ht.alike)).1 hc'
    rw [(hl.exists?_iff hs (hlink.alike ht.alike)).2 (by simp [hg])] at hgone
    cases hgone

theorem Clearing.left (hes : Clearing d s.sourceRoot v es) (l : Location) :
    after v es l = v l ∨ es ≠ [] ∧ Discarded d s v l ∧ after v es l = none := by
  by_cases hl : ∃ e ∈ es, e.location? = some l
  · obtain ⟨e, he, hl⟩ := hl
    exact (hes.cases l).imp_right fun hnone => ⟨List.ne_nil_of_mem he, hes.discarded e he l hl, hnone⟩
  · exact .inl (after_of_forall (fun e he hloc => hl ⟨e, he, hloc⟩) v)

theorem Discarded.isTemporary (hl : Discarded d s v (dir ++ [n])) (hp : Leads d p dir n) : isTemporary p = true := by
  obtain ⟨⟨q, dir', n', -, htemp, hrem, heq⟩, -⟩ := hl
  obtain ⟨rfl, rfl⟩ := concat_inj heq
  rwa [isTemporary_iff hp.fileName?, ← isTemporary_iff hrem.leads.fileName?]

theorem Disk.exists?_cases (hd : Tree d) (hp : NoLink d p) (he : d.exists? p = true) :
    (∃ l mode, d.resolve true p = .ok (.entry l (.dir mode))) ∨
      endsInSlash p = false ∧ ∃ dir n, Leads d p dir n ∧ d.get? (dir ++ [n]) ≠ none := by
  cases hstat : d.stat p with
  | error f => simp [exists?, hstat, Except.isOk, Except.toBool] at he
  | ok e =>
    refine (stat_cases hd hp hstat).imp_right ?_
    rintro ⟨hs, dir, n, hl, hg⟩
    exact ⟨hs, dir, n, hl, by simp [hg]⟩

/-- How a run that is not cut off and takes no source comes to its end. -/
theorem run_untaken (hd : Doorstep h.disk s) (ro : o.ReadOnly)
    (hrun : Run.on (Sweep.run s o) (World.start h) = (.ok result, w)) :
    Entered result ∨ Unbuilt result ∧ Trail o h [] w ∨ Untaken result ∧ ∃ back b es,
      Readies h.disk s back ∧ Clearing h.disk s.sourceRoot (after h.disk.get? back) es ∧
      Trail o h (back ++ .build (baselineCall s) b :: es) w ∧ ((∃ p, result = .error (.baselineFailed p)) → es = []) := by
  have hdisk : (World.start h).disk = h.disk := rfl
  cases hread : Progress.read h.disk s.progressFile with
  | error e =>
    obtain ⟨w', t, hrun'⟩ := run_error (o := o) hd.tree hread
    cases hrun.symm.trans hrun'
    obtain ⟨f, rfl⟩ : ∃ f, e = .read s.progressFile f := by
      simp only [Progress.read] at hread
      split at hread
      · cases hread
      · cases hread
      · next f _ _ => exact ⟨f, by simpa [eq_comm] using hread⟩
    exact .inr (.inl ⟨.unread _ f, t⟩)
  | ok resume =>
    cases resume with
    | done =>
      obtain ⟨w', t, hrun'⟩ := run_done (o := o) hd.tree hread
      cases hrun.symm.trans hrun'
      exact .inr (.inl ⟨.complete, t⟩)
    | fresh =>
      have hmark : marked? h.disk s = none := by simp [marked?, hread]
      have hrun' : Run.on (Sweep.sweepFrom s o none) (World.start h) = (.ok result, w) := by
        simpa only [Sweep.run, Run.on_bind, Run.on_lift, Work.on_disk, hdisk, hread] using hrun
      refine (sweepFrom_untaken ro hd.tree (.start o hd.tree) hrun').imp_right ?_
      rintro ⟨hr, b, es, hes, t, hunfit⟩
      exact .inr ⟨hr, [], b, es, by rw [Readies, hmark], hes, t, hunfit⟩
    | inProgress m =>
      have hmark : marked? h.disk s = some m := by simp [marked?, hread]
      obtain ⟨hm, hb⟩ := hd.marked m hmark
      obtain ⟨back, r, w₁, hrec, t₁, hrun₁⟩ := recover_deeds (Trail.start o hd.tree) hm.noLink hb
      simp only [Sweep.run, Run.on_bind, Run.on_lift, Work.on_disk, hdisk, hread, hrun₁] at hrun
      cases r with
      | error e =>
        cases hrun
        cases hrec with
        | refused => exact .inr (.inl ⟨.unrecovered m _, t₁⟩)
      | ok u =>
        refine (sweepFrom_untaken ro hd.tree t₁ hrun).imp_right ?_
        rintro ⟨hr, b, es, hes, t, hunfit⟩
        exact .inr ⟨hr, back, b, es, by rw [Readies, hmark]; exact hrec, hes, t, hunfit⟩

theorem Doorstep.stopped (hd : Doorstep h.disk s) {b : Option Bool} (hback : Readies h.disk s back)
    (hes : Clearing h.disk s.sourceRoot (after h.disk.get? back) es)
    (t : Trail o h (back ++ .build (baselineCall s) b :: es) w)
    (hunfit : (∃ p, result = .error (.baselineFailed p)) → es = []) : Stopped s h result w := by
  have ht := hback.turned hd
  rw [← ht.view] at hes
  have hnow : Turned h.disk (after (recovered s h).get? es) w.disk := by simpa [ht.view] using t.now
  have hleft : ∀ l, w.disk.get? l = (recovered s h).get? l ∨
      es ≠ [] ∧ Discarded h.disk s (recovered s h).get? l ∧ w.disk.get? l = none := by
    rw [hnow.view]
    exact hes.left
  have hprogress : w.disk.file? s.progressFile = h.disk.file? s.progressFile := by
    refine file?_congr hd.tree hnow.tree hnow.alike hd.progress.noLink fun dir n hl => ?_
    rcases hleft (dir ++ [n]) with h' | ⟨-, h', -⟩
    · rw [h', ht.view, hback.spared hd.tree fun m hm _ htouch => hd.aside m (by simpa using hm) _ htouch dir n hl rfl]
    · exact absurd (h'.isTemporary hl) (by simp [hd.lasting])
  have hmarked := marked?_congr hd.tree hnow.tree hd.progress (hd.progress.after t.now) hprogress
  refine ⟨?_, hprogress, fun he => ?_, fun m hm c hc => ?_, fun l hl => ?_, fun l => ?_, hmarked, ?_⟩
  · have hbuilt := t.built
    rw [inquiries_append, inquiries_of_forall hback.unbuilt, inquiries, inquiries_of_forall hes.unbuilt] at hbuilt
    obtain ⟨build, builds, hmeets, hnil, hw⟩ := List.forall₂_cons_right_iff.1 hbuilt
    obtain rfl := List.forall₂_nil_right_iff.1 hnil
    exact ⟨build, hw, hmeets.call⟩
  · rcases exists?_cases hnow.tree (hd.trial.alike hnow.alike) he with ⟨l, mode, hr⟩ | ⟨hs, dir, n, hl, hg⟩
    · have hr' := (hnow.alike.resolve_dir hd.tree hnow.tree).1 hr
      simp [exists?, stat, hr', bind, Except.bind, pure, Except.pure, Except.isOk, Except.toBool]
    · have hl' := hl.alike hnow.alike.symm
      rw [hl'.exists?_iff hs hd.trial]
      rcases hleft (dir ++ [n]) with h' | ⟨-, -, h'⟩
      · rw [h', ht.view] at hg
        rcases hback.cases (dir ++ [n]) with h'' | h'' | ⟨m, hm, dir', n', hlm, heq⟩
        · rwa [h''] at hg
        · exact absurd h'' hg
        · exact absurd heq.symm (hd.untried m hm dir' n' hlm dir n hl')
      · exact absurd h' hg
  · exact (hback.recovers hm).restored (hd.marked m hm).1.noLink (hd.marked m hm).2.noLink hd.tree ht hc
  · rw [ht.view, hback.spared hd.tree hl]
  · exact (hleft l).imp_right (And.imp_left fun hne p hp => hne (hunfit ⟨p, hp⟩))
  · refine recovered_of_no_backup hnow.tree (fun m hm => ?_) fun m hm => ?_ <;> rw [hmarked] at hm
    · exact ⟨(hd.marked m hm).1.after t.now, (hd.marked m hm).2.after t.now⟩
    · refine Option.eq_none_iff_forall_ne_some.2 fun c hc => ?_
      have hlink := (hd.marked m hm).2.noLink
      obtain ⟨hs, dir, n, mode, hl, hg⟩ := (content?_eq_some_iff hnow.tree (hlink.alike hnow.alike)).1 hc
      have hl' := hl.alike (hnow.alike.symm.trans ht.alike)
      rw [(hleft (dir ++ [n])).resolve_right fun h' => by simp [hg] at h'] at hg
      exact absurd (hl'.content? hs hg) (by simp [hback.no_backup hd hm])

/-- A run that does not get to a source leaves the position and the tree as they were, but for recovery and
temporaries. -/
theorem startup_failure_harmless (hd : Doorstep h.disk s) (ro : o.ReadOnly)
    (hrun : Run.on (Sweep.run s o) (World.start h) = (.ok result, w)) :
    (Unbuilt result → w.builds = [] ∧ w.disk.get? = h.disk.get?) ∧ (Untaken result → Stopped s h result w) := by
  rcases run_untaken hd ro hrun with he | ⟨hu, t⟩ | ⟨hu, back, b, es, hback, hes, t, hunfit⟩
  · constructor <;> intro hu <;> cases he <;> cases hu
  · refine ⟨fun _ => ⟨?_, t.now.view⟩, fun hu' => ?_⟩
    · simpa [inquiries] using t.built
    · cases hu <;> cases hu'
  · refine ⟨fun hu' => ?_, fun _ => hd.stopped hback hes t hunfit⟩
    cases hu <;> cases hu'

/-! ### In the workshop -/

/-- Where there are only regular files and directories it is enough to look at where the marked path leads. -/
theorem Doorstep.of_entries (hd : d.Grown) (ho : d.Ordinary) (hlasting : isTemporary s.progressFile = false)
    (hmarked : ∀ m ∈ marked? d s, d.locate m ≠ d.locate s.progressFile ∧
      d.locate (backup m) ≠ d.locate s.progressFile ∧ d.locate m ≠ d.locate s.trialProject) : Doorstep d s where
  toRegularPaths := .of_entries hd ho fun m hm => (hmarked m (by simpa using hm)).imp_right And.left
  trial := (plain_of_entries ho _).noLink
  lasting := hlasting
  untried m hm _ _ hl _ _ hl' := hl.ne_of_locate hl' (hmarked m hm).2.2

/-- The settings for a project that is not in the workshop. -/
def Workshop.elsewhere : Settings := .ofProject (.ofString "cl") (.ofString "lib.vcxproj") "Debug" (.ofString "src")

/-- Without the project the second source gets its content back, and the next run goes on there. -/
theorem startup_failure_harmless_workshop : ∃ w,
    Run.on (Sweep.run elsewhere (.looking fun _ => true)) (World.start (.ofDisk halted)) =
      (.ok (.error (.trialProject elsewhere.trialProject .notFound)), w) ∧
    w.builds.map (·.call) = [⟨.ofString "lib.vcxproj", "Debug"⟩] ∧
    marked? w.disk elsewhere = some second ∧
    (recovered elsewhere (.ofDisk halted)).file? second = some (0o640, Bytes.ofString "#include <c>\r\n") := by
  obtain ⟨w, hrun⟩ : ∃ w, Run.on (Sweep.run elsewhere (.looking fun _ => true)) (World.start (.ofDisk halted)) =
    (.ok (.error (.trialProject elsewhere.trialProject .notFound)), w) := ⟨_, Prod.fst_eq_iff.1 (by decide +kernel)⟩
  have hd : Doorstep (Host.ofDisk halted).disk elsewhere :=
    .of_entries (by decide +kernel) (by decide +kernel) (by decide +kernel) (by decide +kernel)
  have hmark : marked? (Host.ofDisk halted).disk elsewhere = some second := by decide +kernel
  have hstop := (startup_failure_harmless hd (Oracle.readOnly_looking _) hrun).2 (.uncopied _ _)
  obtain ⟨b, hb, hcall⟩ := hstop.build
  refine ⟨w, hrun, ?_, hstop.again.1.trans hmark, ?_⟩
  · rw [hb, List.map_singleton, hcall]
    rfl
  · have hheld : (Host.ofDisk halted).disk.content? (backup second) =
        some (Bytes.ofString "#include <c>\r\n") := by decide +kernel
    exact (hstop.restored _ hmark _ hheld).1.trans (by decide +kernel)

end Prune
