import Prune.Proofs.Reopening

/-!
# What a run leaves alone

A run is free to write the progress, the trial project, the sources and what the progress names, and to take
temporaries away. All else is at its end as it was (`run_frame`), backups included: those that a run makes it
takes away again. For a sweep that comes to its end, the tree is known exactly, up to what the sources hold
(`Swept`), beginning from the disk on which the file that the progress names is recovered (`recovered`).
-/

namespace Prune

open Disk Artefact Workshop

variable {d d' : Disk} {p m : Path} {dir l k : Location} {n : Bytes} {v : View} {o : Oracle} {h : Host}
  {ds es back : List Deed} {w : World} {s : Settings} {files : List Path} {todo : List (Path × Option Lot)}
  {marker : Option Path} {summary : Sweep.Summary}
variable {r : Sweep.Ending}

/-! ### Before a sweep begins -/

/-- The path that the progress says to go on at. -/
def marked? (d : Disk) (s : Settings) : Option Path :=
  match Progress.read d s.progressFile with
  | .ok (.inProgress m) => some m
  | _ => none

/-- The disk on which the file that the progress names is recovered. -/
def recovered (s : Settings) (h : Host) : Disk :=
  match marked? h.disk s with
  | some m => (Work.on (Sweep.recover m) (World.start h)).2.disk
  | none => h.disk

/-- The sources that are found, none if they cannot be listed. -/
def discovered (d : Disk) (s : Settings) : List Path :=
  match Sources.listed d s.sourceRoot s.extensions with
  | .ok files => files
  | .error _ => []

theorem listing_discovered (hd : Tree d) {p : Path} (hp : p ∈ discovered d s) :
    Sources.Listing d s.sourceRoot s.extensions (discovered d s) := by
  unfold discovered at hp ⊢
  split
  · next fs hl => exact (Sources.listing_of_listed hd hl).1
  · next hl =>
    rw [hl] at hp
    cases hp

/-- What is asked of a disk, the given sources being found and the given path being marked. The progress is not the
trial project. -/
structure Grounds (d : Disk) (s : Settings) (files : List Path) (marker : Option Path) : Prop
    extends TrialApart d s files where
  marked : ∀ m ∈ marker, Plain d m ∧ Plain d (backup m)
  untried : ∀ dir n, Leads d s.progressFile dir n → ∀ dir' n', Leads d s.trialProject dir' n' →
    dir ++ [n] ≠ dir' ++ [n']

theorem Grounds.scene (hg : Grounds d s files marker) (hd' : Tree d') (ha : Alike d d')
    (hfiles : files = discovered d' s) : Scene d s files :=
  hg.toTrialApart.scene hd' ha fun _ hp => hfiles ▸ listing_discovered hd' (hfiles ▸ hp)

/-- What the path leads to has no other name. -/
def Disk.Single (d : Disk) (p : Path) : Prop := ∀ dir n, Leads d p dir n → d.shared.lookup (dir ++ [n]) = none

theorem tells_discovered (hd' : Tree d') (ha : Alike d d') : Tells d s (discovered d' s) d'.get? := by
  intro d'' ht fs hl
  have hcwd : d'.cwd = d''.cwd := ha.cwd.trans ht.alike.cwd.symm
  rw [discovered, Sources.listed_congr ht.tree hd' ht.view.symm hcwd hl]

theorem Recovers.touches {r : Except Sweep.Problem Unit} (hr : Recovers d v m back r) :
    ∀ e ∈ back, ∀ l ∈ e.location?, Touches d m l := by
  cases hr with
  | bare | refused => simp
  | done hw hl =>
    rw [List.forall_mem_cons, List.forall_mem_singleton]
    refine ⟨?_, ?_⟩ <;> rintro _ ⟨⟩
    · exact ⟨_, _, _, .inl rfl, hw.leads, rfl⟩
    · exact ⟨_, _, _, .inr rfl, hl, rfl⟩

theorem exists_recovers (hd : Tree h.disk) (hm : ∀ m ∈ marked? h.disk s, Plain h.disk m ∧ Plain h.disk (backup m)) :
    ∃ back, Turned h.disk (after h.disk.get? back) (recovered s h) ∧
      match marked? h.disk s with
      | some m => ∃ r, Recovers h.disk h.disk.get? m back r
      | none => back = [] := by
  cases hmark : marked? h.disk s with
  | none => exact ⟨[], by simpa [recovered, hmark] using .refl hd, rfl⟩
  | some m =>
    obtain ⟨hlive, hcopy⟩ := hm m hmark
    obtain ⟨back, r, w', hr, t, hrun⟩ :=
      recover_deeds (Trail.start (Oracle.looking fun _ => true) hd) hlive.noLink hcopy
    refine ⟨back, ?_, r, hr⟩
    simp only [recovered, hmark, hrun]
    exact t.now

/-! ### Where something may change -/

/-- The places of the progress, of the trial project and of the sources. -/
def Open (d : Disk) (s : Settings) (files : List Path) (l : Location) : Prop :=
  ∃ p dir n, (p = s.progressFile ∨ p = s.trialProject ∨ p ∈ files) ∧ Leads d p dir n ∧ l = dir ++ [n]

/-- A file that a run takes for a temporary, and that it can take away. -/
def Discarded (d : Disk) (s : Settings) (v : View) (l : Location) : Prop :=
  Litter d s.sourceRoot l ∧ ∃ e, v l = some e ∧ e.isFile = true

theorem Clearing.discarded (hes : Clearing d s.sourceRoot v es) :
    ∀ e ∈ es, ∀ l ∈ e.location?, Discarded d s v l := by
  intro e he l hl
  obtain ⟨k, e', rfl, hlit, hv, hfile⟩ := hes e he
  cases hl
  exact ⟨hlit, e', hv, hfile⟩

theorem Taking.locations (hk : Taking d s k todo es r)
    (ht : Todo d v todo) (hsub : ∀ p ∈ todo.map (·.1), p ∈ files)
    (htrial : ∃ dir n, k = dir ++ [n] ∧ Leads d s.trialProject dir n) :
    ∀ e ∈ es, ∀ l ∈ e.location?, Open d s files l ∨ ∃ x : Lot, x.In d v ∧ x.path ∈ files ∧ l = x.copy := by
  have hfiles : ∀ {dir n fs summary r'}, Writable d s.progressFile dir n →
      Files (dir ++ [n]) (Sweep.trialCall s) s.matcher todo summary fs r' → ∀ e ∈ fs, ∀ l ∈ e.location?,
        Open d s files l ∨ ∃ x : Lot, x.In d v ∧ x.path ∈ files ∧ l = x.copy := by
    intro dir n fs summary r' hw hf e he l hl
    rcases hf.location_eq e he l hl with rfl | ⟨p, x, hx, hat⟩
    · exact .inl ⟨_, dir, n, .inl rfl, hw.leads, rfl⟩
    · obtain ⟨rfl, hin⟩ := ht.lot p x hx
      have hmem := hsub _ (List.mem_map.2 ⟨_, hx, rfl⟩)
      rcases hat with rfl | rfl
      · obtain ⟨⟨dir', n', hlive, -, hw', -⟩, -⟩ := hin.fits
        exact .inl ⟨_, dir', n', .inr (.inr hmem), hw'.leads, hlive⟩
      · exact .inr ⟨x, hin, hmem, rfl⟩
  cases hk with
  | unkept => simp
  | cut hw hf => exact hfiles hw hf
  | @done dir n fs gs summary hw hf hg =>
    rw [List.forall_mem_append, List.forall_mem_cons]
    refine ⟨hfiles hw hf, ?_, fun e he l hl => .inl ?_⟩
    · rintro _ ⟨⟩
      exact .inl ⟨_, dir, n, .inl rfl, hw.leads, rfl⟩
    · obtain rfl : e = .erase k := by
        rcases hg with ⟨rfl, -⟩ | ⟨rfl, -⟩
        · simpa using he
        · cases he
      cases hl
      obtain ⟨dir', n', rfl, hl⟩ := htrial
      exact ⟨_, dir', n', .inr (.inl rfl), hl, rfl⟩

/-- Where a sweep does anything: besides backups, which it takes away again, only where something may change. -/
theorem Course.locations (hsingle : d.Single s.trialProject) (hc : Course d s files v marker ds r) :
    ∀ e ∈ ds, ∀ l ∈ e.location?, Open d s files l ∨ Discarded d s v l ∨
      ∃ x : Lot, x.In d v ∧ x.path ∈ files ∧ l = x.copy := by
  cases hc with
  | cut | unfit => simp [Deed.location?]
  | unlisted hes =>
    exact List.forall_mem_cons.2 ⟨by simp [Deed.location?], fun e he l hl => .inr (.inl (hes.discarded e he l hl))⟩
  | uncopied hes =>
    exact List.forall_mem_cons.2 ⟨by simp [Deed.location?], fun e he l hl => .inr (.inl (hes.discarded e he l hl))⟩
  | @taken es fs k todo r ho ht hmap hk =>
    have hsub : ∀ p ∈ todo.map (·.1), p ∈ files := fun p hp => List.mem_of_mem_drop (hmap ▸ hp)
    obtain ⟨es', cs, -, -, rfl, hes, hcs, -⟩ := ho.deeds
    obtain ⟨dir, n, rfl, hl, -⟩ := ho.trial
    rw [List.forall_mem_cons, List.forall_mem_append, List.forall_mem_append]
    refine ⟨by simp [Deed.location?], ⟨fun e he l hl => .inr (.inl (hes.discarded e he l hl)), fun e he l hl' => ?_⟩,
      fun e he l hl' => ?_⟩
    · obtain ⟨k, hk, mode, content, rfl⟩ := hcs e he
      rw [twins_of_lookup (hsingle dir n hl), List.mem_singleton] at hk
      exact .inl ⟨_, dir, n, .inr (.inl rfl), hl, (Option.some.inj hl').symm.trans hk⟩
    · exact (hk.locations ht hsub ⟨dir, n, rfl, hl⟩ e he l hl').imp_right .inr

theorem Course.frame {r : Except Sweep.Problem Sweep.Outcome} (hs : Scene d s files) (hsingle : d.Single s.trialProject)
    (hc : Course d s files v marker ds (some r)) (hl : ¬ Open d s files l) (hlit : ¬ Discarded d s v l) :
    after v ds l = v l := by
  by_cases hcopy : ∃ x : Lot, x.In d v ∧ x.path ∈ files ∧ l = x.copy
  · obtain ⟨x, hx, hp, rfl⟩ := hcopy
    rcases hc.last hs hx hp with hrest | ⟨hnone, -⟩
    · rw [hrest.1, hx.copy]
    · cases hnone
  · refine after_of_forall (fun e he hloc => ?_) v
    rcases hc.locations hsingle e he l hloc with h | h | h
    · exact hl h
    · exact hlit h
    · exact hcopy h

/-! ### The end of a sweep -/

/-- What a sweep that came to its end has made of the disk `r`: the sources keep their bits, the progress holds the
sentinel, the trial project and temporaries are gone where they can go, and all else is as it was. Paths are
taken as `d` has them. -/
structure Swept (d r : Disk) (s : Settings) (files : List Path) (d' : Disk) : Prop where
  sources : ∀ p ∈ files, ∀ dir n, Leads d p dir n → ∃ mode content content',
    r.get? (dir ++ [n]) = some (.file mode content) ∧ d'.get? (dir ++ [n]) = some (.file mode content')
  backups : ∀ p ∈ files, ∀ dir n, Leads d (backup p) dir n → d'.get? (dir ++ [n]) = r.get? (dir ++ [n])
  progress : d'.content? s.progressFile = some Progress.sentinel
  trial : ∀ dir n, Leads d s.trialProject dir n → d.mayAlter dir = true → d'.get? (dir ++ [n]) = none
  temporaries : ∀ l, Discarded d s r.get? l → (∀ dir n, Leads d s.progressFile dir n → l ≠ dir ++ [n]) → d'.get? l = none
  rest : ∀ l, ¬ Open d s files l → ¬ Discarded d s r.get? l → d'.get? l = r.get? l

theorem Course.source {r : Except Sweep.Problem Sweep.Outcome} {mode : Nat} {c : Bytes} (hs : Scene d s files)
    (hc : Course d s files v marker ds (some r)) (hp : p ∈ files) (hl : Leads d p dir n)
    (hv : v (dir ++ [n]) = some (.file mode c)) : ∃ c', after v ds (dir ++ [n]) = some (.file mode c') := by
  by_cases hlot : ∃ x : Lot, x.In d v ∧ x.path = p
  · obtain ⟨x, hx, rfl⟩ := hlot
    obtain ⟨⟨dir', n', hlive, -, hw, -⟩, -⟩ := hx.fits
    obtain ⟨rfl, rfl⟩ := hw.leads.unique hl
    rcases hc.last hs hx hp with ⟨-, c', hlast, -⟩ | ⟨hnone, -⟩
    · rw [← hlive] at hv ⊢
      rw [hx.live, Option.some.injEq, Entry.file.injEq] at hv
      exact ⟨c', hv.1 ▸ hlast⟩
    · cases hnone
  · refine ⟨c, ?_⟩
    rw [hs.eq_of_concerns hc.concerns (fun _ => List.mem_of_mem_drop) hp (fun x hx _ heq => hlot ⟨x, hx, heq⟩)
      ⟨p, dir, n, .inl rfl, hl, rfl⟩, hv]

theorem Course.ended (hs : Scene d s files)
    (hne : ∀ dir n, Leads d s.progressFile dir n → ∀ dir' n', Leads d s.trialProject dir' n' → dir ++ [n] ≠ dir' ++ [n'])
    (hc : Course d s files v marker ds (some (.ok (.completed summary)))) : ∃ mode, Ended d s mode (after v ds) := by
  generalize hr : some (Except.ok (Sweep.Outcome.completed summary)) = r at hc
  cases hc with
  | cut | unfit | unlisted | uncopied => cases hr
  | @taken es fs k todo r ho ht hmap hk =>
    cases hk with
    | unkept | cut => cases hr
    | done hw hf hgone =>
      have hsub : ∀ p ∈ todo.map (·.1), p ∈ files := fun p hp => List.mem_of_mem_drop (hmap ▸ hp)
      obtain ⟨es', cs, mode, content, rfl, -, -, hlast, -⟩ := ho.deeds
      rw [after_cons, after_append, Deed.apply_build]
      refine ⟨mode, ho.ended (c := content) hs ht hsub ?_ rfl hw (fun dir' n' => hne _ _ hw.leads dir' n') hf hgone⟩
      rw [after_append]
      exact hlast _

theorem Course.cleared (hs : Scene d s files) (hsingle : d.Single s.trialProject)
    (hne : ∀ dir n, Leads d s.progressFile dir n → ∀ dir' n', Leads d s.trialProject dir' n' → dir ++ [n] ≠ dir' ++ [n'])
    (hc : Course d s files v marker ds (some (.ok (.completed summary)))) (hlit : Discarded d s v l)
    (hprog : ∀ dir n, Leads d s.progressFile dir n → l ≠ dir ++ [n]) : after v ds l = none := by
  obtain ⟨mode, -, hslash, dir, n, hl, htrial⟩ := hc.ended hs hne
  obtain ⟨hlit, e, hv, hfile⟩ := hlit
  by_cases htl : l = dir ++ [n]
  · subst htl
    exact (htrial.resolve_right fun h => h.2 dir n ⟨hl, hslash, hlit.alter⟩).1
  · generalize hr : some (Except.ok (Sweep.Outcome.completed summary)) = r at hc
    cases hc with
    | cut | unfit | unlisted | uncopied => cases hr
    | @taken es fs k todo r ho ht hmap hk =>
      have hsub : ∀ p ∈ todo.map (·.1), p ∈ files := fun p hp => List.mem_of_mem_drop (hmap ▸ hp)
      obtain ⟨es', cs, -, -, rfl, -, hcs, -, hgone, -⟩ := ho.deeds
      obtain ⟨dir', n', rfl, hl', -⟩ := ho.trial
      obtain ⟨rfl, rfl⟩ := hl.unique hl'
      rw [after_cons, after_append, Deed.apply_build, after_of_forall fun e he hloc => ?_]
      · rw [after_append, after_of_forall fun e he hloc => ?_, hgone l e hlit hv hfile]
        obtain ⟨k, hk, mode, content, rfl⟩ := hcs e he
        rw [twins_of_lookup (hsingle _ _ hl), List.mem_singleton] at hk
        exact htl ((Option.some.inj hloc).symm.trans hk)
      -- nothing else that is done there would be done at a temporary
      rcases hk.locations ht hsub ⟨_, _, rfl, hl⟩ e he l hloc with ⟨q, dir', n', rfl | rfl | hq, hlq, rfl⟩ | ⟨x, hx, hp, rfl⟩
      · exact hprog dir' n' hlq rfl
      · obtain ⟨rfl, rfl⟩ := hl.unique hlq
        exact htl rfl
      · exact hs.kept q hq _ ⟨q, dir', n', .inl rfl, hlq, rfl⟩ hlit
      · exact hs.kept _ hp _ hx.fits.touches_copy hlit

theorem Disk.Leads.ne_backup {dir' : Location} {n' : Bytes} (hl : Leads d p dir n) (hd : Tree d)
    (hl' : Leads d (backup p) dir' n') : dir ++ [n] ≠ dir' ++ [n'] := by
  obtain ⟨rfl, rfl⟩ := (names_backup hl).unique hd hl'.walks
  exact ne_markedName _ _ _

theorem Scene.backup_not_open (hs : Scene d s files) (hp : p ∈ files) (hl : Leads d (backup p) dir n) :
    ¬ Open d s files (dir ++ [n]) := by
  have htouch : Touches d p (dir ++ [n]) := ⟨_, dir, n, .inr rfl, hl, rfl⟩
  rintro ⟨q, dir', n', rfl | rfl | hq, hl', heq⟩
  · exact hs.aside p hp _ htouch dir' n' hl' heq
  · exact hs.away p hp _ htouch dir' n' hl' (heq ▸ self_mem_twins ..)
  · obtain rfl := hs.apart p hp q hq _ htouch ⟨q, dir', n', .inl rfl, hl', heq⟩
    exact hl'.ne_backup hs.tree hl heq.symm

theorem exists_file_of_discovered (hd : Tree d) (hp : p ∈ discovered d s) (hplain : Plain d p) (hl : Leads d p dir n) :
    ∃ mode c, d.get? (dir ++ [n]) = some (.file mode c) := by
  unfold discovered at hp
  split at hp
  · next fs hlisted =>
    obtain ⟨-, k, e, hsp, hg, he⟩ := ((Sources.listing_of_listed hd hlisted).1.mem_iff p).1 hp
    obtain rfl := hsp.eq_of_names hd hg hl.walks
    rcases hplain dir n hl e hg with ⟨mode, c, rfl⟩ | ⟨mode, rfl⟩
    · exact ⟨mode, c, hg⟩
    · cases he
  · cases hp

theorem Course.swept {r : Disk} (hg : Grounds d s files marker) (hsingle : d.Single s.trialProject)
    (hs : Scene d s files) (ht : Turned d v r)
    (hplain : ∀ p ∈ files, Plain r p) (hfiles : files = discovered r s)
    {marker' : Option Path} (hc : Course d s files v marker' ds (some (.ok (.completed summary))))
    (ht' : Turned d (after v ds) d') : Swept d r s files d' := by
  obtain rfl := ht.view
  obtain ⟨mode, hend⟩ := hc.ended hs hg.untried
  have hrest : ∀ l, ¬ Open d s files l → ¬ Discarded d s r.get? l → d'.get? l = r.get? l := fun l hl hlit => by
    rw [ht'.view]
    exact hc.frame hs hsingle hl hlit
  refine ⟨fun p hp dir n hl => ?_, fun p hp dir n hl => hrest _ (hs.backup_not_open hp hl) fun hlit => ?_,
    hend.content? hg.progress.noLink ht', fun dir n hl halter => ?_, fun l hlit hprog => ?_, hrest⟩
  · obtain ⟨mode, c, hfile⟩ := exists_file_of_discovered ht.tree (hfiles ▸ hp) (hplain p hp) (hl.alike ht.alike)
    obtain ⟨c', hlast⟩ := hc.source hs hp hl hfile
    exact ⟨mode, c, c', hfile, by rw [ht'.view, hlast]⟩
  · exact hs.kept p hp _ ⟨_, dir, n, .inr rfl, hl, rfl⟩ hlit.1
  · obtain ⟨hslash, dir', n', hl', hcases⟩ := hend.trial
    obtain ⟨rfl, rfl⟩ := hl.unique hl'
    rw [ht'.view]
    exact (hcases.resolve_right fun h => h.2 _ _ ⟨hl, hslash, halter⟩).1
  · rw [ht'.view]
    exact hc.cleared hs hsingle hg.untried hlit hprog

/-! ### Whole runs -/

theorem Clearing.unbuilt {root : Path} (hes : Clearing d root v es) : ∀ e ∈ es, e.isBuild = false := by
  intro e he
  obtain ⟨k, -, rfl, -⟩ := hes e he
  rfl

theorem Recovers.unbuilt {r : Except Sweep.Problem Unit} (hr : Recovers d v m back r) :
    ∀ e ∈ back, e.isBuild = false := by
  cases hr <;> simp [Deed.isBuild]

/-- A run that is not cut off recovers what is marked, and then does nothing or has its course. -/
theorem Grounds.trail (hg : Grounds h.disk s files (marked? h.disk s)) (hfiles : files = discovered (recovered s h) s)
    (ro : o.ReadOnly) {result : Except Sweep.Problem Sweep.Outcome}
    (hrun : Run.on (Sweep.run s o) (World.start h) = (.ok result, w)) :
    ∃ back ds, after h.disk.get? back = (recovered s h).get? ∧ (∀ e ∈ back, e.isBuild = false) ∧
      Trail o h (back ++ ds) w ∧
      (ds = [] ∧ (∀ summary, result ≠ .ok (.completed summary)) ∨
        Course h.disk s files (recovered s h).get? (marked? h.disk s) ds (some result)) := by
  obtain ⟨back, ht, hback⟩ := exists_recovers hg.tree hg.marked
  have hs := hg.scene ht.tree ht.alike hfiles
  have htells : Tells h.disk s files (recovered s h).get? := hfiles ▸ tells_discovered ht.tree ht.alike
  have hend : ∀ {r : Sweep.Ending} {w'},
      Run.on (Sweep.run s o) (World.start h) = (ending r, w') → r = some result ∧ w' = w := by
    intro r w' hrun'
    rw [hrun] at hrun'
    cases r <;> cases hrun'
    exact ⟨rfl, rfl⟩
  cases hread : Progress.read h.disk s.progressFile with
  | error e =>
    have hmark : marked? h.disk s = none := by simp [marked?, hread]
    obtain ⟨w', t, hrun'⟩ := run_error (o := o) hg.tree hread
    obtain ⟨hr, rfl⟩ := hend (r := some (.error (.progress e))) hrun'
    cases hr
    exact ⟨[], [], by simp [recovered, hmark], by simp, t, .inl ⟨rfl, by simp⟩⟩
  | ok resume =>
    cases resume with
    | fresh =>
      have hmark : marked? h.disk s = none := by simp [marked?, hread]
      have hrec : recovered s h = h.disk := by simp [recovered, hmark]
      rw [hrec] at htells ⊢
      obtain ⟨es, r, w', hc, t, hrun'⟩ := run_fresh ro hs hread htells
      obtain ⟨rfl, rfl⟩ := hend hrun'
      exact ⟨[], es, rfl, by simp, t, .inr (hmark ▸ hc)⟩
    | done =>
      have hmark : marked? h.disk s = none := by simp [marked?, hread]
      obtain ⟨w', t, hrun'⟩ := run_done (o := o) hg.tree hread
      obtain ⟨hr, rfl⟩ := hend (r := some (.ok .alreadyComplete)) hrun'
      cases hr
      exact ⟨[], [], by simp [recovered, hmark], by simp, t, .inl ⟨rfl, by simp⟩⟩
    | inProgress m =>
      have hmark : marked? h.disk s = some m := by simp [marked?, hread]
      simp only [hmark] at hback
      obtain ⟨r₀, hrec₀⟩ := hback
      have hview : ∀ {back' r'}, Recovers h.disk h.disk.get? m back' r' →
          after h.disk.get? back' = (recovered s h).get? := fun hrec => by
        rw [hrec₀.unique hrec, ht.view]
      obtain ⟨hlive, hcopy⟩ := hg.marked m hmark
      obtain ⟨back', r', w', hrec, hrun'⟩ := run_recovered ro hs hlive.noLink hcopy hread fun back' hrec => by
        rw [hview hrec]
        exact htells
      refine ⟨back', ?_⟩
      cases r' with
      | error e =>
        obtain ⟨t, hrun'⟩ := hrun'
        obtain ⟨hr, rfl⟩ := hend (r := some (.error e)) hrun'
        cases hr
        exact ⟨[], hview hrec, hrec.unbuilt, by simpa using t, .inl ⟨rfl, by simp⟩⟩
      | ok u =>
        obtain ⟨es, r, hc, t, hrun'⟩ := hrun'
        obtain ⟨rfl, rfl⟩ := hend hrun'
        exact ⟨es, hview hrec, hrec.unbuilt, t, .inr (hmark ▸ hview hrec ▸ hc)⟩

/-- Whatever a run ends with, it has changed nothing but the progress, the trial project, the sources it found, the
file that was marked with its backup, and temporaries. If it is a sweep that came to its end, the tree is the one
there was when that file was recovered, but for what the sources hold, the sentinel, and the trial project and
temporaries gone, where they can go. -/
theorem run_frame (hg : Grounds h.disk s (discovered (recovered s h) s) (marked? h.disk s))
    (hsingle : h.disk.Single s.trialProject) (ro : o.ReadOnly) {result : Except Sweep.Problem Sweep.Outcome}
    (hrun : Run.on (Sweep.run s o) (World.start h) = (.ok result, w)) :
    (∀ l, ¬ Open h.disk s (discovered (recovered s h) s) l → ¬ Discarded h.disk s h.disk.get? l →
      (∀ m ∈ marked? h.disk s, ¬ Touches h.disk m l) → w.disk.get? l = h.disk.get? l) ∧
    ∀ summary, result = .ok (.completed summary) →
      Swept h.disk (recovered s h) s (discovered (recovered s h) s) w.disk := by
  obtain ⟨back, ht, hback⟩ := exists_recovers hg.tree hg.marked
  have hs := hg.scene ht.tree ht.alike rfl
  obtain ⟨back', ds, hback', -, t, hds⟩ := hg.trail rfl ro hrun
  have hnow := t.now
  rw [after_append, hback'] at hnow
  refine ⟨fun l hl hlit hm => ?_, ?_⟩
  · have hsame : (recovered s h).get? l = h.disk.get? l := by
      rw [ht.view]
      refine after_of_forall (fun e he hloc => ?_) _
      cases hmark : marked? h.disk s with
      | none =>
        simp only [hmark] at hback
        simp [hback] at he
      | some m =>
        simp only [hmark] at hback
        obtain ⟨r, hrec⟩ := hback
        exact hm m hmark (hrec.touches e he l hloc)
    rw [hnow.view, ← hsame]
    rcases hds with ⟨rfl, -⟩ | hc
    · rfl
    · exact hc.frame hs hsingle hl fun ⟨hlit', hfile⟩ => hlit ⟨hlit', hsame ▸ hfile⟩
  · rintro summary rfl
    rcases hds with ⟨-, hno⟩ | hc
    · exact absurd rfl (hno summary)
    · exact hc.swept hg hsingle hs (ht.view.symm ▸ ht) (fun p hp => (hg.live p hp).after ht) rfl hnow

/-! ### In the workshop -/

/-- Where there are only regular files and directories, each under one name, it is enough to look at where the
progress is. -/
theorem Grounds.of_entries (hd : d.Grown) (ho : d.Ordinary)
    (haside : ∀ p ∈ files, d.locate p ≠ d.locate s.progressFile ∧ d.locate (backup p) ≠ d.locate s.progressFile)
    (hshared : d.shared = []) (htrial : d.locate s.progressFile ≠ d.locate s.trialProject) :
    Grounds d s files marker where
  toTrialApart := .of_entries hd ho haside hshared
  marked _ _ := ⟨plain_of_entries ho _, plain_of_entries ho _⟩
  untried _ _ hl _ _ hl' := hl.ne_of_locate hl' htrial

namespace Workshop

/-- The workshop when the pass over the second source was cut off, with a temporary left over and a file that is
nobody's business. -/
def halted : Disk where
  entries := [(["w"], .dir 0o755),
    (["w", "app.vcxproj"], .file 0o644 "<Project/>\n"),
    (["w", "include-sweeper.progress"], .file 0o600 "src/b.cpp"),
    (["w", "notes.txt"], .file 0o600 "keep\n"),
    (["w", "src"], .dir 0o755),
    (["w", "src", ".sweeper-tmp-a.cpp.9q"], .file 0o600 []),
    (["w", "src", "a.cpp"], .file 0o644 "#include <b>\nint x;\n"),
    (["w", "src", "b.cpp"], .file 0o640 "\r\n"),
    (["w", "src", "b.sweeper-backup.cpp"], .file 0o600 "#include <c>\r\n")]
  cwd := ["w"]

def notes : Location := [Bytes.ofString "w"] ++ [Bytes.ofString "notes.txt"]

/-- A run has nothing to do with a file if no path of its own leads there and it is no temporary. -/
theorem not_open_notes (hloc : ∀ p ∈ s.progressFile :: s.trialProject :: files,
      d.locate p ≠ .ok (.named ["w"] "notes.txt")) :
    ¬ Open d s files notes ∧ ¬ Discarded d s d.get? notes := by
  constructor
  · rintro ⟨p, dir, n, hp, hl, heq⟩
    obtain ⟨rfl, rfl⟩ := concat_inj heq
    exact hloc p (by simpa using hp) hl.locate
  · rintro ⟨⟨p, dir, n, -, htemp, hr, heq⟩, -⟩
    obtain ⟨rfl, rfl⟩ := concat_inj heq
    rw [isTemporary_iff hr.leads.fileName?] at htemp
    exact absurd htemp (by decide)

theorem discovered_halted : discovered (recovered settings (.ofDisk halted)) settings = [first, second] := by
  decide +kernel

theorem grounds_halted : Grounds (Host.ofDisk halted).disk settings
    (discovered (recovered settings (.ofDisk halted)) settings) (marked? (Host.ofDisk halted).disk settings) := by
  rw [discovered_halted]
  exact .of_entries (by decide +kernel) (by decide +kernel) (by decide +kernel) rfl (by decide +kernel)

theorem completed_halted : ∃ w, Run.on (Sweep.run settings (.looking builds)) (World.start (.ofDisk halted)) =
    (.ok (.ok (.completed ⟨1, 1, [], [], []⟩)), w) := ⟨_, Prod.fst_eq_iff.1 (by decide +kernel)⟩

end Workshop

/-- A run that goes on in the workshop leaves the notes alone and finishes the sweep. -/
theorem run_frame_workshop : ∃ w, Run.on (Sweep.run settings (.looking builds))
      (World.start (.ofDisk halted)) = (.ok (.ok (.completed ⟨1, 1, [], [], []⟩)), w) ∧
    marked? halted settings = some second ∧ w.disk.get? notes = halted.get? notes ∧
    Swept halted (recovered settings (.ofDisk halted)) settings [first, second] w.disk := by
  have hmark : marked? (Host.ofDisk halted).disk settings = some second := by decide +kernel
  obtain ⟨w, hrun⟩ := completed_halted
  obtain ⟨hframe, hswept⟩ := run_frame grounds_halted (fun _ _ _ => rfl) (Oracle.readOnly_looking _) hrun
  rw [discovered_halted] at hframe hswept
  have hnotes : ¬ Open halted settings [first, second] notes ∧
      ¬ Discarded halted settings halted.get? notes := not_open_notes (by decide +kernel)
  refine ⟨w, hrun, hmark, hframe _ hnotes.1 hnotes.2 ?_, hswept _ rfl⟩
  rw [hmark]
  rintro _ ⟨⟩ ⟨q, dir, n, hq, hl, heq⟩
  obtain ⟨rfl, rfl⟩ := concat_inj heq
  have hloc : ∀ q ∈ [second, backup second], halted.locate q ≠ .ok (.named ["w"] "notes.txt") := by decide +kernel
  exact hloc q (by simpa using hq) hl.locate

namespace Workshop

/-- The workshop with a trial project that is the notes under another name. -/
def linked : Disk where
  entries := (notes, .file 0o600 "keep\n") ::
    (["w", "app.sweeper-trial.vcxproj"], .file 0o600 "keep\n") ::
    (workshop 0o644).entries
  cwd := (workshop 0o644).cwd
  shared := [(notes, 1), (["w", "app.sweeper-trial.vcxproj"], 1)]

/-- A project in a directory that must not be altered, and a temporary in another one. -/
def closed : Disk where
  entries := [(["w"], .dir 0o755),
    (["w", "p"], .dir 0o555),
    (["w", "p", "app.sweeper-trial.vcxproj"], .file 0o644 []),
    (["w", "p", "app.vcxproj"], .file 0o644 "<Project/>\n"),
    (["w", "src"], .dir 0o755),
    (["w", "src", "a.cpp"], .file 0o644 "#include <a>\n"),
    (["w", "src", "old"], .dir 0o555),
    (["w", "src", "old", ".sweeper-tmp-a.cpp.9q"], .file 0o600 [])]
  cwd := ["w"]

def closedSettings : Settings :=
  { Settings.ofProject (.ofString "cl") (.ofString "p/app.vcxproj") "Debug" (.ofString "src") with
    progressFile := .ofString "include-sweeper.progress" }

end Workshop

/-- What is written to a trial project that has another name changes the file of that name; and a sweep comes to its
end although the trial project and a temporary stand in directories that must not be altered, and stay. -/
theorem not_framed_over_link_or_closed :
    (¬ Open linked settings (discovered linked settings) notes ∧
      ¬ Discarded linked settings linked.get? notes ∧
      marked? linked settings = none ∧
      ∃ summary, ((Host.ofDisk linked).sweep settings (.looking builds)).1 =
          .ok (.ok (.completed summary)) ∧
        ((Host.ofDisk linked).sweep settings (.looking builds)).2.disk.get? notes ≠
          linked.get? notes) ∧
    ∃ summary, ((Host.ofDisk closed).sweep closedSettings (.looking fun _ => true)).1 =
        .ok (.ok (.completed summary)) ∧
      ∀ p ∈ [closedSettings.trialProject, .ofString "src/old/.sweeper-tmp-a.cpp.9q"],
        ((Host.ofDisk closed).sweep closedSettings (.looking fun _ => true)).2.disk.exists? p = true := by
  constructor
  · obtain ⟨hopen, hlit⟩ : ¬ Open linked settings (discovered linked settings) notes ∧
        ¬ Discarded linked settings linked.get? notes := not_open_notes (by decide +kernel)
    exact ⟨hopen, hlit, by decide +kernel, ⟨2, 2, [], [], []⟩, by decide +kernel⟩
  · exact ⟨⟨1, 1, [], [], []⟩, by decide +kernel⟩

end Prune
