import Prune.Proofs.Markers

/-!
# Runs one after the other

What holds on every disk between two runs, compared with the disk before the first of them (`Kept`): of a
lot some candidate lines are gone, or a pass was cut off there, the backup has what the pass began with and
the progress names the source; and nothing else has changed but the progress, the trial project and
temporaries. From such a disk every run has its course (`Kept.run`), which begins with all passes undone
that were cut off, and leaves such a disk again (`Kept.course`); so it is behind any number of runs
(`Stands.sweeps`).
-/

namespace Prune

open Disk Artefact Lines

variable {d d' : Disk} {p q root : Path} {dir : Location} {n : Bytes} {v u : View} {ds es back : List Deed}
  {x y : Lot} {l : Location} {s : Settings} {files : List Path} {m : Directive.Matcher} {c : Bytes} {o : Oracle}
  {h : Host} {w : World} {marker : Option Path} {r : Sweep.Ending}

/-- The progress is kept neither where a source may be nor in the trial project. -/
structure Apart (d : Disk) (s : Settings) : Prop where
  unlisted : ∀ p l, Sources.isListed s.extensions p = true → Spells d s.sourceRoot p l →
    ∀ dir n, Leads d s.progressFile dir n → l ≠ dir ++ [n]
  untried : ∀ dir n, Leads d s.progressFile dir n → ∀ dir' n', Leads d s.trialProject dir' n' →
    dir ++ [n] ≠ dir' ++ [n']

/-- Besides, the progress is not the trial project under another name, and what it says of a source can be read
again. -/
structure Aloof (d : Disk) (s : Settings) : Prop extends Apart d s where
  unlinked : d.Unlinked s.progressFile s.trialProject
  ended : ∀ e ∈ s.extensions, ∀ b, e.getLast? = some b → Progress.isLineEnd b = false

theorem isListed_congr (h : p.fileName? = q.fileName?) (extensions : List Bytes) :
    Sources.isListed extensions p = Sources.isListed extensions q := by
  simp only [Sources.isListed, Sources.isSource, Sources.hasExtension, Path.extension?, isArtefact, isTemporary,
    carries, Path.stem?, h]

theorem Aloof.of_name (hshared : d.shared = []) (hname : Sources.isListed s.extensions s.progressFile = false)
    (htrial : d.locate s.progressFile ≠ d.locate s.trialProject)
    (hended : ∀ e ∈ s.extensions, ∀ b ∈ e.getLast?, Progress.isLineEnd b = false) : Aloof d s where
  unlisted p l hp hsp dir n hl heq := by
    obtain ⟨dir', n', rfl, hn⟩ := hsp.exists_fileName
    obtain ⟨rfl, rfl⟩ := concat_inj heq
    rw [isListed_congr (hn.trans hl.fileName?.symm), hname] at hp
    cases hp
  untried dir n hl dir' n' hl' := hl.ne_of_locate hl' htrial
  unlinked dir n hl dir' n' hl' hmem := hl.ne_of_locate hl' htrial (by simpa [twins, hshared] using hmem)
  ended e he b hb := hended e he b hb

/-! ### A lot in the course of time -/

/-- The lot with another content. -/
def Lot.holding (x : Lot) (c : Bytes) : Lot := { x with content := c }

/-- A pass over the lot was cut off, which began when candidate lines had been dropped before. -/
def Lot.Held (m : Directive.Matcher) (x : Lot) (u : View) : Prop :=
  ∃ c, Thinned m .dropped x.content c ∧ (x.holding c).Stuck m u

theorem Lot.Fits.holding (hx : x.Fits d) (c : Bytes) : (x.holding c).Fits d := ⟨hx.live, hx.readable⟩

theorem Lot.Rests.exists_in (hx : x.Rests m v) (hf : x.Fits d) :
    ∃ c, Thinned m .dropped x.content c ∧ (x.holding c).In d v := by
  obtain ⟨hcopy, c, hlive, ht⟩ := hx
  exact ⟨c, ht, hf.holding c, hlive, hcopy⟩

theorem Lot.Rests.of_holding (ht : Thinned m .dropped x.content c) (hx : (x.holding c).Rests m u) : x.Rests m u := by
  obtain ⟨hcopy, c', hlive, ht'⟩ := hx
  exact ⟨hcopy, c', hlive, ht.trans ht'⟩

theorem Lot.Stuck.caught (hx : x.Stuck m v) (hf : x.Fits d) : x.Caught d v := by
  obtain ⟨hcopy, c, hlive, -⟩ := hx
  exact ⟨hf, ⟨c, hlive⟩, hcopy⟩

theorem Lot.Fits.places_eq (hx : x.Fits d) (hy : y.Fits d) (h : x.path = y.path) :
    x.live = y.live ∧ x.copy = y.copy := by
  obtain ⟨⟨dir, n, hl, hc, hw, -⟩, -⟩ := hx
  obtain ⟨⟨dir', n', hl', hc', hw', -⟩, -⟩ := hy
  obtain ⟨rfl, rfl⟩ := hw.leads.unique (h ▸ hw'.leads)
  exact ⟨hl.trans hl'.symm, hc.trans hc'.symm⟩

/-! ### What is kept -/

def IsLot (d : Disk) (files : List Path) (p : Path) : Prop := p ∈ files ∧ ∃ x : Lot, x.In d d.get? ∧ x.path = p

/-- The view `v` shows what runs have left of the disk `d`. -/
structure Kept (d : Disk) (s : Settings) (files : List Path) (v : View) : Prop where
  lot : ∀ x : Lot, x.In d d.get? → x.path ∈ files → x.Rests s.matcher v ∨ x.Held s.matcher v ∧ MarksAt d s v x.path
  frame : Framed d s files v
  progress : endsInSlash s.progressFile = false → ∀ dir n, Leads d s.progressFile dir n →
    Legible (IsLot d files) (v (dir ++ [n]))

/-- No pass was cut off, or all that were are undone. -/
def AllRest (d : Disk) (s : Settings) (files : List Path) (v : View) : Prop :=
  ∀ x : Lot, x.In d d.get? → x.path ∈ files → x.Rests s.matcher v

theorem isLot_of_concerns (hf : Footing d s files) (ha : Apart d s) (hp : Sources.isListed s.extensions p = true)
    (hsp : Spells d s.sourceRoot p l) (hl : Concerns d s d.get? files l) :
    ∃ x : Lot, x.In d d.get? ∧ x.path ∈ files ∧ l = x.live := by
  obtain ⟨dir, n, rfl, hn⟩ := hsp.exists_fileName
  obtain ⟨htemp, hbackup, htrial⟩ := unmarked_of_isListed hp hn
  rcases hl with ⟨q, dir', n', -, hq, hr, heq⟩ | ⟨dir', n', hk, heq⟩ | ⟨dir', n', hk, heq⟩ | ⟨x, hx, hmem, hl | hl⟩
  · obtain ⟨rfl, rfl⟩ := concat_inj heq
    exact absurd ((isTemporary_iff hr.leads.fileName?).1 hq) htemp
  · -- a further name of the trial project is that of a file, which would be a source
    have hne : dir ++ [n] ≠ dir' ++ [n'] := fun heq => by
      obtain ⟨m, rfl⟩ := exists_trial_name hk
      exact htrial m (concat_inj heq).2
    exact absurd hsp (hf.not_spells hk heq hne hp)
  · exact absurd heq (ha.unlisted p _ hp hsp dir' n' hk)
  · exact ⟨x, hx, hmem, hl⟩
  · obtain ⟨⟨dir', n', -, hc, -⟩, -⟩ := hx.fits
    exact absurd (concat_inj (hl.trans hc)).2 (hbackup n')

theorem Framed.tells (hf : Footing d s files) (ha : Apart d s) (hv : Framed d s files v)
    (hlive : ∀ x : Lot, x.In d d.get? → x.path ∈ files → ∃ c, v x.live = some (.file x.mode c)) :
    Tells d s files v := by
  refine hf.tells fun p l hp hsp => ?_
  by_cases hl : Concerns d s d.get? files l
  · obtain ⟨x, hx, hmem, rfl⟩ := isLot_of_concerns hf ha hp hsp hl
    obtain ⟨c, hlive⟩ := hlive x hx hmem
    rw [hlive, hx.live]
    simp [Entry.isFile]
  · rw [hv l hl]

theorem Framed.exists_lot (hs : Scene d s files) (ha : Alike d d') (hv : Framed d s files v) (hx : x.In d' v)
    (hp : x.path ∈ files) : ∃ x₀ : Lot, x₀.In d d.get? ∧ x₀.path = x.path := by
  by_contra! hno
  have hx' : x.In d v := ⟨hx.fits.alike ha.symm, hx.live, hx.copy⟩
  refine hno x (hx'.congr fun l hl => (hv l ?_).symm) rfl
  exact hs.not_concerns (fun _ => id) hp (fun y hy _ => hno y hy) hl

theorem source_marker (hf : Footing d s files) (ha : Aloof d s) (hp : p ∈ files) :
    Utf8.isValid p.text = true ∧ Progress.decode p.text = .inProgress p := by
  obtain ⟨hl, hvalid⟩ := Sources.listing_of_listed hf.tree hf.listed
  obtain ⟨hlisted, l, e, hsp, hg, he⟩ := (hl.mem_iff p).1 hp
  exact ⟨hvalid p l e hsp hg he, decode_source (dot_mem_of_isListed hlisted) (hsp.not_isLineEnd ha.ended hlisted)⟩

namespace Kept

theorem start (hf : Footing d s files) (hread : Progress.read d s.progressFile = .ok .fresh) :
    Kept d s files d.get? where
  lot _ hx _ := .inl hx.rests
  frame _ _ := rfl
  progress hslash _ _ hl := hl.legible_of_fresh hf.progress hslash hread

theorem live (hk : Kept d s files v) (hx : x.In d d.get?) (hp : x.path ∈ files) :
    ∃ c, v x.live = some (.file x.mode c) := by
  rcases hk.lot x hx hp with ⟨-, c, hlive, -⟩ | ⟨⟨_, -, -, c, hlive, -⟩, -⟩
  · exact ⟨c, hlive⟩
  · exact ⟨c, hlive⟩

theorem tells (hf : Footing d s files) (ha : Aloof d s) (hk : Kept d s files v) : Tells d s files v :=
  hk.frame.tells hf ha.toApart fun _ => hk.live

theorem concerns (hs : Scene d s files) (ht : Turned d u d') (hk : Kept d s files v) {taken : List Path}
    (htaken : ∀ p ∈ taken, p ∈ files) (hl : Concerns d' s v taken l) : Concerns d s d.get? files l := by
  have ha := ht.alike.symm
  rcases hl with hl | ⟨dir, n, hl, hmem⟩ | ⟨dir, n, hl, rfl⟩ | ⟨x, hx, hmem, hat⟩
  · exact .inl (hl.alike ha ht.tree hs.tree)
  · exact .inr (.inl ⟨dir, n, hl.alike ha, ht.sharing.twins hmem⟩)
  · exact .inr (.inr (.inl ⟨dir, n, hl.alike ha, rfl⟩))
  · obtain ⟨x₀, hx₀, hpath⟩ := hk.frame.exists_lot hs ht.alike hx (htaken _ hmem)
    obtain ⟨hlive, hcopy⟩ := hx₀.fits.places_eq (hx.fits.alike ha) hpath
    refine .inr (.inr (.inr ⟨x₀, hx₀, hpath ▸ htaken _ hmem, ?_⟩))
    rwa [Lot.At, hlive, hcopy]

theorem course (hf : Footing d s files) (ha : Aloof d s) (ht : Turned d u d') (hs' : Scene d' s files)
    (hk : Kept d s files v) (hrest : AllRest d s files v) (hc : Course d' s files v marker ds r) :
    Kept d s files (after v ds) ∧ (r ≠ none → AllRest d s files (after v ds)) := by
  have hs := hf.scene
  have hd := ht.alike
  have hlot : ∀ x : Lot, x.In d d.get? → x.path ∈ files → x.Rests s.matcher (after v ds) ∨
      r = none ∧ x.Held s.matcher (after v ds) ∧ MarksAt d s (after v ds) x.path := by
    intro x hx hp
    obtain ⟨c, ht, hin⟩ := (hrest x hx hp).exists_in (hx.fits.alike hd)
    rcases hc.last hs' hin hp with hr | ⟨hr, hstuck, hslash, dir, n, hl, hm⟩
    · exact .inl (.of_holding ht hr)
    · exact .inr ⟨hr, ⟨c, ht, hstuck⟩, hslash, dir, n, hl.alike hd.symm, hm⟩
  refine ⟨⟨fun x hx hp => (hlot x hx hp).imp_right And.right, fun l hl => ?_, fun hslash dir n hl => ?_⟩,
    fun hr x hx hp => (hlot x hx hp).resolve_right fun h => hr h.1⟩
  · rw [after_of_forall fun e he hloc => hl ?_, hk.frame l hl]
    exact hk.concerns hs ht (fun _ => List.mem_of_mem_drop) (hc.concerns e he l hloc)
  · refine hc.legible hs' (fun x hx hp => ?_) (hl.alike hd) (fun dir' n' hl' hmem => ?_) (hk.progress hslash dir n hl)
    · obtain ⟨x₀, hx₀, hpath⟩ := hk.frame.exists_lot hs hd hx hp
      obtain ⟨hvalid, hdecode⟩ := source_marker hf ha hp
      exact ⟨hvalid, .inr (.inr ⟨_, ⟨hp, x₀, hx₀, hpath⟩, rfl, hdecode⟩)⟩
    · exact ha.unlinked dir n hl dir' n' (hl'.alike hd.symm) (ht.sharing.twins hmem)

theorem read_of_held (hf : Footing d s files) (ha : Aloof d s) (ht : Turned d v d') (hk : Kept d s files v)
    (hp : p ∈ files) (hm : MarksAt d s v p) : Progress.read d' s.progressFile = .ok (.inProgress p) := by
  obtain ⟨hslash, dir, n, hl, mode, hg⟩ := hm
  obtain ⟨_, _, ⟨⟩, hmode, hvalid, -⟩ := hk.progress hslash dir n hl _ hg
  rw [← ht.view] at hg
  rw [(hl.alike ht.alike).progress_read hslash hg hmode hvalid, (source_marker hf ha hp).2]

theorem allRest (hf : Footing d s files) (ha : Aloof d s) (ht : Turned d v d') (hk : Kept d s files v)
    (hread : ∀ p, Progress.read d' s.progressFile ≠ .ok (.inProgress p)) : AllRest d s files v := fun x hx hp =>
  (hk.lot x hx hp).resolve_right fun h => hread _ (hk.read_of_held hf ha ht hp h.2)

theorem read_cases (ht : Turned d v d') (hs' : Scene d' s files) (hk : Kept d s files v) {t : Resume}
    (hread : Progress.read d' s.progressFile = .ok t) : t = .fresh ∨ t = .done ∨
      ∃ x : Lot, x.In d d.get? ∧ x.path ∈ files ∧ t = .inProgress x.path := by
  rcases progress_read_inv hs'.tree hs'.progress hread with rfl | ⟨hslash, dir, n, mode, c, hl, hg, -, -, rfl⟩
  · exact .inl rfl
  · rw [ht.view] at hg
    obtain ⟨_, _, ⟨⟩, -, -, h | h | ⟨p, ⟨hp, x, hx, rfl⟩, -, h⟩⟩ := hk.progress hslash dir n (hl.alike ht.alike.symm) _ hg
    · exact .inl h
    · exact .inr (.inl h)
    · exact .inr (.inr ⟨x, hx, hp, h⟩)

theorem recovered (hs : Scene d s files) (hk : Kept d s files v) (hx : x.In d d.get?) (hp : x.path ∈ files)
    (hrest : ∀ y : Lot, y.In d d.get? → y.path ∈ files → y.path ≠ x.path → y.Rests s.matcher v)
    (hc : Thinned s.matcher .dropped x.content c) (hin : (x.holding c).In d (after v (x.holding c).recovery)) :
    Kept d s files (after v (x.holding c).recovery) ∧ AllRest d s files (after v (x.holding c).recovery) := by
  have hback : ∀ e ∈ (x.holding c).recovery, ∀ l ∈ e.location?, x.At l := by
    simp [Lot.recovery, Deed.location?, Lot.At, Lot.holding]
  have hall : AllRest d s files (after v (x.holding c).recovery) := by
    intro y hy hq
    by_cases heq : y.path = x.path
    · obtain rfl := hy.unique hx heq
      exact .of_holding hc hin.rests
    · refine (hrest y hy hq heq).congr fun l hl => after_of_forall (fun e he hloc => heq ?_) v
      exact hs.apart _ hq _ hp l (hy.fits.touches hl) (hx.fits.touches (hback e he l hloc))
  refine ⟨⟨fun y hy hq => .inl (hall y hy hq), fun l hl => ?_, fun hslash dir n hl => ?_⟩, hall⟩
  · rw [after_of_forall fun e he hloc => hl ?_, hk.frame l hl]
    exact .inr (.inr (.inr ⟨x, hx, hp, hback e he l hloc⟩))
  · rw [after_of_forall fun e he hloc => ?_]
    · exact hk.progress hslash dir n hl
    · exact hs.aside _ hp _ (hx.fits.touches (hback e he _ hloc)) dir n hl rfl

end Kept

/-- How a run gets to where it goes on: from the beginning, or at a lot that has or gets its content back. -/
def Resumes (d : Disk) (files : List Path) (v : View) : Option Path → List Deed → Prop
  | none, back => back = []
  | some p, back => p ∈ files ∧ ∃ x : Lot, x.path = p ∧ (back = [] ∧ x.In d v ∨ back = x.recovery ∧ x.Caught d v)

theorem Resumes.original? (hs : Scene d s files) (hr : Resumes d files v marker back) (hp : x.path ∈ files)
    (hx : x.In d (after v back)) (ht : Turned d v d') : d'.original? x.path = some x.content := by
  cases marker with
  | none =>
    obtain rfl : back = [] := hr
    exact hx.original? ht
  | some q =>
    obtain ⟨hq, y, rfl, ⟨rfl, -⟩ | ⟨rfl, hy⟩⟩ := hr
    · exact hx.original? ht
    · by_cases heq : x.path = y.path
      · obtain rfl := hx.unique hy.recovered heq
        exact hy.original? ht
      · have hback : ∀ e ∈ y.recovery, ∀ l ∈ e.location?, y.At l := by simp [Lot.recovery, Deed.location?, Lot.At]
        refine Lot.In.original? (hx.congr_at fun l hl => (after_of_forall (fun e he hloc => heq ?_) v).symm) ht
        exact hs.apart _ hp _ hq l (hx.fits.touches hl) (hy.fits.touches (hback e he l hloc))

theorem run_error (hd : Tree h.disk) {e : Progress.Problem} (hread : Progress.read h.disk s.progressFile = .error e) :
    ∃ w', Trail o h [] w' ∧ Run.on (Sweep.run s o) (World.start h) = (.ok (.error (.progress e)), w') := by
  refine ⟨_, Trail.start o hd, ?_⟩
  have hdisk : (World.start h).disk = h.disk := rfl
  simp only [Sweep.run, Run.on_bind, Run.on_lift, Work.on_disk, hdisk, hread]
  rfl

/-- Every run from what runs have left does nothing, or has its course once all passes that were cut off
are undone. -/
theorem Kept.run (hf : Footing d s files) (ha : Aloof d s) (ro : o.ReadOnly) (ht : Turned d h.disk.get? h.disk)
    (hs' : Scene h.disk s files) (hk : Kept d s files h.disk.get?) :
    (AllRest d s files h.disk.get? ∧ ∃ r w', Trail o h [] w' ∧ Run.on (Sweep.run s o) (World.start h) = (.ok r, w')) ∨
    ∃ marker back es r w', Resumes h.disk files h.disk.get? marker back ∧ Kept d s files (after h.disk.get? back) ∧
      AllRest d s files (after h.disk.get? back) ∧ Course h.disk s files (after h.disk.get? back) marker es r ∧
      Trail o h (back ++ es) w' ∧ Run.on (Sweep.run s o) (World.start h) = (ending r, w') := by
  have hs := hf.scene
  have htells : ∀ {u : View}, Kept d s files u → Tells h.disk s files u := fun hu d'' hd'' =>
    hu.tells hf ha d'' (ht.trans hd'')
  cases hread : Progress.read h.disk s.progressFile with
  | error e =>
    obtain ⟨w', t, hrun⟩ := run_error (o := o) hs'.tree hread
    exact .inl ⟨hk.allRest hf ha ht (by simp [hread]), _, w', t, hrun⟩
  | ok t =>
    rcases hk.read_cases ht hs' hread with rfl | rfl | ⟨x, hx, hp, rfl⟩
    · obtain ⟨es, r, w', hc, t, hrun⟩ := run_fresh ro hs' hread (htells hk)
      exact .inr ⟨none, [], es, r, w', rfl, hk, hk.allRest hf ha ht (by simp [hread]), hc, t, hrun⟩
    · obtain ⟨w', t, hrun⟩ := run_done (o := o) hs'.tree hread
      exact .inl ⟨hk.allRest hf ha ht (by simp [hread]), _, w', t, hrun⟩
    · have hrest : ∀ y : Lot, y.In d d.get? → y.path ∈ files → y.path ≠ x.path → y.Rests s.matcher h.disk.get? := by
        intro y hy hq hne
        refine (hk.lot y hy hq).resolve_right fun hheld => hne ?_
        simpa [hread, eq_comm] using hk.read_of_held hf ha ht hq hheld.2
      rcases hk.lot x hx hp with hrx | ⟨⟨c, hc, hstuck⟩, -⟩
      · obtain ⟨c, -, hin⟩ := hrx.exists_in (hx.fits.alike ht.alike)
        have hread : Progress.read h.disk s.progressFile = .ok (.inProgress (x.holding c).path) := hread
        obtain ⟨es, r, w', hcourse, t, hrun⟩ := run_marked ro hs' hread (.inl ⟨rfl, hin⟩) (htells hk)
        refine .inr ⟨some x.path, [], es, r, w', ⟨hp, x.holding c, rfl, .inl ⟨rfl, hin⟩⟩, hk, fun y hy hq => ?_,
          hcourse, t, hrun⟩
        by_cases heq : y.path = x.path
        · rwa [hy.unique hx heq]
        · exact hrest y hy hq heq
      · have hcaught := hstuck.caught ((hx.fits.alike ht.alike).holding c)
        have hrec := hcaught.recovered
        obtain ⟨hk', hall⟩ := hk.recovered hs hx hp hrest hc ⟨hx.fits.holding c, hrec.live, hrec.copy⟩
        have hread : Progress.read h.disk s.progressFile = .ok (.inProgress (x.holding c).path) := hread
        obtain ⟨es, r, w', hcourse, t, hrun⟩ := run_marked ro hs' hread (.inr ⟨rfl, hcaught⟩) (htells hk')
        exact .inr ⟨some x.path, _, es, r, w', ⟨hp, x.holding c, rfl, .inr ⟨rfl, hcaught⟩⟩, hk', hall, hcourse, t,
          hrun⟩

/-! ### Histories -/

/-- One sweep: how it ends, and the host it leaves. -/
def Host.sweep (s : Settings) (o : Oracle) (h : Host) :
    Except Interrupted (Except Sweep.Problem Sweep.Outcome) × Host :=
  ((Run.on (Sweep.run s o) (World.start h)).1, (Run.on (Sweep.run s o) (World.start h)).2.toHost)

/-- The host that sweeps leave, one for each oracle. -/
def Host.sweeps (s : Settings) (os : List Oracle) (h : Host) : Host := os.foldl (fun h o => (h.sweep s o).2) h

/-- The host is what runs have left of the disk `d`. -/
structure Stands (d : Disk) (s : Settings) (files : List Path) (h : Host) : Prop where
  turned : Turned d h.disk.get? h.disk
  scene : Scene h.disk s files
  kept : Kept d s files h.disk.get?

namespace Stands

theorem start (hf : Footing h.disk s files) (hread : Progress.read h.disk s.progressFile = .ok .fresh) :
    Stands h.disk s files h := ⟨.refl hf.tree, hf.scene, .start hf hread⟩

theorem of_trail (hh : Stands d s files h) (t : Trail o h ds w) (hk : Kept d s files (after h.disk.get? ds)) :
    Stands d s files w.toHost where
  turned := hh.turned.trans (t.now.view.symm ▸ t.now)
  scene := t.scene hh.scene
  kept := by
    rw [t.now.view]
    exact hk

theorem sweep (hf : Footing d s files) (ha : Aloof d s) (ro : o.ReadOnly) (hh : Stands d s files h) :
    Stands d s files (h.sweep s o).2 := by
  rcases hh.kept.run hf ha ro hh.turned hh.scene with ⟨-, r, w', t, hrun⟩ |
    ⟨marker, back, es, r, w', -, hk, hall, hc, t, hrun⟩
  · rw [Host.sweep, hrun]
    exact hh.of_trail t hh.kept
  · rw [Host.sweep, hrun]
    refine hh.of_trail t ?_
    rw [after_append]
    exact (hk.course hf ha hh.turned hh.scene hall hc).1

theorem sweeps (hf : Footing d s files) (ha : Aloof d s) {os : List Oracle} (ro : ∀ o ∈ os, o.ReadOnly)
    (hh : Stands d s files h) : Stands d s files (h.sweeps s os) := by
  induction os generalizing h with
  | nil => exact hh
  | cons o os ih =>
    exact ih (fun o' ho' => ro o' (.tail _ ho')) (hh.sweep hf ha (ro o List.mem_cons_self))

end Stands

theorem Workshop.aloof : Aloof (workshop 0o644) Workshop.settings :=
  .of_name rfl (by decide +kernel) (by decide +kernel) (by decide +kernel)

end Prune
