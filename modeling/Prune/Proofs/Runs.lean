import Prune.Proofs.SweepDeeds

/-!
# Runs from a disk

`Footing` says what is asked of the disk a sweep starts from. The names of artefacts then keep the
sources, their backups, the trial project and the temporaries apart, which makes it a `Scene`
(`Footing.scene`). That stays one whatever a run does (`Trail.scene`), and so every run from it has a
course: from the beginning, or from the source that is marked (`run_fresh`, `run_marked`, `run_done`).
-/

namespace Prune

open Disk Artefact

variable {d : Disk} {p q : Path} {dir : Location} {n : Bytes} {o : Oracle} {h : Host} {ds es : List Deed}
  {w : World} {x : Lot} {l : Location} {s : Settings} {files : List Path}

/-- What `p` leads to is not the file that `q` leads to, whatever names that has. -/
def Disk.Unlinked (d : Disk) (p q : Path) : Prop := ∀ dir n, Leads d p dir n → ∀ dir' n', Leads d q dir' n' →
  dir ++ [n] ∉ d.twins (dir' ++ [n'])

/-- A disk that a sweep may start from, with the sources it will find. -/
structure Footing (d : Disk) (s : Settings) (files : List Path) : Prop extends TrialApart d s files where
  listed : Sources.listed d s.sourceRoot s.extensions = .ok files
  unspelled : ∀ dir n, Leads d s.trialProject dir n → ∀ l ∈ d.twins (dir ++ [n]), l ≠ dir ++ [n] →
    ∀ p ∈ files, ¬ Spells d s.sourceRoot p l

/-- A further name of the trial project is no name of a source. -/
theorem Footing.not_spells (hf : Footing d s files) (hk : Leads d s.trialProject dir n) (hl : l ∈ d.twins (dir ++ [n]))
    (hne : l ≠ dir ++ [n]) (hp : Sources.isListed s.extensions p = true) : ¬ Spells d s.sourceRoot p l := by
  intro hsp
  obtain ⟨mode, content, hg⟩ := hf.tied.file hl hne
  have hmem := ((Sources.listing_of_listed hf.tree hf.listed).1.mem_iff p).2 ⟨hp, _, _, hsp, hg, rfl⟩
  exact hf.unspelled dir n hk l hl hne p hmem hsp

theorem mem_names_of_fileName? (hn : p.fileName? = some n) : n ∈ Disk.names p.text := by
  have hc : Component.name n ∈ p.components := by
    simp only [Path.fileName?] at hn
    split at hn
    · next m hm =>
      cases hn
      exact List.mem_of_getLast? hm
    · cases hn
  have hm : n ∈ p.components.filterMap Component.piece? := List.mem_filterMap.2 ⟨_, hc, rfl⟩
  rw [Path.filterMap_piece?_components] at hm
  exact List.mem_of_mem_filter hm

theorem slash_notMem_fileName? (hn : p.fileName? = some n) : Path.slash ∉ n :=
  slash_notMem_of_mem_names (mem_names_of_fileName? hn)

theorem dot_mem_of_isListed {extensions : List Bytes} (hp : Sources.isListed extensions p = true) :
    Path.dot ∈ p.text := by
  simp only [Sources.isListed, Sources.isSource, Sources.hasExtension, Path.extension?, Bool.and_eq_true] at hp
  cases hn : p.fileName? with
  | none => simp [hn] at hp
  | some n =>
    refine Bytes.mem_of_mem_splitOn (List.mem_of_mem_filter (mem_names_of_fileName? hn)) ?_
    rcases Path.splitName_eq n with ⟨s, e, rfl, -, -, -⟩ | ⟨-, hs⟩
    · simp
    · simp [hn, hs] at hp

theorem trial_eq_join (p : Path) : ∃ (q : Path) (n : Bytes), Path.slash ∉ n ∧
    trial p = q.join (markedName trialMark n) := by
  cases hn : p.fileName? with
  | some n =>
    rw [trial, marked_eq _ hn, Path.withFileName]
    split <;> exact ⟨_, n, slash_notMem_fileName? hn, rfl⟩
  | none =>
    refine ⟨p, [], by simp, ?_⟩
    simp [trial, marked, Path.stem?, Path.extension?, hn, Path.withFileName, markedName, Path.splitName,
      Path.splitLastDot]

theorem exists_trial_name (hl : Leads d (trial p) dir n) : ∃ m, n = markedName trialMark m := by
  obtain ⟨q, m, hm, hq⟩ := trial_eq_join p
  obtain ⟨xs, k, hx, -⟩ := hl.walks
  have hname := isName_markedName isMark_trial hm
  rw [hq, Path.names_join q (head?_ne_slash hname), names_of_isName hname] at hx
  exact ⟨m, by simpa using (List.append_inj' hx rfl).2.symm⟩

/-! ### The scene -/

theorem concat_inj {dir dir' : Location} {n n' : Bytes} (h : dir ++ [n] = dir' ++ [n']) : dir = dir' ∧ n = n' := by
  obtain ⟨h₁, h₂⟩ := List.append_inj' h rfl
  exact ⟨h₁, by simpa using h₂⟩

theorem Disk.Leads.ne_of_locate {q : Path} {dir dir' : Location} {n n' : Bytes} (h : Leads d p dir n)
    (h' : Leads d q dir' n') (hne : d.locate p ≠ d.locate q) : dir ++ [n] ≠ dir' ++ [n'] := fun heq => by
  obtain ⟨rfl, rfl⟩ := concat_inj heq
  exact hne (h.locate.trans h'.locate.symm)

theorem unmarked_of_isListed {extensions : List Bytes} (hp : Sources.isListed extensions p = true)
    (hn : p.fileName? = some n) : ¬ temporaryMark <+: n ∧ (∀ m, n ≠ markedName backupMark m) ∧
      ∀ m, n ≠ markedName trialMark m := by
  simp only [Sources.isListed, Sources.isSource, Bool.and_eq_true, Bool.not_eq_true'] at hp
  refine ⟨fun ht => ?_, ?_, ?_⟩
  · simp [(isTemporary_iff hn).2 ht] at hp
  · rintro m rfl
    simp [isArtefact_backup hn] at hp
  · rintro m rfl
    simp [isArtefact_trial hn] at hp

/-- The places of a listed source: its own, under a name that is no artefact's, and beside it that of its
backup. -/
theorem source_places (hd : Tree d) (hl : Sources.Listing d s.sourceRoot s.extensions files) (hp : p ∈ files)
    (ht : Touches d p l) : ∃ dir n, Spells d s.sourceRoot p (dir ++ [n]) ∧ n ≠ [] ∧ ¬ temporaryMark <+: n ∧
      (∀ m, n ≠ markedName backupMark m) ∧ (∀ m, n ≠ markedName trialMark m) ∧
      (l = dir ++ [n] ∨ l = dir ++ [markedName backupMark n]) := by
  obtain ⟨hlisted, k, e, hsp, hg, -⟩ := (hl.mem_iff p).1 hp
  obtain ⟨xs, n, hx, hn⟩ := hsp.exists_names
  obtain ⟨htemp, hbackup, htrial⟩ := unmarked_of_isListed hlisted (Path.exists_parent hx hn).1
  suffices h : ∃ dir, Names d p dir n ∧ (l = dir ++ [n] ∨ l = dir ++ [markedName backupMark n]) by
    obtain ⟨dir, hnames, h⟩ := h
    obtain rfl := hsp.eq_of_names hd hg hnames
    exact ⟨dir, n, hsp, hn.ne_nil, htemp, hbackup, htrial, h⟩
  obtain ⟨q, dir, n', rfl | rfl, hleads, rfl⟩ := ht
  · obtain ⟨ys, -, hy, -⟩ := hleads.walks
    obtain rfl : n = n' := by simpa using (List.append_inj' (hx.symm.trans hy) rfl).2
    exact ⟨dir, hleads.walks, .inl rfl⟩
  · obtain ⟨rfl, hnames⟩ := names_of_backup hx hn hleads
    exact ⟨dir, hnames, .inr rfl⟩

theorem sources_apart (hd : Tree d) (hl : Sources.Listing d s.sourceRoot s.extensions files) (hp : p ∈ files)
    (hq : q ∈ files) (htp : Touches d p l) (htq : Touches d q l) : p = q := by
  obtain ⟨dir, n, hsp, -, -, hfp, -, htp⟩ := source_places hd hl hp htp
  obtain ⟨dir', n', hsq, -, -, hfq, -, htq⟩ := source_places hd hl hq htq
  suffices h : dir = dir' ∧ n = n' from hsp.path_unique hsq (.inl (by rw [h.1, h.2]))
  rcases htp with rfl | rfl <;> rcases htq with h | h
  · exact concat_inj h
  · exact absurd (concat_inj h).2 (hfp n')
  · exact absurd (concat_inj h).2.symm (hfq n)
  · exact ⟨(concat_inj h).1, (markedName_inj isMark_backup.dot isMark_backup.dot (concat_inj h).2).2⟩

theorem source_ne_trial (hd : Tree d) (hl : Sources.Listing d s.sourceRoot s.extensions files) (hp : p ∈ files)
    (htp : Touches d p l) (hk : Leads d s.trialProject dir n) : l ≠ dir ++ [n] := by
  obtain ⟨dir', n', -, -, -, -, htrial, htp⟩ := source_places hd hl hp htp
  obtain ⟨m, rfl⟩ := exists_trial_name hk
  rintro rfl
  rcases htp with h | h
  · exact htrial m (concat_inj h).2.symm
  · exact backup_ne_trial _ _ (concat_inj h).2.symm

theorem source_not_litter (hd : Tree d) (hl : Sources.Listing d s.sourceRoot s.extensions files) (hp : p ∈ files)
    (htp : Touches d p l) : ¬ Litter d s.sourceRoot l := by
  obtain ⟨dir, n, -, hne, htemp, -, -, htp⟩ := source_places hd hl hp htp
  rintro ⟨q, dir', n', hsq, htq, hr, hl'⟩
  rw [isTemporary_iff hr.leads.fileName?] at htq
  rcases htp with rfl | rfl
  · rw [← (concat_inj hl').2] at htq
    exact htemp htq
  · rw [← (concat_inj hl').2, temporaryMark_isPrefix_markedName hne] at htq
    exact htemp htq

theorem Litter.alike {root : Path} {d d' : Disk} (ha : Alike d d') (hd : Tree d) (hd' : Tree d')
    (hl : Litter d root l) : Litter d' root l := by
  obtain ⟨p, dir, n, hsp, ht, hr, rfl⟩ := hl
  exact ⟨p, dir, n, hsp.alike ha hd hd', ht, hr.alike ha, rfl⟩

/-- The scene of a sweep over the sources that are found on `d'`. -/
theorem TrialApart.scene {d' : Disk} (hy : TrialApart d s files) (hd' : Tree d') (ha : Alike d d')
    (hl : ∀ p ∈ files, Sources.Listing d' s.sourceRoot s.extensions files) : Scene d s files := by
  have hnodup : files.Nodup := by
    cases files with
    | nil => exact List.nodup_nil
    | cons p files =>
      exact (hl p List.mem_cons_self).sorted.imp fun {p q} hpq heq => by simp [heq, Path.lt_irrefl] at hpq
  exact { hy with
    nodup := hnodup
    sited := fun dir n _ => hy.tied.sitedAt hy.tree _
    apart := fun p hp q hq l htp htq => sources_apart hd' (hl p hp) hp hq (htp.alike ha) (htq.alike ha)
    away := fun p hp l htp dir n ht hmem =>
      hy.names dir n ht l hmem (source_ne_trial hd' (hl p hp) hp (htp.alike ha) (ht.alike ha)) p hp htp
    kept := fun p hp l htp hlit => source_not_litter hd' (hl p hp) hp (htp.alike ha) (hlit.alike ha hy.tree hd') }

theorem Footing.scene (hf : Footing d s files) : Scene d s files :=
  hf.toTrialApart.scene hf.tree (.refl d) fun _ _ => (Sources.listing_of_listed hf.tree hf.listed).1

theorem Scene.turned {d' : Disk} (hs : Scene d s files) (ht : Turned d (after d.get? ds) d') : Scene d' s files := by
  have hb := ht.alike.symm
  exact {
    tree := ht.tree
    nodup := hs.nodup
    progress := hs.progress.after ht
    trial := hs.trial.after ht
    sited := fun dir n hl => (hs.sited dir n (hl.alike hb)).alike ht.alike ht.sharing
    live := fun p hp => (hs.live p hp).after ht
    copy := fun p hp => (hs.copy p hp).after ht
    apart := fun p hp q hq l hlp hlq => hs.apart p hp q hq l (hlp.alike hb) (hlq.alike hb)
    aside := fun p hp l hl dir n hn => hs.aside p hp l (hl.alike hb) dir n (hn.alike hb)
    away := fun p hp l hl dir n hn hmem => hs.away p hp l (hl.alike hb) dir n (hn.alike hb) (ht.sharing.twins hmem)
    kept := fun p hp l hl hlit => hs.kept p hp l (hl.alike hb) (hlit.alike hb ht.tree hs.tree) }

theorem Trail.scene (t : Trail o h ds w) (hs : Scene h.disk s files) : Scene w.disk s files := hs.turned t.now

/-! ### Runs -/

/-- The sources that can be told from a view are the given ones. -/
def Tells (d : Disk) (s : Settings) (files : List Path) (v : View) : Prop :=
  ∀ d', Turned d v d' → ∀ fs, Sources.listed d' s.sourceRoot s.extensions = .ok fs → fs = files

theorem Footing.tells (hf : Footing d s files) {v : View}
    (hv : ∀ p l, Sources.isListed s.extensions p = true → Spells d s.sourceRoot p l →
      ((∃ e, v l = some e ∧ e.isFile = true) ↔ ∃ e, d.get? l = some e ∧ e.isFile = true)) : Tells d s files v := by
  intro d' ht fs hl
  obtain ⟨hfiles, -⟩ := Sources.listing_of_listed hf.tree hf.listed
  obtain ⟨hfs, -⟩ := Sources.listing_of_listed ht.tree hl
  refine (hfiles.unique hfs fun p hp => ⟨?_, ?_⟩).symm
  · rintro ⟨l, e, hsp, hg, he⟩
    obtain ⟨e', hv', he'⟩ := (hv p l hp hsp).2 ⟨e, hg, he⟩
    exact ⟨l, e', hsp.alike ht.alike hf.tree ht.tree, by rw [ht.view, hv'], he'⟩
  · rintro ⟨l, e, hsp, hg, he⟩
    have hsp' := hsp.alike ht.alike.symm ht.tree hf.tree
    rw [ht.view] at hg
    obtain ⟨e', hv', he'⟩ := (hv p l hp hsp').1 ⟨e, hg, he⟩
    exact ⟨l, e', hsp', hv', he'⟩

theorem run_fresh (ro : o.ReadOnly) (hs : Scene h.disk s files)
    (hread : Progress.read h.disk s.progressFile = .ok .fresh) (hl : Tells h.disk s files h.disk.get?) :
    ∃ es r w', Course h.disk s files h.disk.get? none es r ∧ Trail o h es w' ∧
      Run.on (Sweep.run s o) (World.start h) = (ending r, w') := by
  obtain ⟨es, r, w', hc, t, hrun⟩ := sweepFrom_deeds ro hs none (Trail.start o hs.tree) hl
  refine ⟨es, r, w', hc, t, ?_⟩
  have hdisk : (World.start h).disk = h.disk := rfl
  simp only [Sweep.run, Run.on_bind, Run.on_lift, Work.on_disk, hdisk, hread, hrun]

theorem run_done (hd : Tree h.disk) (hread : Progress.read h.disk s.progressFile = .ok .done) :
    ∃ w', Trail o h [] w' ∧ Run.on (Sweep.run s o) (World.start h) = (.ok (.ok .alreadyComplete), w') := by
  refine ⟨_, (Trail.start o hd).emit ⟨.info, Sweep.target, "previous run already completed",
    [("progress", .path s.progressFile)]⟩, ?_⟩
  have hdisk : (World.start h).disk = h.disk := rfl
  simp only [Sweep.run, Run.on_bind, Run.on_lift, Work.on_disk, hdisk, hread]
  rfl

/-- A run that goes on at a path: its content is back before anything else happens, or nothing else does. -/
theorem run_recovered {m : Path} (ro : o.ReadOnly) (hs : Scene h.disk s files) (hm : NoLink h.disk m)
    (hb : Plain h.disk (backup m)) (hread : Progress.read h.disk s.progressFile = .ok (.inProgress m))
    (hl : ∀ back, Recovers h.disk h.disk.get? m back (.ok ()) → Tells h.disk s files (after h.disk.get? back)) :
    ∃ back r w', Recovers h.disk h.disk.get? m back r ∧
      (match r with
      | .error e => Trail o h back w' ∧ Run.on (Sweep.run s o) (World.start h) = (.ok (.error e), w')
      | .ok () => ∃ es r, Course h.disk s files (after h.disk.get? back) (some m) es r ∧ Trail o h (back ++ es) w' ∧
          Run.on (Sweep.run s o) (World.start h) = (ending r, w')) := by
  obtain ⟨back, r, w₁, hrec, t₁, hrun₁⟩ := recover_deeds (Trail.start o hs.tree) hm hb
  have hdisk : (World.start h).disk = h.disk := rfl
  cases r with
  | error e =>
    refine ⟨back, _, w₁, hrec, t₁, ?_⟩
    simp only [Sweep.run, Run.on_bind, Run.on_lift, Work.on_disk, hdisk, hread, hrun₁]
    rfl
  | ok u =>
    obtain ⟨es, r, w', hc, t', hrun⟩ := sweepFrom_deeds ro hs (some m) t₁ (hl back hrec)
    refine ⟨back, _, w', hrec, es, r, hc, t', ?_⟩
    simp only [Sweep.run, Run.on_bind, Run.on_lift, Work.on_disk, hdisk, hread, hrun₁, hrun]

theorem run_marked (ro : o.ReadOnly) (hs : Scene h.disk s files)
    (hread : Progress.read h.disk s.progressFile = .ok (.inProgress x.path)) {back : List Deed}
    (hx : back = [] ∧ x.In h.disk h.disk.get? ∨ back = x.recovery ∧ x.Caught h.disk h.disk.get?)
    (hl : Tells h.disk s files (after h.disk.get? back)) :
    ∃ es r w', Course h.disk s files (after h.disk.get? back) (some x.path) es r ∧ Trail o h (back ++ es) w' ∧
      Run.on (Sweep.run s o) (World.start h) = (ending r, w') := by
  have hrec : ∀ {es r}, Recovers h.disk h.disk.get? x.path es r → es = back ∧ r = .ok () := by
    intro es r hr
    rcases hx with ⟨rfl, hx⟩ | ⟨rfl, hx⟩
    · exact hr.of_in hx
    · exact hr.of_caught hx
  have hplain : ∀ q, q = x.path ∨ q = backup x.path → Plain h.disk q := by
    intro q hq dir n hl e hg
    rcases hx with ⟨-, hx⟩ | ⟨-, hx⟩ <;>
      rcases hx.fits.eq_of_touches ⟨q, dir, n, hq, hl, rfl⟩ with heq | heq <;> rw [heq] at hg
    · exact .inl ⟨_, _, Option.some.inj (hg.symm.trans hx.live)⟩
    · rw [hx.copy] at hg
      cases hg
    · obtain ⟨content, hlive⟩ := hx.live
      exact .inl ⟨_, _, Option.some.inj (hg.symm.trans hlive)⟩
    · obtain ⟨mode, hcopy, -⟩ := hx.copy
      exact .inl ⟨_, _, Option.some.inj (hg.symm.trans hcopy)⟩
  obtain ⟨back', r, w', hr, hrun⟩ := run_recovered ro hs (hplain _ (.inl rfl)).noLink (hplain _ (.inr rfl)) hread
    fun es hes => by
      obtain ⟨rfl, -⟩ := hrec hes
      exact hl
  obtain ⟨rfl, rfl⟩ := hrec hr
  exact hrun.imp fun es => fun ⟨r, h⟩ => ⟨r, w', h⟩

/-! ### Footings that can be checked -/

instance (n : Bytes) : Decidable (IsName n) :=
  decidable_of_iff (n ≠ [] ∧ Path.slash ∉ n ∧ n ≠ [Path.dot] ∧ n ≠ [Path.dot, Path.dot])
    ⟨fun ⟨a, b, c, d⟩ => ⟨a, b, c, d⟩, fun ⟨a, b, c, d⟩ => ⟨a, b, c, d⟩⟩

/-- What stands at a location, looked up in the list of entries. -/
def isDirAt (d : Disk) (l : Location) : Bool := (d.get? l).any Entry.isDir

theorem isDir_of_isDirAt (hl : isDirAt d l = true) : d.IsDir l := by
  rw [isDirAt] at hl
  cases hg : d.get? l with
  | none => simp [hg] at hl
  | some e =>
    cases e with
    | dir mode => exact ⟨mode, hg⟩
    | _ => simp [hg, Entry.isDir] at hl

def isOrdinary : Entry → Bool
  | .file .. | .dir _ => true
  | _ => false

/-- Only regular files and directories stand on the disk. -/
def Disk.Ordinary (d : Disk) : Prop := ∀ x ∈ d.entries, isOrdinary x.2 = true

/-- There is one entry for a location, under proper names, in a directory that is there too. -/
def Disk.Grown (d : Disk) : Prop := (d.entries.map (·.1)).Nodup ∧
  (∀ x ∈ d.entries, isDirAt d x.1.dropLast = true ∧ ∀ n ∈ x.1, IsName n) ∧ isDirAt d d.cwd = true

instance : Decidable d.Ordinary := inferInstanceAs (Decidable (∀ x ∈ d.entries, isOrdinary x.2 = true))

instance : Decidable d.Grown := inferInstanceAs (Decidable (_ ∧ _))

theorem plain_of_entries (ho : d.Ordinary) (p : Path) : Plain d p := by
  intro dir n _ e he
  have := ho _ (mem_of_get? he (by simp))
  cases e with
  | file mode content => exact .inl ⟨mode, content, rfl⟩
  | dir mode => exact .inr ⟨mode, rfl⟩
  | _ => cases this

theorem linkFree_of_entries (ho : d.Ordinary) : LinkFree d := fun l target hg => by
  by_cases hl : l = []
  · rw [hl, get?_root] at hg
    cases hg
  · cases ho _ (mem_of_get? hg hl)

theorem tree_of_entries (hd : d.Grown) : Tree d where
  nodup := hd.1
  parent {l e} hg := by
    by_cases hl : l = []
    · subst hl
      exact isDir_root d
    · exact isDir_of_isDirAt (hd.2.1 _ (mem_of_get? hg hl)).1
  name {l e} hg n hn := by
    have hl : l ≠ [] := List.ne_nil_of_mem hn
    exact (hd.2.1 _ (mem_of_get? hg hl)).2 n hn
  cwd := isDir_of_isDirAt hd.2.2

section
variable (hd : d.Grown) (ho : d.Ordinary) (haside : ∀ p ∈ files, d.locate p ≠ d.locate s.progressFile ∧
  d.locate (backup p) ≠ d.locate s.progressFile)
include hd ho haside

theorem RegularPaths.of_entries : RegularPaths d s files where
  tree := tree_of_entries hd
  progress := plain_of_entries ho _
  live _ _ := plain_of_entries ho _
  copy _ _ := plain_of_entries ho _
  aside := by
    rintro p hp _ ⟨q, dir', n', rfl | rfl, hl, rfl⟩ dir n hn
    · exact hl.ne_of_locate hn (haside _ hp).1
    · exact hl.ne_of_locate hn (haside _ hp).2

theorem TrialApart.of_entries (hshared : d.shared = []) : TrialApart d s files where
  toRegularPaths := .of_entries hd ho haside
  trial := plain_of_entries ho _
  tied := by simp [Tied, hshared]
  names dir n _ l hl hne := absurd (by simpa [twins, hshared] using hl) hne

/-- Where there are only regular files and directories, each under one name, and the progress is kept
beside the sources, a sweep may start. -/
theorem Footing.of_entries (hshared : d.shared = [])
    (hlisted : Sources.listed d s.sourceRoot s.extensions = .ok files) : Footing d s files where
  toTrialApart := .of_entries hd ho haside hshared
  listed := hlisted
  unspelled dir n _ l hl hne := absurd (by simpa [twins, hshared] using hl) hne

end

end Prune
