import Prune.Proofs.Minimality
import Prune.Proofs.Reopening

/-!
# Sweeping again

A sweep over sources of which no candidate line can go tries every candidate, is refused every time and leaves
all of them as they are (`Course.idle`). That is so when the progress of a completed sweep is taken away and the
sweep is started again, as long as there is something to start with (`completed_minimal_and_stable`).
-/

namespace Prune

open Disk Artefact Lines Workshop Function

variable {d d' : Disk} {p q : Path} {dir : Location} {n : Bytes} {v u : View} {ds es : List Deed} {x y : Lot}
  {l prog : Location} {s : Settings} {files : List Path} {m : Directive.Matcher} {call : BuildCall}
  {todo todo₀ : List (Path × Option Lot)} {c : Bytes} {mode : Nat} {o : Oracle} {h : Host} {w : World}
  {V : Set (Path × Nat) → Bool} {r : Sweep.Ending}
variable {summary : Sweep.Summary}

/-! ### A sweep that comes to nothing -/

/-- Trials come to nothing if every build fails that sees one more line blank. -/
theorem Tries.idle {P : View → Option Bool → Prop} {lines : List Bytes} {cs : List Pass.Candidate}
    {states : List State} {r : Pass.Result} (ht : Tries call l lines cs states ds r)
    (hv : ∃ c, v l = some (.file mode c)) (hask : Asked P v ds)
    (hP : ∀ c ∈ cs, ∀ u b, u l = some (.file mode (render lines (states.set c.index .blanked))) →
      (∀ k, k ≠ l → u k = v k) → P u b → b = some false) :
    ∃ findings, r = some (findings, states) ∧ ∀ f ∈ findings, f.removed = false := by
  obtain ⟨c₀, hv⟩ := hv
  have hne : ∀ {u : View} {content k}, k ≠ l → Deed.apply (.write l content) u k = u k := fun hk =>
    update_of_ne hk _ _
  induction ht generalizing v c₀ with
  | nil => exact ⟨[], rfl, by simp⟩
  | cut c => cases hP c (.head _) _ _ (apply_write_file hv) (fun k => hne) hask.tail.head
  | @cutLater c cs states passed ds ht ih =>
    obtain rfl : passed = false :=
      Option.some.inj (hP c (.head _) _ _ (apply_write_file hv) (fun k => hne) hask.tail.head)
    obtain ⟨-, ⟨⟩, -⟩ := ih hask.tail.tail
      (fun c' hc' u b hu hk => hP c' (.tail _ hc') u b hu fun k hkl => (hk k hkl).trans (hne hkl)) _
      (apply_write_file hv)
  | @step c cs states passed ds findings final ht ih =>
    obtain rfl : passed = false :=
      Option.some.inj (hP c (.head _) _ _ (apply_write_file hv) (fun k => hne) hask.tail.head)
    obtain ⟨findings', heq, hkept⟩ := ih hask.tail.tail
      (fun c' hc' u b hu hk => hP c' (.tail _ hc') u b hu fun k hkl => (hk k hkl).trans (hne hkl)) _
      (apply_write_file hv)
    cases heq
    exact ⟨_, rfl, List.forall_mem_cons.2 ⟨rfl, hkept⟩⟩

theorem Passes.idle {P : View → Option Bool → Prop} {r : Pass.Result}
    (hp : Passes m call x ds r) (hx : x.In d v) (hask : Asked P v ds)
    (hP : ∀ c ∈ Pass.candidates m x.lines, ∀ u b,
      u x.live = some (.file x.mode (render x.lines (x.untouched.set c.index .blanked))) →
      (∀ k, ¬ x.At k → u k = v k) → P u b → b = some false) :
    ∃ findings, r = some (findings, x.untouched) ∧ ∀ f ∈ findings, f.removed = false := by
  have hlive : Deed.apply (.write x.copy x.content) v x.live = some (.file x.mode x.content) := by
    rw [Deed.apply, update_of_ne hx.fits.live_ne_copy, hx.live]
  have hP' : ∀ c ∈ Pass.candidates m x.lines, ∀ u b,
      u x.live = some (.file x.mode (render x.lines (x.untouched.set c.index .blanked))) →
      (∀ k, k ≠ x.live → u k = Deed.apply (.write x.copy x.content) v k) → P u b → b = some false := by
    intro c hc u b hu hk
    refine hP c hc u b hu fun k hkx => ?_
    rw [hk k fun h => hkx (.inl h)]
    exact update_of_ne (fun h => hkx (.inr h)) _ _
  cases hp with
  | cut ht => exact ht.idle ⟨_, hlive⟩ hask.tail hP'
  | done ht => exact ht.idle ⟨_, hlive⟩ hask.tail.left.left hP'

/-- A build fails that sees the lots of a list as they were, but for a candidate line of one that is blank. -/
def Refuses (m : Directive.Matcher) (todo : List (Path × Option Lot)) (u : View) (b : Option Bool) : Prop :=
  ∀ p x, (p, some x) ∈ todo → ∀ c ∈ Pass.candidates m x.lines,
    u x.live = some (.file x.mode (render x.lines (x.untouched.set c.index .blanked))) →
    (∀ q y, (q, some y) ∈ todo → q ≠ p → u y.live = some (.file y.mode y.content)) → b = some false

/-- Taking sources leaves them as they are if every build is refused that goes without another line. -/
theorem Files.idle {r : Option Sweep.Summary} (hf : Files prog call m todo summary ds r)
    (hs : Spread prog todo₀) (hsub : todo.Sublist todo₀) (hin : ∀ p x, (p, some x) ∈ todo → x.In d v)
    (hstill : ∀ p x, (p, some x) ∈ todo₀ → v x.live = some (.file x.mode x.content))
    (hask : Asked (Refuses m todo₀) v ds) :
    (∃ summary', r = some summary' ∧ summary'.linesRemoved = summary.linesRemoved) ∧
      ∀ p x, (p, some x) ∈ todo₀ → after v ds x.live = some (.file x.mode x.content) := by
  have hmark : ∀ {v : View} (c : Bytes), (∀ p x, (p, some x) ∈ todo₀ → v x.live = some (.file x.mode x.content)) →
      ∀ p x, (p, some x) ∈ todo₀ → Deed.apply (.write prog c) v x.live = some (.file x.mode x.content) :=
    fun c h q y hy => (update_of_ne (fun h => hs.progress q y hy (.inl h.symm)) _ _).trans (h q y hy)
  have hpass : ∀ {p x ds r v}, Passes m call x ds r → (p, some x) ∈ todo₀ → x.In d v →
      (∀ p x, (p, some x) ∈ todo₀ → v x.live = some (.file x.mode x.content)) → Asked (Refuses m todo₀) v ds →
      ∃ findings, r = some (findings, x.untouched) ∧ ∀ f ∈ findings, f.removed = false := by
    intro p x ds r v hp hmem hx hstill hask
    refine hp.idle hx hask fun c hc u b hu hk hb => hb p x hmem c hc hu fun q y hy hne => ?_
    rw [hk y.live fun hat => hne (hs.apart q y p x _ hy hmem (.inl rfl) hat), hstill q y hy]
  have hin' : ∀ {p x v} (c : Bytes), (p, some x) ∈ todo₀ → x.In d v → x.In d (Deed.apply (.write prog c) v) :=
    fun c hx hin => hin.congr_at fun l hl => update_of_ne (by rintro rfl; exact hs.progress _ _ hx hl) _ _
  induction hf generalizing v with
  | nil => exact ⟨⟨_, rfl, rfl⟩, hstill⟩
  | @cut p x todo summary ds hp =>
    have hmem := hsub.subset (.head _)
    obtain ⟨-, ⟨⟩, -⟩ := hpass hp hmem (hin' _ hmem (hin p x (.head _))) (hmark _ hstill) hask.tail
  | @done p x todo summary ds es out r hp hf ih =>
    have hmem := hsub.subset (.head _)
    have hx := hin' p.text hmem (hin p x (.head _))
    obtain ⟨findings, hout, hkept⟩ := hpass hp hmem hx (hmark _ hstill) hask.tail.left
    cases hout
    obtain ⟨-, -, hlive⟩ := hp.last hx
    rw [x.result_untouched] at hlive
    have hstill' : ∀ q y, (q, some y) ∈ todo₀ →
        after (Deed.apply (.write prog p.text) v) ds y.live = some (.file y.mode y.content) := by
      intro q y hy
      by_cases hq : q = p
      · subst hq
        obtain rfl := Option.some.inj (hs.lot_unique hmem hy)
        exact hlive
      · rw [after_of_forall fun e he hloc => hq ?_, hmark _ hstill q y hy]
        exact hs.apart q y p x _ hy hmem (.inl rfl) (hp.location_eq e he _ hloc)
    rw [after_cons, after_append, after_cons]
    obtain ⟨⟨summary', hr, hsum⟩, hlast⟩ := ih ((List.sublist_cons_self ..).trans hsub)
      (fun q y hy => (hin q y (.tail _ hy)).congr_at fun l hl => (hs.sublist hsub).after_done hp hy hl v)
      (hmark _ hstill') hask.tail.right.tail
    have hnone : findings.filter (·.removed) = [] := List.filter_eq_nil_iff.2 fun f hf' => by simp [hkept f hf']
    exact ⟨⟨summary', hr, by simpa [Sweep.Summary.record, Pass.Report.removed, hnone] using hsum⟩, hlast⟩
  | @skip p todo summary es r e hf ih =>
    rw [after_cons, after_cons]
    have hmem : ∀ {q y}, (q, some y) ∈ todo → (q, some y) ∈ todo₀ := fun hy => hsub.subset (.tail _ hy)
    exact ih ((List.sublist_cons_self ..).trans hsub)
      (fun q y hy => hin' _ (hmem hy) (hin' _ (hmem hy) (hin q y (.tail _ hy))))
      (hmark _ (hmark _ hstill)) hask.tail.tail

theorem Trail.refused (t : Trail o h ds w) (hs : Scene h.disk s files) (htodo : Todo h.disk h.disk.get? todo)
    (hp : todo.map (·.1) = files) (hds : ∀ e ∈ ds, ∀ l ∈ e.location?, Concerns h.disk s h.disk.get? files l)
    (hirr : ∀ p x, (p, some x) ∈ todo → Irreducible o s files h.disk p) :
    Asked (Refuses s.matcher todo) h.disk.get? ds := by
  intro pre call b hpre p x hx c hc hlive hother
  obtain ⟨h', ht, rfl⟩ := t.asked pre call b hpre
  have hframe : Framed h.disk s files (after h.disk.get? pre) :=
    Framed.after (fun _ _ => rfl) fun e he => hds e (hpre.subset (List.mem_append_left _ he))
  obtain ⟨rfl, hin⟩ := htodo.lot p x hx
  obtain ⟨line, hline, hm⟩ := Pass.mem_candidates hc
  refine hirr _ x hx x.content (hin.fits.content?_live (.refl hs.tree) hin.live) c.index line hline hm .blanked (by simp)
    _ call h' (hin.fits.content?_live ht hlive) fun q hq hne => ?_
  obtain ⟨⟨_, _ | y⟩, hy, rfl⟩ := List.mem_map.1 (hp ▸ hq)
  · exact hframe.content?_eq hs ht hq (htodo.no_lot _ hy)
  · obtain ⟨rfl, hiny⟩ := htodo.lot _ y hy
    exact hiny.fits.content?_eq (hs.live _ hq).noLink ht (.refl hs.tree) ((hother _ y hy hne).trans hiny.live.symm)

/-- A sweep that gets past its opening, and is refused whatever it tries, is completed and leaves every lot as it
is. -/
theorem Course.idle (hf : Footing d s files) (hroot : NoLink d s.sourceRoot) (hopen : Reopens d s d.get?)
    (hw : ∃ dir n, Writable d s.progressFile dir n) (hc : Course d s files d.get? none ds r)
    (hpass : Asked (fun u b => u = d.get? → b = some true) d.get? ds)
    (hask : ∀ todo, Todo d d.get? todo → todo.map (·.1) = files → Asked (Refuses s.matcher todo) d.get? ds) :
    (∃ summary, r = some (.ok (.completed summary)) ∧ summary.linesRemoved = 0) ∧
      ∀ x : Lot, x.In d d.get? → x.path ∈ files → after d.get? ds x.live = d.get? x.live := by
  have hs := hf.scene
  cases hc with
  | cut | unfit => cases hpass.head rfl
  | unlisted hes he =>
    obtain ⟨d', ht, he⟩ := he
    obtain ⟨fs, hfs⟩ := hopen.listed hf hroot ht
    rw [hfs] at he
    cases he
  | uncopied hes hgone hf =>
    obtain ⟨d', ht, hf⟩ := hf
    obtain ⟨d'', hcopy⟩ := hopen.copied hs hes hgone ht
    rw [hcopy] at hf
    cases hf
  | @taken es fs k todo r ho ht hp hk =>
    rw [Sweep.resumeIndex, List.drop_zero] at hp
    have hask := (hask todo ht hp).tail.right
    have hsub : ∀ p ∈ todo.map (·.1), p ∈ files := fun p hp' => hp ▸ hp'
    have ht' := hs.todo_opening ho ht hsub
    obtain ⟨dir, n, rfl, hl, -⟩ := ho.trial
    have hidle : ∀ {dir' n' fs r'}, Writable d s.progressFile dir' n' →
        Files (dir' ++ [n']) (Sweep.trialCall s) s.matcher todo .empty fs r' →
        Asked (Refuses s.matcher todo) (after d.get? es) fs →
        (∃ summary, r' = some summary ∧ summary.linesRemoved = 0) ∧
          ∀ p x, (p, some x) ∈ todo → after (after d.get? es) fs x.live = some (.file x.mode x.content) :=
      fun hw hf hask => hf.idle (hs.spread ht' hsub (hp ▸ hs.nodup) hw.leads) (.refl _)
        (fun p x hx => (ht'.lot p x hx).2) (fun p x hx => (ht'.lot p x hx).2.live) hask
    cases hk with
    | unkept hno =>
      obtain ⟨dir', n', hw⟩ := hw
      exact absurd hw (hno dir' n')
    | cut hw hf => obtain ⟨⟨-, ⟨⟩, -⟩, -⟩ := hidle hw hf hask
    | @done dir' n' fs gs summary hw hf hg =>
      obtain ⟨⟨summary', heq, hsum⟩, hlast⟩ := hidle hw hf hask.left
      cases heq
      refine ⟨⟨_, rfl, hsum⟩, fun x hx hmem => ?_⟩
      have hgs : ∀ e ∈ gs, e = .erase (dir ++ [n]) := by
        rcases hg with ⟨rfl, -⟩ | ⟨rfl, -⟩ <;> simp
      rw [after_cons, after_append, after_append, Deed.apply_build,
        hs.eq_of_no_lot (v := d.get?) (finish_concerns hw.leads ⟨dir, n, hl, rfl⟩ hgs) hmem (hx.fits.touches (.inl rfl)),
        hlast _ x (ht.mem_of_in hx (hp ▸ hmem)), hx.live]

theorem idle_run (hf : Footing h.disk s files) (hroot : NoLink h.disk s.sourceRoot) (ro : o.ReadOnly)
    (hopen : Reopens h.disk s h.disk.get?) (hw : ∃ dir n, Writable h.disk s.progressFile dir n)
    (hread : Progress.read h.disk s.progressFile = .ok .fresh)
    (hpass : ∀ n call (h' : Host), (∀ p ∈ files, h'.disk.content? p = h.disk.content? p) →
      (o n call h').verdict = some true)
    (hirr : ∀ x : Lot, x.In h.disk h.disk.get? → x.path ∈ files → Irreducible o s files h.disk x.path) :
    ∃ summary w, Run.on (Sweep.run s o) (World.start h) = (.ok (.ok (.completed summary)), w) ∧
      summary.linesRemoved = 0 ∧ ∀ p ∈ files, w.disk.file? p = h.disk.file? p := by
  have hs := hf.scene
  obtain ⟨es, r, w, hc, t, hrun⟩ := run_fresh ro hs hread (hf.tells fun _ _ _ _ => Iff.rfl)
  have hds : ∀ e ∈ es, ∀ l ∈ e.location?, Concerns h.disk s h.disk.get? files l := by
    simpa [Sweep.resumeIndex] using hc.concerns
  have hbase : Asked (fun u b => u = h.disk.get? → b = some true) h.disk.get? es := by
    intro pre call b hpre hview
    obtain ⟨h', ht, rfl⟩ := t.asked pre call b hpre
    refine hpass _ call h' fun p hp => ?_
    refine content?_congr hs.tree ht.tree ht.alike (hs.live p hp).noLink fun dir n _ => ?_
    rw [ht.view, hview]
  obtain ⟨⟨summary, rfl, hsum⟩, hlots⟩ := hc.idle hf hroot hopen hw hbase fun todo htodo hp =>
    t.refused hs htodo hp hds fun p x hx => by
      obtain ⟨rfl, hin⟩ := htodo.lot p x hx
      exact hirr x hin (hp ▸ List.mem_map.2 ⟨_, hx, rfl⟩)
  refine ⟨summary, w, hrun, hsum, fun p hp => ?_⟩
  refine file?_congr hs.tree t.now.tree t.now.alike (hs.live p hp).noLink fun dir n hl => ?_
  rw [t.now.view]
  have htouch : Touches h.disk p (dir ++ [n]) := ⟨p, dir, n, .inl rfl, hl, rfl⟩
  by_cases hx : ∃ x : Lot, x.In h.disk h.disk.get? ∧ x.path = p
  · obtain ⟨x, hx, rfl⟩ := hx
    obtain ⟨⟨dir', n', hlive, -, hw', -⟩, -⟩ := hx.fits
    obtain ⟨rfl, rfl⟩ := hw'.leads.unique hl
    rw [← hlive]
    exact hlots x hx hp
  · exact hs.eq_of_concerns hds (fun _ => id) hp (fun x hx' _ hpath => hx ⟨x, hx', hpath⟩) htouch _

/-! ### When the progress is taken away -/

/-- What a completed sweep says about the disk it began on, and leaves. -/
structure Finished (d : Disk) (s : Settings) (files : List Path) (mode : Nat) (v : View) : Prop where
  made : Made d s files v
  project : Project d s mode d.get?
  readable : allows mode readBit = true
  opened : Openable d s d.get?
  progress : ∃ dir n, Writable d s.progressFile dir n
  ended : Ended d s mode v
  lots : ∀ x : Lot, x.In d d.get? → x.path ∈ files → v x.copy = none ∧ ∃ c, v x.live = some (.file x.mode c)

theorem Course.finished (hf : Footing d s files) (ha : Apart d s) (hp : Plain d s.project)
    (hc : Course d s files d.get? none ds (some (.ok (.completed summary)))) :
    ∃ mode, Finished d s files mode (after d.get? ds) := by
  have hs := hf.scene
  have hmade : Made d s files (after d.get? ds) := by
    refine (Made.start d s files).after ?_
    simpa [Sweep.resumeIndex] using hc.does
  have hlots : ∀ x : Lot, x.In d d.get? → x.path ∈ files →
      after d.get? ds x.copy = none ∧ ∃ c, after d.get? ds x.live = some (.file x.mode c) := by
    intro x hx hmem
    obtain ⟨hcopy, c, hlive, -⟩ := (hc.last hs hx hmem).resolve_right (by simp)
    exact ⟨hcopy, c, hlive⟩
  cases hc with
  | @taken es fs k todo r ho ht hpaths hk =>
    rw [Sweep.resumeIndex, List.drop_zero] at hpaths
    obtain ⟨mode, hproject, hread⟩ := ho.exists_project hp
    obtain ⟨mode', c, hplaced, hbit⟩ := ho.placed hs.tree hs.tree (.refl d) hproject
    cases hk with
    | @done dir n fs gs summary hw hf hg =>
      refine ⟨mode, hmade, hproject, hread, ho.openable hs, ⟨dir, n, hw⟩, ?_, hlots⟩
      rw [after_cons, after_append, Deed.apply_build]
      exact ho.ended hs ht (fun p hp' => hpaths ▸ hp') hplaced hbit hw (ha.untried _ _ hw.leads) hf hg

namespace Finished

theorem trial_before (hv : Finished d s files mode v) (hl : Leads d s.trialProject dir n) (hg : v (dir ++ [n]) ≠ none) :
    ∃ mode' c, d.get? (dir ++ [n]) = some (.file mode' c) ∧ ¬ Litter d s.sourceRoot (dir ++ [n]) := by
  obtain ⟨hslash, dir', n', hl', hended⟩ := hv.ended.trial
  obtain ⟨rfl, rfl⟩ := hl'.unique hl
  obtain ⟨-, hrm⟩ := hended.resolve_left fun h => hg h.1
  have halter : d.mayAlter dir ≠ true := fun h => hrm dir n ⟨hl, hslash, h⟩
  obtain ⟨dir', n', hl', -, hopen⟩ := hv.opened
  obtain ⟨rfl, rfl⟩ := hl'.unique hl
  rcases hopen with ⟨hlit, -⟩ | ⟨hlit, ⟨-, h⟩ | ⟨mode', c, hfile, -⟩⟩
  · exact absurd hlit.alter halter
  · exact absurd h halter
  · exact ⟨mode', c, hfile, hlit⟩

/-- The project is the same file without the progress, if it is still there. -/
theorem project_there (hu : d.Unlinked s.project s.trialProject) (hproject : NoLink d s.project) (hv : Finished d s files mode v)
    (ht : Turned d (update v (dir ++ [n]) none) d') (hp : d'.exists? s.project = true) :
    Project d s mode d'.get? := by
  obtain ⟨dir', n', c, hl', hslash, hg, hlit⟩ := hv.project.made hu hv.made
  refine ⟨dir', n', c, hl', hslash, ?_, hlit⟩
  have hthere := ((hl'.alike ht.alike).exists?_iff hslash (hproject.alike ht.alike)).1 hp
  rw [ht.view] at hthere ⊢
  rw [update_of_ne fun heq => ?_, hg]
  rw [heq, update_self] at hthere
  exact hthere rfl

/-- Without the progress, a sweep gets past its opening again if the root and the project are there, and the trial
project is gone or may be written. -/
theorem reopens (hf : Footing d s files) (ha : Apart d s) (hroot : NoLink d s.sourceRoot)
    (hv : Finished d s files mode v) (hl : Leads d s.progressFile dir n)
    (ht : Turned d (update v (dir ++ [n]) none) d') (hr : d'.exists? s.sourceRoot = true)
    (hp : Project d s mode d'.get?) (htrial : d'.exists? s.trialProject = false ∨ allows mode writeBit = true) :
    Reopens d s d'.get? := by
  obtain ⟨-, hvalid⟩ := Sources.listing_of_listed hf.tree hf.listed
  have hstill : ∀ {k}, k ≠ dir ++ [n] → d'.get? k = v k := fun hk => by
    rw [ht.view]
    exact update_of_ne hk _ _
  refine ⟨fun l hsp _ => ?_, fun p l e hsp hg he => ?_, ⟨mode, hp, hv.readable⟩, ?_⟩
  · obtain ⟨hslash, dir', n', hl', rfl⟩ := hsp.leads_root rfl
    exact ((hl'.alike ht.alike).exists?_iff hslash (hroot.alike ht.alike)).1 hr
  · have hne : l ≠ dir ++ [n] := by
      rintro rfl
      rw [ht.view, update_self] at hg
      cases hg
    rw [hstill hne] at hg
    rcases hv.made.cases l with h | h | ⟨dir', n', hl', rfl⟩ | ⟨dir', n', hl', hmem⟩ | ⟨x, hx, hmem, rfl | rfl⟩
    · exact hvalid p l e hsp (h ▸ hg) he
    · rw [h] at hg
      cases hg
    · obtain ⟨rfl, rfl⟩ := hl.unique hl'
      exact absurd rfl hne
    · by_cases heq : l = dir' ++ [n']
      · subst heq
        obtain ⟨mode', c, hfile, -⟩ := hv.trial_before hl' (by simp [hg])
        exact hvalid p _ _ hsp hfile rfl
      · obtain ⟨mode', c, hfile⟩ := hf.tied.file hmem heq
        exact hvalid p l _ hsp hfile rfl
    · exact hvalid p _ _ hsp hx.live rfl
    · rw [(hv.lots x hx hmem).1] at hg
      cases hg
  · obtain ⟨hslash, dir', n', hl', hended⟩ := hv.ended.trial
    have hg := hstill (ha.untried dir n hl dir' n' hl').symm
    refine ⟨dir', n', hl', hslash, ?_⟩
    rw [hg]
    rcases hended with ⟨hnone, dir'', n'', hrm⟩ | ⟨⟨mode', c, hfile, hbit⟩, -⟩
    · obtain ⟨rfl, rfl⟩ := hrm.leads.unique hl'
      by_cases hlit : Litter d s.sourceRoot (dir' ++ [n'])
      · exact .inl ⟨hlit, by simp [hnone]⟩
      · exact .inr ⟨hlit, .inl ⟨hnone, hrm.alter⟩⟩
    · obtain ⟨-, -, -, hlit⟩ := hv.trial_before hl' (by simp [hfile])
      have hw : allows mode writeBit = true := by
        refine htrial.resolve_left fun h => ?_
        rw [hfile] at hg
        simp [Disk.exists?, (hl'.alike ht.alike).stat_some hslash hg (by simp), Except.isOk, Except.toBool] at h
      exact .inr ⟨hlit, .inr ⟨mode', c, hfile, hbit.trans hw⟩⟩

end Finished

theorem Reopens.turned (ht : Turned d v d') (hd : Tree d) (hr : Reopens d s d'.get?) : Reopens d' s d'.get? := by
  obtain ⟨-, htext, ⟨mode, ⟨dir, n, c, hl, hslash, hg, hlit⟩, hread⟩, dir', n', hl', hslash', hopen⟩ := hr
  have hlitter : ∀ {k}, Litter d' s.sourceRoot k ↔ Litter d s.sourceRoot k :=
    ⟨fun h => h.alike ht.alike.symm ht.tree hd, fun h => h.alike ht.alike hd ht.tree⟩
  refine ⟨fun _ _ hg => hg, fun p l e hsp => htext p l e (hsp.alike ht.alike.symm ht.tree hd),
    ⟨mode, ⟨dir, n, c, hl.alike ht.alike, hslash, hg, hlitter.not.2 hlit⟩, hread⟩, dir', n', hl'.alike ht.alike, hslash', ?_⟩
  rwa [hlitter, ht.alike.mayAlter]

theorem Footing.turned (hf : Footing d s files) (ht : Turned d v d') (hplain : ∀ p, Plain d p → Plain d' p)
    (hlisted : Sources.listed d' s.sourceRoot s.extensions = .ok files) : Footing d' s files where
  tree := ht.tree
  listed := hlisted
  progress := hplain _ hf.progress
  trial := hplain _ hf.trial
  tied := ht.tied hf.tied
  names dir n hl l hmem hne p hp htouch :=
    hf.names dir n (hl.alike ht.alike.symm) l (ht.sharing.twins hmem) hne p hp (htouch.alike ht.alike.symm)
  unspelled dir n hl l hmem hne p hp hsp :=
    hf.unspelled dir n (hl.alike ht.alike.symm) l (ht.sharing.twins hmem) hne p hp
      (hsp.alike ht.alike.symm ht.tree hf.tree)
  live p hp := hplain _ (hf.live p hp)
  copy p hp := hplain _ (hf.copy p hp)
  aside p hp l hl dir n hn := hf.aside p hp l (hl.alike ht.alike.symm) dir n (hn.alike ht.alike.symm)

namespace Finished

theorem framed (hv : Finished d s files mode v) (hl : Leads d s.progressFile dir n)
    (ht : Turned d (update v (dir ++ [n]) none) d') : Framed d s files d'.get? := by
  have hadd : ∀ e ∈ [Deed.erase (dir ++ [n])], ∀ k ∈ e.location?, Concerns d s d.get? files k := by
    simpa [Deed.location?] using .inr (.inr (.inl ⟨dir, n, hl, rfl⟩))
  rw [ht.view]
  exact hv.made.framed.after hadd

theorem footing (hf : Footing d s files) (ha : Apart d s) (hroot : NoLink d s.sourceRoot)
    (hv : Finished d s files mode v) (hl : Leads d s.progressFile dir n)
    (ht : Turned d (update v (dir ++ [n]) none) d') (hplain : ∀ p, Plain d p → Plain d' p)
    (hopen : Reopens d s d'.get?) : Footing d' s files := by
  have hview : Turned d d'.get? d' := ht.view ▸ ht
  obtain ⟨fs, hfs⟩ := hopen.listed hf hroot hview
  obtain rfl := (hv.framed hl ht).tells hf ha (fun x hx hmem => by
    rw [ht.view, update_of_ne (hf.aside _ hmem _ (hx.fits.touches (.inl rfl)) dir n hl)]
    exact (hv.lots x hx hmem).2) _ hview fs hfs
  exact hf.turned ht hplain hfs

end Finished

theorem Files.notStarted {summary summary' : Sweep.Summary} (hf : Files prog call m todo summary ds (some summary'))
    (hp : p ∈ summary.notStarted ∨ (p, none) ∈ todo) : p ∈ summary'.notStarted := by
  generalize hr : some summary' = r at hf
  induction hf with
  | nil =>
    cases hr
    simpa using hp
  | cut => cases hr
  | done _ _ ih =>
    refine ih ?_ hr
    simpa [Sweep.Summary.record] using hp
  | @skip q _ _ _ _ _ _ ih =>
    refine ih ?_ hr
    rcases hp with hp | hp
    · simp [Sweep.Summary.record, hp]
    · rcases List.mem_cons.1 hp with heq | hp
      · cases heq
        simp [Sweep.Summary.record]
      · exact .inr hp

theorem Course.notStarted
    (hc : Course d s files d.get? none ds (some (.ok (.completed summary)))) (hp : p ∈ files)
    (hno : ∀ x : Lot, x.In d d.get? → x.path ≠ p) : p ∈ summary.notStarted := by
  cases hc with
  | @taken es fs k todo r ho ht hpaths hk =>
    rw [Sweep.resumeIndex, List.drop_zero] at hpaths
    obtain ⟨⟨_, _ | x⟩, hx, rfl⟩ := List.mem_map.1 (hpaths ▸ hp)
    · cases hk with
      | done _ hf => exact hf.notStarted (.inr hx)
    · obtain ⟨rfl, hin⟩ := ht.lot _ x hx
      exact absurd rfl (hno x hin)

theorem Disk.Plain.erased (hp : Plain d p) (ht : Turned d (update d.get? l none) d') : Plain d' p := by
  intro dir n hl e hg
  rw [ht.view] at hg
  by_cases heq : dir ++ [n] = l
  · rw [heq, update_self] at hg
    cases hg
  · rw [update_of_ne heq] at hg
    exact hp dir n (hl.alike ht.alike.symm) e hg

/-- If a build that passes still passes with more lines, a completed sweep leaves no candidate line that can go in
any source that it could take. Its progress can be taken away, and then another sweep removes no line, is completed
and leaves each source the same file, if the root and the project are still there, and the trial project is gone
or may be overwritten by the copy of a project that may be written. -/
theorem completed_minimal_and_stable {summary : Sweep.Summary} (hf : Footing h.disk s files) (ha : Apart h.disk s)
    (hroot : NoLink h.disk s.sourceRoot) (hproject : Plain h.disk s.project)
    (hu : h.disk.Unlinked s.project s.trialProject) (ro : o.ReadOnly)
    (hj : o.Judges h.disk s files V) (hV : ∀ S T, S ⊆ T → V S = true → V T = true)
    (hread : Progress.read h.disk s.progressFile = .ok .fresh)
    (hrun : Run.on (Sweep.run s o) (World.start h) = (.ok (.ok (.completed summary)), w)) :
    (∀ p ∈ files, p ∉ summary.notStarted → Irreducible o s files w.disk p) ∧
    (∃ d₂, w.disk.remove s.progressFile = .ok d₂) ∧
    ∀ h₂ : Host, w.disk.remove s.progressFile = .ok h₂.disk → h₂.disk.exists? s.sourceRoot = true →
      h₂.disk.exists? s.project = true → (h₂.disk.exists? s.trialProject = false ∨
        ∃ mode c, h₂.disk.stat s.project = .ok (.file mode c) ∧ allows mode writeBit = true) →
      ∃ summary₂ w₂, Run.on (Sweep.run s o) (World.start h₂) = (.ok (.ok (.completed summary₂)), w₂) ∧
        summary₂.linesRemoved = 0 ∧ ∀ p ∈ files, w₂.disk.file? p = w.disk.file? p := by
  have hs := hf.scene
  obtain ⟨ds, hc, t, hds⟩ := completed_course hf ro hread hrun
  obtain ⟨todo, htodo, hp, hnew, hshows, hpass⟩ := hc.shows hs hj.judgesOrCuts t hds
  obtain ⟨mode, hfin⟩ := hc.finished hf ha hproject
  -- every lot is irreducible in the end
  have hirr : ∀ x : Lot, x.In h.disk h.disk.get? → x.path ∈ files → Irreducible o s files w.disk x.path := by
    intro x hx hmem
    exact hshows.irreducible hj hV (hp ▸ hs.nodup) hnew (htodo.mem_of_in hx (hp ▸ hmem)) hmem
      (hx.fits.content?_live (.refl hs.tree) hx.live)
  -- what there is when the progress has been taken away
  obtain ⟨dir, n, hw⟩ := hfin.progress
  obtain ⟨-, dir', n', pmode, hl', hg⟩ := hfin.ended.sentinel
  obtain ⟨rfl, rfl⟩ := hl'.unique hw.leads
  rw [← t.now.view] at hg
  obtain ⟨d₂, hrm, ht⟩ := remove_ok t.now.tree (hw.removable.alike t.now.alike) hg (bone_file ..)
  refine ⟨fun p hmem hstarted => ?_, ⟨d₂, hrm⟩, fun h₂ hrm₂ hroot₂ hproject₂ htrial₂ => ?_⟩
  · by_contra hno
    refine hstarted (hc.notStarted hmem fun x hx hpath => hno ?_)
    subst hpath
    exact hirr x hx hmem
  obtain rfl : d₂ = h₂.disk := Except.ok.inj (hrm.symm.trans hrm₂)
  have hturned := t.now.trans ht
  rw [t.now.view] at hturned
  have hthere := hfin.project_there hu hproject.noLink hturned hproject₂
  have hopen : Reopens h.disk s h₂.disk.get? := by
    refine hfin.reopens hf ha hroot hw.leads hturned hroot₂ hthere (htrial₂.imp_right ?_)
    rintro ⟨mode', c, hstat, hwrite⟩
    obtain ⟨dir', n', c', hl', hslash, hg', -⟩ := hthere
    rw [(hl'.alike hturned.alike).stat_some hslash hg' (by simp), Except.ok.injEq, Entry.file.injEq] at hstat
    rwa [hstat.1]
  have hfoot := hfin.footing hf ha hroot hw.leads hturned (fun p hp => (t.plain hp).erased ht) hopen
  have hstill : ∀ p ∈ files, ∀ dir' n', Leads w.disk p dir' n' → h₂.disk.get? (dir' ++ [n']) = w.disk.get? (dir' ++ [n']) := by
    intro p hmem dir' n' hl
    rw [ht.view]
    exact update_of_ne
      (hs.aside p hmem _ ⟨p, dir', n', .inl rfl, hl.alike t.now.alike.symm, rfl⟩ dir n hw.leads) _ _
  have hlink : ∀ p ∈ files, NoLink w.disk p := fun p hmem => (hs.live p hmem).noLink.alike t.now.alike
  have hcontent : ∀ p ∈ files, h₂.disk.content? p = w.disk.content? p := fun p hmem =>
    content?_congr t.now.tree ht.tree ht.alike (hlink p hmem) (hstill p hmem)
  have hfresh : Progress.read h₂.disk s.progressFile = .ok .fresh := by
    have hgone : h₂.disk.get? (dir ++ [n]) = none := by rw [ht.view, update_self]
    simp [Progress.read, readText, Disk.read, (hw.leads.alike hturned.alike).stat_none hw.slash hgone, bind,
      Except.bind]
  obtain ⟨summary₂, w₂, hrun₂, hsum, hsame⟩ := idle_run hfoot (hroot.alike hturned.alike) ro
    (hopen.turned hturned hs.tree) ⟨dir, n, hw.alike hturned.alike⟩ hfresh (fun n call h' hh' => by
      rw [hj n call h' _ fun p hmem c hc => ?_, hpass]
      exact ⟨(hshows p hmem c hc).1, ((hh' p hmem).trans (hcontent p hmem)).trans (hshows p hmem c hc).2⟩)
    fun x hx hmem => by
      obtain ⟨x₀, hx₀, hpath⟩ := (hfin.framed hw.leads hturned).exists_lot hs hturned.alike hx hmem
      rw [← hpath] at hmem ⊢
      exact (hirr x₀ hx₀ hmem).congr hmem hcontent
  exact ⟨summary₂, w₂, hrun₂, hsum, fun p hmem => (hsame p hmem).trans
    (file?_congr t.now.tree ht.tree ht.alike (hlink p hmem) (hstill p hmem))⟩

/-- In the workshop the line that is needed cannot go, and a second sweep removes nothing. -/
theorem completed_minimal_and_stable_workshop : ∃ w h₂ summary₂ w₂,
    Run.on (Sweep.run settings (.looking builds)) (World.start (.ofDisk (workshop 0o644))) =
      (.ok (.ok (.completed ⟨2, 2, [], [], []⟩)), w) ∧
    w.disk.content? first = some (Bytes.ofString "#include <b>\nint x;\n") ∧
    Irreducible (.looking builds) settings [first, second] w.disk first ∧
    w.disk.remove settings.progressFile = .ok h₂.disk ∧
    Run.on (Sweep.run settings (.looking builds)) (World.start h₂) =
      (.ok (.ok (.completed summary₂)), w₂) ∧ summary₂.linesRemoved = 0 ∧
    ∀ p ∈ [first, second], w₂.disk.file? p = w.disk.file? p := by
  obtain ⟨w, hout, hcontent, hleft⟩ := completed
  obtain ⟨hmin, ⟨d₂, hrm⟩, hagain⟩ := completed_minimal_and_stable footing aloof.toApart
    restartable.root restartable.project restartable.unlinked (Oracle.readOnly_looking _) judges
    (fun S T hST h => by simpa using hST (by simpa using h)) read_fresh hout
  simp only [hrm, Except.toOption, Option.any_some, Bool.and_eq_true, Bool.not_eq_true'] at hleft
  obtain ⟨summary₂, w₂, hrun₂, hsum, hsame⟩ := hagain (.ofDisk d₂) hrm hleft.1.1 hleft.1.2 (.inl hleft.2)
  exact ⟨w, .ofDisk d₂, summary₂, w₂, hout, hcontent, hmin _ (by simp) (by simp), hrm, hrun₂, hsum, hsame⟩

namespace Workshop

/-- A workshop whose project is empty. -/
def hollow : Disk where
  entries := [(["w"], .dir 0o755),
    (["w", "app.vcxproj"], .file 0o644 []),
    (["w", "src"], .dir 0o755),
    (["w", "src", "a.cpp"], .file 0o644 "#include <a>\n")]
  cwd := ["w"]

/-- A workshop whose project must not be written, with an old trial project, in a directory that must not be
altered. -/
def barred : Disk where
  entries := [(["w"], .dir 0o755),
    (["w", "p"], .dir 0o555),
    (["w", "p", "app.vcxproj"], .file 0o444 "<Project/>\n"),
    (["w", "p", "app.sweeper-trial.vcxproj"], .file 0o644 []),
    (["w", "src"], .dir 0o755),
    (["w", "src", "a.cpp"], .file 0o644 "#include <a>\n")]
  cwd := ["w"]

/-- How a sweep ends, and how another one ends when the progress has been taken away. -/
def twice (s : Settings) (d : Disk) (verdict : Disk → Bool) :
    Except Interrupted (Except Sweep.Problem Sweep.Outcome) ×
      Option (Except Interrupted (Except Sweep.Problem Sweep.Outcome)) :=
  let (result, h) := (Host.ofDisk d).sweep s (.looking verdict)
  (result, (h.disk.remove s.progressFile).toOption.map fun d₂ => ((Host.ofDisk d₂).sweep s (.looking verdict)).1)

end Workshop

/-- A second sweep is not completed where the progress was kept in the project, which is gone with it; nor where the
trial project could not be taken away, and is now a copy that must not be written; nor where it was a source under
another name, so that the first sweep has copied the project over that source. -/
theorem not_stable_without_project_or_over_trial :
    twice { settings with progressFile := settings.project } hollow (fun _ => true) =
      (.ok (.ok (.completed ⟨1, 1, [], [], []⟩)),
        some (.ok (.error (.trialProject settings.trialProject .notFound)))) ∧
    twice { Settings.ofProject (.ofString "cl") (.ofString "p/app.vcxproj") "Debug" (.ofString "src") with
        progressFile := .ofString "progress" } barred (fun _ => true) =
      (.ok (.ok (.completed ⟨1, 1, [], [], []⟩)),
        some (.ok (.error (.trialProject (.ofString "p/app.sweeper-trial.vcxproj") .denied)))) ∧
    twice settings doubled builds =
      (.ok (.ok (.completed ⟨2, 0, [], [], []⟩)), some (.ok (.error (.baselineFailed settings.project)))) := by
  decide +kernel

end Prune
