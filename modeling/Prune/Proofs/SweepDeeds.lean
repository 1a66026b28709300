import Prune.Proofs.FindDeeds
import Prune.Proofs.PassDeeds

/-!
# The deeds of a sweep

`Files` says what is done for the sources that are left, each with its lot if it is one, and `Course`
what a whole sweep does behind the resume point, for any verdicts: the baseline build, temporaries
erased, the trial project placed, the sources, the sentinel. Sources stay out of each other's way and of
the way of everything else (`Touches`, `Scene`), so a source is the same lot when its turn comes that it
was before.
-/

namespace Prune

open Disk Artefact

variable {d d' : Disk} {p q : Path} {dir : Location} {n : Bytes} {v u : View} {o : Oracle} {h : Host}
  {ds es : List Deed} {w : World} {x : Lot} {l : Location} {s : Settings} {files : List Path}
variable {k : Location} {taken : List Path} {todo : List (Path × Option Lot)}

/-! ### Sources apart from each other -/

/-- The places of a source and of its backup. -/
def Touches (d : Disk) (p : Path) (l : Location) : Prop :=
  ∃ q dir n, (q = p ∨ q = backup p) ∧ Leads d q dir n ∧ l = dir ++ [n]

theorem Touches.alike (ha : Alike d d') (ht : Touches d p l) : Touches d' p l := by
  obtain ⟨q, dir, n, hq, hl, h⟩ := ht
  exact ⟨q, dir, n, hq, hl.alike ha, h⟩

theorem Lot.Fits.touches_live (hx : x.Fits d) : Touches d x.path x.live := by
  obtain ⟨⟨dir, n, hl, -, hw, -⟩, -⟩ := hx
  exact ⟨_, dir, n, .inl rfl, hw.leads, hl⟩

theorem Lot.Fits.touches_copy (hx : x.Fits d) : Touches d x.path x.copy := by
  obtain ⟨⟨dir, n, -, hc, -, hw⟩, -⟩ := hx
  exact ⟨_, dir, _, .inr rfl, hw.leads, hc⟩

def Lot.At (x : Lot) (l : Location) : Prop := l = x.live ∨ l = x.copy

theorem Lot.Fits.touches (hx : x.Fits d) (hl : x.At l) : Touches d x.path l := by
  rcases hl with rfl | rfl
  · exact hx.touches_live
  · exact hx.touches_copy

theorem Lot.Fits.eq_of_touches (hx : x.Fits d) (hl : Touches d x.path l) : x.At l := by
  obtain ⟨⟨dir, n, hlive, hcopy, hw, hw'⟩, -⟩ := hx
  obtain ⟨q, dir', n', rfl | rfl, hleads, rfl⟩ := hl
  · obtain ⟨rfl, rfl⟩ := hw.leads.unique hleads
    exact .inl hlive.symm
  · obtain ⟨rfl, rfl⟩ := hw'.leads.unique hleads
    exact .inr hcopy.symm

theorem Lot.In.congr (hx : x.In d v) (hu : ∀ l, Touches d x.path l → u l = v l) : x.In d u :=
  ⟨hx.fits, by rw [hu _ hx.fits.touches_live, hx.live], by rw [hu _ hx.fits.touches_copy, hx.copy]⟩

/-- At the places of some files, of their backups and of the progress there are only regular files and
directories, if anything, and the progress is none of these files. -/
structure RegularPaths (d : Disk) (s : Settings) (files : List Path) : Prop where
  tree : Tree d
  progress : Plain d s.progressFile
  live : ∀ p ∈ files, Plain d p
  copy : ∀ p ∈ files, Plain d (backup p)
  aside : ∀ p ∈ files, ∀ l, Touches d p l → ∀ dir n, Leads d s.progressFile dir n → l ≠ dir ++ [n]

/-- The trial project is a regular file or a directory, if anything. It may have further names, under which the
project is copied to it too, but no source and no backup is one of them. -/
structure TrialApart (d : Disk) (s : Settings) (files : List Path) : Prop extends RegularPaths d s files where
  trial : Plain d s.trialProject
  tied : Tied d
  names : ∀ dir n, Leads d s.trialProject dir n → ∀ l ∈ d.twins (dir ++ [n]), l ≠ dir ++ [n] →
    ∀ p ∈ files, ¬ Touches d p l

/-- What a sweep counts on: every source is apart from the others, from the trial project under all its names, and
from what is taken away. -/
structure Scene (d : Disk) (s : Settings) (files : List Path) : Prop extends RegularPaths d s files where
  nodup : files.Nodup
  trial : Plain d s.trialProject
  sited : ∀ dir n, Leads d s.trialProject dir n → SitedAt d (dir ++ [n])
  apart : ∀ p ∈ files, ∀ q ∈ files, ∀ l, Touches d p l → Touches d q l → p = q
  away : ∀ p ∈ files, ∀ l, Touches d p l → ∀ dir n, Leads d s.trialProject dir n → l ∉ d.twins (dir ++ [n])
  kept : ∀ p ∈ files, ∀ l, Touches d p l → ¬ Litter d s.sourceRoot l

/-! ### The sources that are left -/

/-- Sources, each with its lot if it is one. -/
structure Todo (d : Disk) (v : View) (todo : List (Path × Option Lot)) : Prop where
  lot : ∀ p x, (p, some x) ∈ todo → x.path = p ∧ x.In d v
  no_lot : ∀ p, (p, none) ∈ todo → ∀ x : Lot, x.In d v → x.path ≠ p

theorem exists_todo (d : Disk) (v : View) (files : List Path) : ∃ todo, todo.map (·.1) = files ∧ Todo d v todo := by
  induction files with
  | nil => exact ⟨[], rfl, ⟨by simp, by simp⟩⟩
  | cons p files ih =>
    obtain ⟨todo, rfl, htodo⟩ := ih
    by_cases hx : ∃ x : Lot, x.path = p ∧ x.In d v
    · obtain ⟨x, hx⟩ := hx
      refine ⟨(p, some x) :: todo, rfl, fun q y hy => ?_, fun q hq => ?_⟩
      · rcases List.mem_cons.1 hy with heq | hy
        · cases heq
          exact hx
        · exact htodo.lot q y hy
      · exact htodo.no_lot q ((List.mem_cons.1 hq).resolve_left (by simp))
    · refine ⟨(p, none) :: todo, rfl, fun q y hy => ?_, fun q hq y hy hq' => ?_⟩
      · exact htodo.lot q y ((List.mem_cons.1 hy).resolve_left (by simp))
      · rcases List.mem_cons.1 hq with heq | hq
        · cases heq
          exact hx ⟨y, hq', hy⟩
        · exact htodo.no_lot q hq y hy hq'

namespace Todo

theorem congr (ht : Todo d v todo) (hu : ∀ p ∈ todo.map (·.1), ∀ l, Touches d p l → u l = v l) : Todo d u todo where
  lot p x hx := by
    obtain ⟨rfl, hin⟩ := ht.lot p x hx
    exact ⟨rfl, hin.congr (hu _ (List.mem_map_of_mem hx))⟩
  no_lot p hp x hx heq := by
    subst heq
    exact ht.no_lot _ hp x (hx.congr fun l hl => (hu _ (List.mem_map_of_mem hp) l hl).symm) rfl

theorem mem_of_in (ht : Todo d v todo) (hx : x.In d v) (hmem : x.path ∈ todo.map (·.1)) :
    (x.path, some x) ∈ todo := by
  obtain ⟨⟨p, _ | y⟩, hy, hp⟩ := List.mem_map.1 hmem
  · exact absurd hp.symm (ht.no_lot p hy x hx)
  · obtain ⟨rfl, hin⟩ := ht.lot p y hy
    obtain rfl := hx.unique hin hp.symm
    exact hy

theorem tail {e : Path × Option Lot} (ht : Todo d v (e :: todo)) : Todo d v todo :=
  ⟨fun p x hx => ht.lot p x (.tail _ hx), fun p hp => ht.no_lot p (.tail _ hp)⟩

end Todo

/-- The deeds of taking sources one after the other. -/
inductive Files (prog : Location) (call : BuildCall) (m : Directive.Matcher) :
    List (Path × Option Lot) → Sweep.Summary → List Deed → Option Sweep.Summary → Prop
  | nil (summary : Sweep.Summary) : Files prog call m [] summary [] (some summary)
  | cut {p : Path} {x : Lot} {todo : List (Path × Option Lot)} {summary : Sweep.Summary} {ds : List Deed}
    (h : Passes m call x ds none) : Files prog call m ((p, some x) :: todo) summary (.write prog p.text :: ds) none
  | done {p : Path} {x : Lot} {todo : List (Path × Option Lot)} {summary : Sweep.Summary} {ds es : List Deed}
    {out : List Pass.Finding × List Lines.State} {r : Option Sweep.Summary} (h : Passes m call x ds (some out))
    (hs : Files prog call m todo (summary.record p (.committed ⟨p, out.1⟩)) es r) :
    Files prog call m ((p, some x) :: todo) summary (.write prog p.text :: (ds ++ .write prog [] :: es)) r
  | skip {p : Path} {todo : List (Path × Option Lot)} {summary : Sweep.Summary} {es : List Deed}
    {r : Option Sweep.Summary} {e : Backup.Problem}
    (hs : Files prog call m todo (summary.record p (.notStarted e)) es r) :
    Files prog call m ((p, none) :: todo) summary (.write prog p.text :: .write prog [] :: es) r

/-- The lots of a list stay out of each other's way and of the way of the progress at `prog`. -/
structure Spread (prog : Location) (todo : List (Path × Option Lot)) : Prop where
  nodup : (todo.map (·.1)).Nodup
  path : ∀ p x, (p, some x) ∈ todo → x.path = p
  own : ∀ p x, (p, some x) ∈ todo → x.live ≠ x.copy
  progress : ∀ p x, (p, some x) ∈ todo → ¬ x.At prog
  apart : ∀ p x q y l, (p, some x) ∈ todo → (q, some y) ∈ todo → x.At l → y.At l → p = q

theorem Spread.tail {prog : Location} {e : Path × Option Lot}
    (hs : Spread prog (e :: todo)) : Spread prog todo where
  nodup := (List.nodup_cons.1 hs.nodup).2
  path p x hx := hs.path p x (.tail _ hx)
  own p x hx := hs.own p x (.tail _ hx)
  progress p x hx := hs.progress p x (.tail _ hx)
  apart p x q y l hx hy := hs.apart p x q y l (.tail _ hx) (.tail _ hy)

theorem Scene.spread (hs : Scene d s files) (ht : Todo d v todo)
    (hsub : ∀ p ∈ todo.map (·.1), p ∈ files) (hnodup : (todo.map (·.1)).Nodup)
    (hprog : Leads d s.progressFile dir n) : Spread (dir ++ [n]) todo where
  nodup := hnodup
  path p x hx := (ht.lot p x hx).1
  own p x hx := (ht.lot p x hx).2.fits.live_ne_copy
  progress p x hx hat := by
    obtain ⟨rfl, hin⟩ := ht.lot p x hx
    exact hs.aside _ (hsub _ (List.mem_map_of_mem hx)) _ (hin.fits.touches hat) dir n hprog rfl
  apart p x q y l hx hy hxl hyl := by
    obtain ⟨rfl, hin⟩ := ht.lot p x hx
    obtain ⟨rfl, hin'⟩ := ht.lot q y hy
    exact hs.apart _ (hsub _ (List.mem_map_of_mem hx)) _ (hsub _ (List.mem_map_of_mem hy)) l
      (hin.fits.touches hxl) (hin'.fits.touches hyl)

theorem save_deeds {path : Path} (hw : Writable h.disk path dir n) (position : Resume) (t : Trail o h ds w) :
    ∃ w', Work.on (Progress.save path position) w = (.ok (), w') ∧
      Trail o h (ds ++ [.write (dir ++ [n]) (Progress.encode position)]) w' := by
  obtain ⟨w₁, hrep, t₁⟩ := t.replace hw (Progress.encode position)
  refine ⟨_, ?_, t₁.emit ⟨.debug, Progress.target, "progress persisted",
    [("marker", .text (Utf8.lossy (Progress.encode position)))]⟩⟩
  simp only [Progress.save, Work.on_bind, hrep]
  rfl

theorem save_error {path : Path} (hp : NoLink h.disk path) (hw : ∀ dir n, ¬ Writable h.disk path dir n)
    (position : Resume) (t : Trail o h ds w) :
    ∃ e w', Work.on (Progress.save path position) w = (.error e, w') ∧ Trail o h ds w' := by
  obtain ⟨f, w₁, hrep, t₁⟩ := t.replace_error hp hw (Progress.encode position)
  refine ⟨.write path f, w₁, ?_, t₁⟩
  simp only [Progress.save, Work.on_bind, hrep]
  rfl

/-- Deeds at the places of a source and at the progress leave the other sources alone. -/
theorem Scene.after_eq (hs : Scene d s files) (hprog : Leads d s.progressFile dir n) (hp : p ∈ files) (hq : q ∈ files)
    (hne : q ≠ p) (hl : Touches d q l)
    (hds : ∀ e ∈ ds, ∀ k ∈ e.location?, Touches d p k ∨ k = dir ++ [n]) (v : View) : after v ds l = v l := by
  refine after_of_forall (fun e he hloc => ?_) v
  rcases hds e he l hloc with h' | h'
  · exact hne (hs.apart q hq p hp l hl h')
  · exact hs.aside q hq l hl dir n hprog h'

theorem processFiles_deeds (ro : o.ReadOnly) (hs : Scene h.disk s files)
    (hw : Writable h.disk s.progressFile dir n) (total position : Nat) (summary : Sweep.Summary)
    (hsub : ∀ p ∈ todo.map (·.1), p ∈ files) (hnodup : (todo.map (·.1)).Nodup)
    (t : Trail o h ds w) (htodo : Todo h.disk (after h.disk.get? ds) todo) :
    ∃ es r w', Files (dir ++ [n]) (Sweep.trialCall s) s.matcher todo summary es r ∧ Trail o h (ds ++ es) w' ∧
      Run.on (Sweep.processFiles s o total position (todo.map (·.1)) summary) w = (ending (r.map .ok), w') := by
  induction todo generalizing position summary ds w with
  | nil => exact ⟨[], _, w, .nil summary, by simpa using t, rfl⟩
  | cons e todo ih =>
    obtain ⟨p, lot⟩ := e
    have hp : p ∈ files := hsub p (by simp)
    have hrest : ∀ q ∈ todo.map (·.1), q ∈ files ∧ q ≠ p := fun q hq =>
      ⟨hsub q (by simp [hq]), fun hqp => (List.nodup_cons.1 hnodup).1 (hqp ▸ hq)⟩
    obtain ⟨w₁, hsave, t₁⟩ := save_deeds hw (.inProgress p) (t.emit ⟨.info, Sweep.target, "processing file",
      [("file", .path p), ("position", .number position), ("total", .number total)]⟩)
    have hview : ∀ q ∈ files, ∀ l, Touches h.disk q l →
        after h.disk.get? (ds ++ [.write (dir ++ [n]) (Progress.encode (.inProgress p))]) l = after h.disk.get? ds l := by
      intro q hq l hl
      rw [after_append]
      exact after_of_forall (by simpa [Deed.location?, eq_comm] using hs.aside q hq l hl dir n hw.leads) _
    have htodo₁ := htodo.congr fun q hq l hl => hview q (hsub q hq) l hl
    simp only [List.map_cons, Sweep.processFiles, Run.on_bind, Run.on_lift, Work.on_report, hsave]
    cases lot with
    | some x =>
      obtain ⟨rfl, hx⟩ := htodo₁.lot p x (by simp)
      obtain ⟨es, r, w₂, hpass, t₂, hrun⟩ := processFile_of_lot ro s t₁ hx
      simp only [hrun]
      cases r with
      | none => exact ⟨_, none, w₂, .cut hpass, by simpa [Progress.encode] using t₂, rfl⟩
      | some out =>
        obtain ⟨w₃, hsave', t₃⟩ := save_deeds hw .fresh t₂
        have htouch : ∀ e ∈ es ++ [.write (dir ++ [n]) (Progress.encode .fresh)], ∀ k ∈ e.location?,
            Touches h.disk x.path k ∨ k = dir ++ [n] := by
          rw [List.forall_mem_append]
          exact ⟨fun e he k hk => .inl (hx.fits.touches (hpass.location_eq e he k hk)), by simp [Deed.location?]⟩
        obtain ⟨es', r', w₄, hfiles, t₄, hrun'⟩ := ih (position + 1) (summary.record x.path (.committed ⟨x.path, out.1⟩))
          (fun q hq => (hrest q hq).1) (List.nodup_cons.1 hnodup).2 t₃ (htodo₁.tail.congr fun q hq l hl => by
            rw [List.append_assoc, after_append]
            exact hs.after_eq hw.leads hp (hrest q hq).1 (hrest q hq).2 hl htouch _)
        refine ⟨_, r', w₄, .done hpass hfiles, by simpa [Progress.encode] using t₄, ?_⟩
        simp only [ending, Option.map_some, hsave', hrun']
    | none =>
      obtain ⟨e, w₂, t₂, hrun⟩ := processFile_of_no_lot s t₁ (t₁.plain (hs.live p hp)) (hs.copy p hp).noLink
        (htodo₁.no_lot p (by simp))
      obtain ⟨w₃, hsave', t₃⟩ := save_deeds hw .fresh t₂
      simp only [hrun, hsave']
      obtain ⟨es', r', w₄, hfiles, t₄, hrun'⟩ := ih (position + 1) (summary.record p (.notStarted e))
        (fun q hq => (hrest q hq).1) (List.nodup_cons.1 hnodup).2 t₃ (htodo₁.tail.congr fun q hq l hl => by
          rw [after_append]
          exact hs.after_eq hw.leads hp (hrest q hq).1 (hrest q hq).2 hl (by simp [Deed.location?]) _)
      exact ⟨_, r', w₄, .skip hfiles, by simpa [Progress.encode] using t₄, hrun'⟩

/-! ### A whole sweep -/

def baselineCall (s : Settings) : BuildCall := ⟨s.project, s.configuration⟩

/-- Temporaries go while the view is `v`: each of them that is met is a regular file. -/
def Clearing (d : Disk) (root : Path) (v : View) (es : List Deed) : Prop :=
  ∀ e ∈ es, ∃ l e', e = .erase l ∧ Litter d root l ∧ v l = some e' ∧ e'.isFile = true

/-- What happens between the baseline build and the first source: the sources are listed, temporaries go,
and the trial project comes to `k`. -/
structure Opening (d : Disk) (s : Settings) (v : View) (files : List Path) (es : List Deed) (k : Location) : Prop where
  listed : ∃ d', Turned d v d' ∧ Sources.listed d' s.sourceRoot s.extensions = .ok files
  deeds : ∃ es' cs mode content, es = es' ++ cs ∧ Clearing d s.sourceRoot v es' ∧
    (∀ e ∈ cs, ∃ l ∈ d.twins k, ∃ mode content, e = .place l mode content) ∧
    (∀ u, after u cs k = some (.file mode content)) ∧
    (∀ l e, Litter d s.sourceRoot l → v l = some e → e.isFile = true → after v es' l = none) ∧
    ∃ d' mode' content', Turned d (after v es') d' ∧ d'.stat s.project = .ok (.file mode' content') ∧
      allows mode' readBit = true ∧ allows mode writeBit = allows mode' writeBit ∧
      (∃ dir n, k = dir ++ [n] ∧ Opens d' dir n) ∧ Same d' s.project k content' content
  trial : ∃ dir n, k = dir ++ [n] ∧ Leads d s.trialProject dir n ∧ endsInSlash s.trialProject = false

/-- How a sweep ends, none if a build cuts it off. -/
abbrev Sweep.Ending := Option (Except Problem Outcome)

/-- The deeds of taking the sources and finishing the sweep, the trial project being at `k`. -/
inductive Taking (d : Disk) (s : Settings) (k : Location) (todo : List (Path × Option Lot)) :
    List Deed → Sweep.Ending → Prop
  | unkept {e : Progress.Problem} (hw : ∀ dir n, ¬ Writable d s.progressFile dir n) :
    Taking d s k todo [] (some (.error (.progress e)))
  | cut {dir : Location} {n : Bytes} {fs : List Deed} (hw : Writable d s.progressFile dir n)
    (hf : Files (dir ++ [n]) (Sweep.trialCall s) s.matcher todo .empty fs none) : Taking d s k todo fs none
  | done {dir : Location} {n : Bytes} {fs gs : List Deed} {summary : Sweep.Summary}
    (hw : Writable d s.progressFile dir n)
    (hf : Files (dir ++ [n]) (Sweep.trialCall s) s.matcher todo .empty fs (some summary))
    (hg : gs = [.erase k] ∧ (∃ dir n, Removable d s.trialProject dir n) ∨
      gs = [] ∧ ∀ dir n, ¬ Removable d s.trialProject dir n) :
    Taking d s k todo (fs ++ .write (dir ++ [n]) Progress.sentinel :: gs) (some (.ok (.completed summary)))

/-- The deeds of a sweep behind the resume point, from the view `v` on, and how it ends. -/
inductive Course (d : Disk) (s : Settings) (files : List Path) (v : View) (marker : Option Path) :
    List Deed → Sweep.Ending → Prop
  | cut : Course d s files v marker [.build (baselineCall s) none] none
  | unfit : Course d s files v marker [.build (baselineCall s) (some false)]
      (some (.error (.baselineFailed s.project)))
  | unlisted {es : List Deed} {e : Sources.Problem} (hes : Clearing d s.sourceRoot v es)
    (he : ∃ d', Turned d v d' ∧ Sources.listed d' s.sourceRoot s.extensions = .error e) :
    Course d s files v marker (.build (baselineCall s) (some true) :: es)
      (some (.error (.enumeration s.sourceRoot e)))
  | uncopied {es : List Deed} {f : Fault} (hes : Clearing d s.sourceRoot v es)
    (hgone : ∀ l e, Litter d s.sourceRoot l → v l = some e → e.isFile = true → after v es l = none)
    (hf : ∃ d', Turned d (after v es) d' ∧ d'.copy s.project s.trialProject = .error f) :
    Course d s files v marker (.build (baselineCall s) (some true) :: es)
      (some (.error (.trialProject s.trialProject f)))
  | taken {es fs : List Deed} {k : Location} {todo : List (Path × Option Lot)}
    {r : Sweep.Ending} (ho : Opening d s v files es k) (ht : Todo d v todo)
    (hp : todo.map (·.1) = files.drop (Sweep.resumeIndex files marker)) (hk : Taking d s k todo fs r) :
    Course d s files v marker (.build (baselineCall s) (some true) :: (es ++ fs)) r

/-- What is put down as the progress: nothing, a source that is taken, or that all is done. -/
def Notes (taken : List Path) (content : Bytes) : Prop :=
  content = [] ∨ content = Progress.sentinel ∨ ∃ p ∈ taken, content = p.text

theorem Notes.mono {taken taken' : List Path} {content : Bytes} (h : Notes taken content)
    (hsub : ∀ p ∈ taken, p ∈ taken') : Notes taken' content :=
  h.imp_right (.imp_right fun ⟨p, hp, hc⟩ => ⟨p, hsub p hp, hc⟩)

section
variable {prog : Location} {call : BuildCall} {m : Directive.Matcher} {summary : Sweep.Summary} {r : Option Sweep.Summary}

theorem Files.cases (hf : Files prog call m todo summary es r) : ∀ e ∈ es, (∃ b, e = .build call b) ∨
      (∃ content, e = .write prog content ∧ Notes (todo.map (·.1)) content) ∨
        ∃ p x, (p, some x) ∈ todo ∧ ((∃ content, e = .write x.live content) ∨ e.location? = some x.copy) := by
  have hpass : ∀ {todo : List (Path × Option Lot)} {ds x p r}, Passes m call x ds r → (p, some x) ∈ todo →
      ∀ e ∈ ds, (∃ b, e = .build call b) ∨
      (∃ content, e = .write prog content ∧ Notes (todo.map (·.1)) content) ∨
        ∃ p x, (p, some x) ∈ todo ∧ ((∃ content, e = .write x.live content) ∨ e.location? = some x.copy) :=
    fun hp hx e he => (hp.cases e he).imp_right fun h => .inr ⟨_, _, hx, h⟩
  have hmark : ∀ {p : Path} {lot : Option Lot} {todo : List (Path × Option Lot)},
      Notes (((p, lot) :: todo).map (·.1)) p.text := .inr (.inr ⟨_, List.mem_cons_self, rfl⟩)
  induction hf with
  | nil => simp
  | cut hp => exact List.forall_mem_cons.2 ⟨.inr (.inl ⟨_, rfl, hmark⟩), hpass hp List.mem_cons_self⟩
  | done hp _ ih =>
    rw [List.forall_mem_cons, List.forall_mem_append, List.forall_mem_cons]
    refine ⟨.inr (.inl ⟨_, rfl, hmark⟩), hpass hp List.mem_cons_self, .inr (.inl ⟨_, rfl, .inl rfl⟩), fun e he => ?_⟩
    exact (ih e he).imp_right (.imp (fun ⟨c, hc, hn⟩ => ⟨c, hc, hn.mono fun _ => .tail _⟩)
      fun ⟨p, x, hx, h⟩ => ⟨p, x, .tail _ hx, h⟩)
  | skip _ ih =>
    rw [List.forall_mem_cons, List.forall_mem_cons]
    refine ⟨.inr (.inl ⟨_, rfl, hmark⟩), .inr (.inl ⟨_, rfl, .inl rfl⟩), fun e he => ?_⟩
    exact (ih e he).imp_right (.imp (fun ⟨c, hc, hn⟩ => ⟨c, hc, hn.mono fun _ => .tail _⟩)
      fun ⟨p, x, hx, h⟩ => ⟨p, x, .tail _ hx, h⟩)

theorem Files.location_eq (hf : Files prog call m todo summary es r) : ∀ e ∈ es, ∀ l ∈ e.location?,
      l = prog ∨ ∃ p x, (p, some x) ∈ todo ∧ x.At l := by
  intro e he l hl
  rcases hf.cases e he with ⟨b, rfl⟩ | ⟨content, rfl, -⟩ | ⟨p, x, hx, ⟨content, rfl⟩ | hcopy⟩
  · cases hl
  · exact .inl (Option.some.inj hl).symm
  · exact .inr ⟨p, x, hx, .inl (Option.some.inj hl).symm⟩
  · exact .inr ⟨p, x, hx, .inr (Option.some.inj (hl.symm.trans hcopy))⟩

end

theorem processFiles_unkept (hp : NoLink h.disk s.progressFile)
    (hw : ∀ dir n, ¬ Writable h.disk s.progressFile dir n) (total position : Nat) (files : List Path)
    (summary : Sweep.Summary) (t : Trail o h ds w) :
    ∃ r w', Trail o h ds w' ∧ Run.on (Sweep.processFiles s o total position files summary) w = (.ok r, w') ∧
      ∀ e, r = .error e → ∃ e', e = .progress e' := by
  cases files with
  | nil => exact ⟨.ok summary, w, t, rfl, by simp⟩
  | cons p files =>
    obtain ⟨e, w₁, hsave, t₁⟩ := save_error hp hw (.inProgress p) (t.emit ⟨.info, Sweep.target, "processing file",
      [("file", .path p), ("position", .number position), ("total", .number total)]⟩)
    refine ⟨.error (.progress e), w₁, t₁, ?_, fun e' he => ⟨e, by simpa [eq_comm] using he⟩⟩
    simp only [Sweep.processFiles, Run.on_bind, Run.on_lift, Work.on_report, hsave]
    rfl

theorem removeTrialProject_deeds {path : Path} (t : Trail o h ds w)
    (hk : ∃ dir n, k = dir ++ [n] ∧ Leads h.disk path dir n)
    (hv : ∃ mode content, after h.disk.get? ds k = some (.file mode content)) :
    ∃ gs w', Trail o h (ds ++ gs) w' ∧ Work.on (Sweep.removeTrialProject path) w = ((), w') ∧
      (gs = [.erase k] ∧ (∃ dir n, Removable h.disk path dir n) ∨
        gs = [] ∧ ∀ dir n, ¬ Removable h.disk path dir n) := by
  obtain ⟨dir, n, rfl, hl⟩ := hk
  obtain ⟨mode, content, hv⟩ := hv
  by_cases hr : ∃ dir n, Removable h.disk path dir n
  · have ⟨dir', n', hr'⟩ := hr
    obtain ⟨rfl, rfl⟩ := hl.unique hr'.leads
    obtain ⟨w₁, hrm, t₁⟩ := t.remove hr' hv (bone_file ..)
    refine ⟨_, w₁, t₁, ?_, .inl ⟨rfl, hr⟩⟩
    simp only [Sweep.removeTrialProject, Work.on_bind, hrm]
    rfl
  · simp only [not_exists] at hr
    obtain ⟨f, hrm⟩ := t.remove_error fun dir n hr' => absurd hr' (hr dir n)
    refine ⟨[], _, by simpa using t.emit ⟨.warn, Sweep.target, "failed to delete working project",
      [("path", .path path), ("error", .shown f.message)]⟩, ?_, .inr ⟨rfl, hr⟩⟩
    simp only [Sweep.removeTrialProject, Work.on_bind, hrm]
    rfl

theorem sweepFiles_deeds (ro : o.ReadOnly) (hs : Scene h.disk s files) (marker : Option Path)
    (t : Trail o h ds w)
    (hk : ∃ dir n, k = dir ++ [n] ∧ Leads h.disk s.trialProject dir n)
    (hv : ∃ mode content, after h.disk.get? ds k = some (.file mode content))
    (htodo : Todo h.disk (after h.disk.get? ds) todo)
    (hp : todo.map (·.1) = files.drop (Sweep.resumeIndex files marker)) :
    ∃ es r w', Taking h.disk s k todo es r ∧ Trail o h (ds ++ es) w' ∧
      Run.on (Sweep.sweepFiles s o files marker) w = (ending r, w') := by
  have t₀ := t.emit ⟨.info, Sweep.target, "starting sweep", [("total", .number files.length),
    ("remaining", .number (files.length - Sweep.resumeIndex files marker))]⟩
  by_cases hw : ∃ dir n, Writable h.disk s.progressFile dir n
  · obtain ⟨dir, n, hw⟩ := hw
    have hmem : ∀ p ∈ todo.map (·.1), p ∈ files := fun p hp' => List.mem_of_mem_drop (hp ▸ hp')
    obtain ⟨es, r, w₁, hf, t₁, hrun⟩ := processFiles_deeds ro hs hw files.length
      (Sweep.resumeIndex files marker + 1) .empty hmem (hp ▸ hs.nodup.sublist (List.drop_sublist ..)) t₀ htodo
    rw [hp] at hrun
    simp only [Sweep.sweepFiles, Run.on_bind, Run.on_lift, Work.on_report, hrun]
    cases r with
    | none => exact ⟨es, none, w₁, .cut hw hf, t₁, rfl⟩
    | some summary =>
      obtain ⟨w₂, hsave, t₂⟩ := save_deeds hw .done t₁
      -- no source comes near the trial project, and the progress is a file itself
      have hv' : ∃ mode content, after h.disk.get?
          (ds ++ es ++ [.write (dir ++ [n]) (Progress.encode .done)]) k = some (.file mode content) := by
        rw [after_append, after_append, after_cons, after_nil]
        by_cases hkp : k = dir ++ [n]
        · exact ⟨_, _, by rw [hkp]; exact Function.update_self ..⟩
        · rw [Deed.apply, Function.update_of_ne hkp, after_of_forall]
          · exact hv
          · intro e he hloc
            rcases hf.location_eq e he k hloc with hk' | ⟨p, x, hx, hx'⟩
            · exact hkp hk'
            obtain ⟨rfl, hin⟩ := htodo.lot p x hx
            obtain ⟨dir', n', hk, hl⟩ := hk
            exact hs.away _ (hmem _ (List.mem_map_of_mem hx)) _ (hin.fits.touches hx') dir' n' hl (hk ▸ self_mem_twins ..)
      obtain ⟨gs, w₃, t₃, hrm, hgs⟩ := removeTrialProject_deeds t₂ hk hv'
      refine ⟨_, _, _, .done hw hf hgs, by simpa [Progress.encode] using t₃.emit ⟨.info, Sweep.target,
        "sweep complete", [("files", .number summary.filesProcessed), ("removed", .number summary.linesRemoved),
          ("restored", .number summary.restored.length), ("restore_failed", .number summary.restoreFailed.length),
          ("not_started", .number summary.notStarted.length)]⟩, ?_⟩
      simp only [ending, Option.map_some, Run.on_bind, Run.on_lift, Work.on_report, hsave, hrm]
      rfl
  · simp only [not_exists] at hw
    obtain ⟨r, w₁, t₁, hrun, hr⟩ := processFiles_unkept hs.progress.noLink hw files.length
      (Sweep.resumeIndex files marker + 1) (files.drop (Sweep.resumeIndex files marker)) .empty t₀
    simp only [Sweep.sweepFiles, Run.on_bind, Run.on_lift, Work.on_report, hrun]
    cases r with
    | error e =>
      obtain ⟨e', rfl⟩ := hr e rfl
      exact ⟨[], _, w₁, .unkept hw, by simpa using t₁, rfl⟩
    | ok summary =>
      obtain ⟨e, w₂, hsave, t₂⟩ := save_error hs.progress.noLink hw .done t₁
      simp only [Run.on_bind, Run.on_lift, hsave]
      exact ⟨[], _, w₂, .unkept hw, by simpa using t₂, rfl⟩

/-- What a sweep has to do with: temporaries, the trial project, the progress, and the lots it takes. -/
def Concerns (d : Disk) (s : Settings) (v : View) (taken : List Path) (k : Location) : Prop :=
  Litter d s.sourceRoot k ∨ (∃ dir n, Leads d s.trialProject dir n ∧ k ∈ d.twins (dir ++ [n])) ∨
    (∃ dir n, Leads d s.progressFile dir n ∧ k = dir ++ [n]) ∨ ∃ x : Lot, x.In d v ∧ x.path ∈ taken ∧ x.At k

/-- Nothing but what a sweep has to do with is other than on `d`. -/
def Framed (d : Disk) (s : Settings) (files : List Path) (v : View) : Prop :=
  ∀ l, ¬ Concerns d s d.get? files l → v l = d.get? l

theorem Framed.after (hv : Framed d s files v) (hds : ∀ e ∈ ds, ∀ l ∈ e.location?, Concerns d s d.get? files l) :
    Framed d s files (after v ds) := by
  intro l hl
  rw [after_of_forall (fun e he hloc => hl (hds e he l hloc)), hv l hl]

/-- What a sweep does: temporaries go, the trial project comes and goes, the progress and the lots are written,
and backups of lots come and go. -/
inductive Does (d : Disk) (s : Settings) (v : View) (taken : List Path) : Deed → Prop
  | build (call : BuildCall) (verdict : Option Bool) : Does d s v taken (.build call verdict)
  | clear {l : Location} (h : Litter d s.sourceRoot l) : Does d s v taken (.erase l)
  | trial {dir l : Location} {n : Bytes} {e : Deed} (h : Leads d s.trialProject dir n) (hl : l ∈ d.twins (dir ++ [n]))
    (he : e.location? = some l) : Does d s v taken e
  | mark {dir : Location} {n : Bytes} {content : Bytes} (h : Leads d s.progressFile dir n)
    (hc : Notes taken content) : Does d s v taken (.write (dir ++ [n]) content)
  | write {x : Lot} (hx : x.In d v) (hp : x.path ∈ taken) (content : Bytes) : Does d s v taken (.write x.live content)
  | copy {x : Lot} {e : Deed} (hx : x.In d v) (hp : x.path ∈ taken) (he : e.location? = some x.copy) :
    Does d s v taken e

theorem Does.concerns {e : Deed} (h : Does d s v taken e) (hl : l ∈ e.location?) :
    Concerns d s v taken l := by
  cases h with
  | build => cases hl
  | clear h => cases hl; exact .inl h
  | trial h hmem he => exact .inr (.inl ⟨_, _, h, Option.some.inj (hl.symm.trans he) ▸ hmem⟩)
  | mark h => cases hl; exact .inr (.inr (.inl ⟨_, _, h, rfl⟩))
  | write hx hp => cases hl; exact .inr (.inr (.inr ⟨_, hx, hp, .inl rfl⟩))
  | copy hx hp he => exact .inr (.inr (.inr ⟨_, hx, hp, .inr (Option.some.inj (hl.symm.trans he))⟩))

theorem Clearing.does (hes : Clearing d s.sourceRoot v es) : ∀ e ∈ es, Does d s v taken e := by
  intro e he
  obtain ⟨l, -, rfl, hl, -⟩ := hes e he
  exact .clear hl

theorem Clearing.concerns (hes : Clearing d s.sourceRoot v es) :
    ∀ e ∈ es, ∀ k ∈ e.location?, Concerns d s v taken k := fun e he _ => (hes.does e he).concerns

theorem Opening.does (ho : Opening d s v files es k) :
    ∀ e ∈ es, Does d s v taken e := by
  obtain ⟨es', cs, mode, content, rfl, hes, hcs, -⟩ := ho.deeds
  obtain ⟨dir, n, rfl, hl, -⟩ := ho.trial
  refine List.forall_mem_append.2 ⟨hes.does, fun e he => ?_⟩
  obtain ⟨k, hk, mode, content, rfl⟩ := hcs e he
  exact .trial hl hk rfl

theorem Opening.concerns (ho : Opening d s v files es k) :
    ∀ e ∈ es, ∀ l ∈ e.location?, Concerns d s v taken l := fun e he _ => (ho.does e he).concerns

theorem finish_does (hl : Leads d s.progressFile dir n)
    (htrial : ∃ dir n, Leads d s.trialProject dir n ∧ k = dir ++ [n]) (hes : ∀ e ∈ es, e = .erase k) :
    ∀ e ∈ .write (dir ++ [n]) Progress.sentinel :: es, Does d s v taken e := by
  refine List.forall_mem_cons.2 ⟨.mark hl (.inr (.inl rfl)), fun e he => ?_⟩
  obtain rfl := hes e he
  obtain ⟨dir', n', hk, rfl⟩ := htrial
  exact .trial hk (self_mem_twins ..) rfl

theorem finish_concerns (hl : Leads d s.progressFile dir n)
    (htrial : ∃ dir n, Leads d s.trialProject dir n ∧ k = dir ++ [n]) (hes : ∀ e ∈ es, e = .erase k) :
    ∀ e ∈ .write (dir ++ [n]) Progress.sentinel :: es, ∀ l ∈ e.location?, Concerns d s v taken l :=
  fun e he _ => (finish_does hl htrial hes e he).concerns

/-- A run has nothing to do with a source that is no lot, or not to be taken. -/
theorem Scene.not_concerns (hs : Scene d s files) (htaken : ∀ p ∈ taken, p ∈ files) (hp : p ∈ files)
    (hno : ∀ x : Lot, x.In d v → x.path ∈ taken → x.path ≠ p) (hl : Touches d p l) : ¬ Concerns d s v taken l := by
  rintro (h' | ⟨dir, n, h', h''⟩ | ⟨dir, n, h', h''⟩ | ⟨x, hx, hmem, hat⟩)
  · exact hs.kept p hp l hl h'
  · exact hs.away p hp l hl dir n h' h''
  · exact hs.aside p hp l hl dir n h' h''
  · exact hno x hx hmem (hs.apart _ (htaken _ hmem) _ hp l (hx.fits.touches hat) hl)

theorem Scene.eq_of_concerns (hs : Scene d s files)
    (hds : ∀ e ∈ ds, ∀ l ∈ e.location?, Concerns d s v taken l) (htaken : ∀ p ∈ taken, p ∈ files) (hp : p ∈ files)
    (hno : ∀ x : Lot, x.In d v → x.path ∈ taken → x.path ≠ p) (hl : Touches d p l) (u : View) :
    after u ds l = u l :=
  after_of_forall (fun e he hloc => hs.not_concerns htaken hp hno hl (hds e he l hloc)) u

theorem Scene.eq_of_no_lot (hs : Scene d s files) (hds : ∀ e ∈ ds, ∀ l ∈ e.location?, Concerns d s v [] l)
    (hp : p ∈ files) (hl : Touches d p l) (u : View) : after u ds l = u l :=
  hs.eq_of_concerns hds (by simp) hp (by simp) hl u

theorem Scene.todo_opening (hs : Scene d s files)
    (ho : Opening d s v files es k) (ht : Todo d v todo) (hsub : ∀ p ∈ todo.map (·.1), p ∈ files) :
    Todo d (after v es) todo :=
  ht.congr fun q hq _ hl => hs.eq_of_no_lot ho.concerns (hsub q hq) hl v

/-- Everything behind the resume point. The sources are those of the scene, if they can be told. -/
theorem sweepFrom_deeds (ro : o.ReadOnly) (hs : Scene h.disk s files) (marker : Option Path) (t : Trail o h ds w)
    (hlist : ∀ d', Turned h.disk (after h.disk.get? ds) d' → ∀ fs,
      Sources.listed d' s.sourceRoot s.extensions = .ok fs → fs = files) :
    ∃ es r w', Course h.disk s files (after h.disk.get? ds) marker es r ∧ Trail o h (ds ++ es) w' ∧
      Run.on (Sweep.sweepFrom s o marker) w = (ending r, w') := by
  obtain ⟨b, w₁, t₁, hbuild⟩ := (t.emit ⟨.info, Sweep.target, "running baseline build",
    [("project", .path s.project)]⟩).build ro (baselineCall s)
  rw [baselineCall] at hbuild
  simp only [Sweep.sweepFrom, Sweep.checkBaseline, Run.on_bind, Run.on_lift, Work.on_report, hbuild]
  have hafter : after h.disk.get? (ds ++ [.build (baselineCall s) b]) = after h.disk.get? ds := by
    rw [after_append]
    rfl
  rcases b with _ | _ | _
  · exact ⟨_, none, w₁, .cut, t₁, rfl⟩
  · exact ⟨_, _, _, .unfit, t₁.emit ⟨.error, Sweep.target, "baseline build failed", [("project", .path s.project)]⟩, rfl⟩
  obtain ⟨es, w₂, t₂, hfind, hes, hgone⟩ := find_deeds hs.tree s.sourceRoot s.extensions t₁
  rw [hafter] at hes hgone
  have hcleared : ∀ fs, Sources.listed w₁.disk s.sourceRoot s.extensions = .ok fs → ∀ l e,
      Litter h.disk s.sourceRoot l → after h.disk.get? ds l = some e → e.isFile = true →
        after (after h.disk.get? ds) es l = none := fun fs hl l e hlit he hfile => by
    simpa [Deed.apply] using hgone fs hl l e hlit he hfile
  have hnow := t₁.now
  rw [hafter] at hnow
  simp only [if_true, Run.on_pure]
  cases hl : Sources.listed w₁.disk s.sourceRoot s.extensions with
  | error e =>
    rw [hl] at hfind
    simp only [Run.on_bind, Run.on_lift, hfind]
    exact ⟨_, _, w₂, .unlisted hes ⟨_, hnow, hl⟩, by simpa using t₂, rfl⟩
  | ok fs =>
    obtain rfl := hlist _ hnow fs hl
    rw [hl] at hfind
    simp only [Run.on_bind, Run.on_lift, hfind]
    have hnow₂ := t₂.now
    rw [after_append, hafter] at hnow₂
    rcases t₂.copy s.project (t₂.plain hs.trial) hs.sited with ⟨f, hf, hcopy⟩ |
      ⟨dir, n, mode, content, mode', content', cs, w₃, hlead, hslash, hopens, hstat, hr, hwr, hsame, hcopy, hcs, hlast, t₃⟩
    · simp only [hcopy]
      exact ⟨_, _, w₂, .uncopied hes (hcleared fs hl) ⟨_, hnow₂, hf⟩, by simpa using t₂, rfl⟩
    · have ho : Opening h.disk s (after h.disk.get? ds) fs (es ++ cs) (dir ++ [n]) :=
        ⟨⟨_, hnow, hl⟩, ⟨es, cs, mode', content', rfl, hes, hcs, hlast, hcleared fs hl, _, mode, content, hnow₂, hstat, hr,
          hwr, ⟨dir, n, rfl, hopens⟩, hsame⟩, dir, n, rfl, hlead, hslash⟩
      obtain ⟨todo, hp, htodo⟩ := exists_todo h.disk (after h.disk.get? ds) (fs.drop (Sweep.resumeIndex fs marker))
      have htodo₃ : Todo h.disk (after h.disk.get?
          (ds ++ [.build (baselineCall s) (some true)] ++ es ++ cs)) todo := by
        rw [List.append_assoc, after_append, hafter]
        exact hs.todo_opening ho htodo fun q hq => List.mem_of_mem_drop (hp ▸ hq)
      obtain ⟨gs, r, w₄, htake, t₄, hrun⟩ := sweepFiles_deeds ro hs marker t₃ ⟨dir, n, rfl, hlead⟩
        ⟨mode', content', by rw [after_append, hlast]⟩ htodo₃ hp
      simp only [hcopy, hrun]
      exact ⟨_, r, w₄, .taken ho htodo hp htake, by simpa using t₄, rfl⟩

theorem Taking.does
    {r : Sweep.Ending} (hk : Taking d s k todo es r) (ht : Todo d v todo)
    (htrial : ∃ dir n, Leads d s.trialProject dir n ∧ k = dir ++ [n]) :
    ∀ e ∈ es, Does d s v (todo.map (·.1)) e := by
  have hfiles : ∀ {dir n fs summary r'}, Writable d s.progressFile dir n →
      Files (dir ++ [n]) (Sweep.trialCall s) s.matcher todo summary fs r' →
      ∀ e ∈ fs, Does d s v (todo.map (·.1)) e := by
    intro dir n fs summary r' hw hf e he
    rcases hf.cases e he with ⟨b, rfl⟩ | ⟨content, rfl, hc⟩ | ⟨p, x, hx, h⟩
    · exact .build _ b
    · exact .mark hw.leads hc
    · obtain ⟨rfl, hin⟩ := ht.lot p x hx
      have hmem : x.path ∈ todo.map (·.1) := List.mem_map.2 ⟨_, hx, rfl⟩
      rcases h with ⟨content, rfl⟩ | hcopy
      · exact .write hin hmem content
      · exact .copy hin hmem hcopy
  cases hk with
  | unkept => simp
  | cut hw hf => exact hfiles hw hf
  | done hw hf hg =>
    refine List.forall_mem_append.2 ⟨hfiles hw hf, finish_does hw.leads htrial ?_⟩
    rcases hg with ⟨rfl, -⟩ | ⟨rfl, -⟩ <;> simp

theorem Course.does {marker : Option Path} {r : Sweep.Ending}
    (hc : Course d s files v marker ds r) :
    ∀ e ∈ ds, Does d s v (files.drop (Sweep.resumeIndex files marker)) e := by
  cases hc with
  | cut | unfit => simpa using .build _ _
  | unlisted hes | uncopied hes => exact List.forall_mem_cons.2 ⟨.build _ _, hes.does⟩
  | taken ho ht hp hk =>
    obtain ⟨dir, n, rfl, hl, -⟩ := ho.trial
    rw [List.forall_mem_cons, List.forall_mem_append, ← hp]
    exact ⟨.build _ _, ho.does, hk.does ht ⟨dir, n, hl, rfl⟩⟩

theorem Course.concerns {marker : Option Path} {r : Sweep.Ending}
    (hc : Course d s files v marker ds r) :
    ∀ e ∈ ds, ∀ l ∈ e.location?, Concerns d s v (files.drop (Sweep.resumeIndex files marker)) l :=
  fun e he _ => (hc.does e he).concerns

/-! ### Going on -/

/-- A lot in the middle of its pass: its content is in the backup. -/
structure Lot.Caught (d : Disk) (v : View) (x : Lot) : Prop where
  fits : x.Fits d
  live : ∃ content, v x.live = some (.file x.mode content)
  copy : ∃ mode, v x.copy = some (.file mode x.content) ∧ allows mode readBit = true

def Lot.recovery (x : Lot) : List Deed := [.write x.live x.content, .erase x.copy]

theorem Lot.Caught.recovered (hx : x.Caught d v) : x.In d (after v x.recovery) := by
  obtain ⟨content, hlive⟩ := hx.live
  have hne := hx.fits.live_ne_copy
  refine ⟨hx.fits, ?_, ?_⟩
  · simp [recovery, Deed.apply, Function.update_of_ne hne, hlive, inherit]
  · simp [recovery, Deed.apply]

/-- What recovery does for the path `m`, and how it ends. Without a backup there is nothing to do, and where the
backup cannot be read or the file not be written, nothing is done. -/
inductive Recovers (d : Disk) (v : View) (m : Path) : List Deed → Except Sweep.Problem Unit → Prop
  | bare (h : ∀ dir n, Leads d (backup m) dir n → endsInSlash (backup m) = false → ∀ mode content,
      v (dir ++ [n]) ≠ some (.file mode content)) : Recovers d v m [] (.ok ())
  | refused {dir : Location} {n : Bytes} {mode : Nat} {content : Bytes} {e : Backup.Problem}
    (hl : Leads d (backup m) dir n) (hg : v (dir ++ [n]) = some (.file mode content))
    (hno : allows mode readBit = false ∨ ∀ dir n, ¬ Writable d m dir n) :
    Recovers d v m [] (.error (.recovery m e))
  | done {dir : Location} {n : Bytes} {mode : Nat} {content : Bytes} (hw : Writable d m dir n)
    (hl : Leads d (backup m) dir (markedName backupMark n))
    (hg : v (dir ++ [markedName backupMark n]) = some (.file mode content)) (hr : allows mode readBit = true) :
    Recovers d v m [.write (dir ++ [n]) content, .erase (dir ++ [markedName backupMark n])] (.ok ())

theorem recover_deeds {m : Path} (t : Trail o h ds w) (hm : NoLink h.disk m) (hb : Plain h.disk (backup m)) :
    ∃ es r w', Recovers h.disk (after h.disk.get? ds) m es r ∧ Trail o h (ds ++ es) w' ∧
      Work.on (Sweep.recover m) w = (r, w') := by
  by_cases hfile : w.disk.isFile (backup m) = true
  · have hexisting : Backup.existing? w.disk m = some (Backup.of m) := by simp [Backup.existing?, Backup.of, hfile]
    obtain ⟨hslash, dir', n', mode, content, hl', hg⟩ : endsInSlash (backup m) = false ∧ ∃ dir n mode content,
        Leads w.disk (backup m) dir n ∧ w.disk.get? (dir ++ [n]) = some (.file mode content) := by
      simp only [isFile] at hfile
      split at hfile
      · next e hstat =>
        rcases stat_cases t.now.tree (hb.noLink.alike t.now.alike) hstat with ⟨l, mode, hr⟩ | ⟨hslash, dir, n, hl, hg⟩
        · simp only [stat, hr, bind, Except.bind, pure, Except.pure, Except.ok.injEq] at hstat
          subst hstat
          cases hfile
        · rcases t.plain hb dir n hl e hg with ⟨mode, content, rfl⟩ | ⟨mode, rfl⟩
          · exact ⟨hslash, dir, n, mode, content, hl, hg⟩
          · cases hfile
      · cases hfile
    have hl := hl'.alike t.now.alike.symm
    by_cases hread : allows mode readBit = true
    · have hread' := hl'.read hslash hg hread
      rw [t.now.view] at hg
      by_cases hw : ∃ dir n, Writable h.disk m dir n
      · obtain ⟨dir, n, hw⟩ := hw
        obtain ⟨rfl, rfl⟩ := hl'.walks.unique t.now.tree (names_backup (hw.leads.alike t.now.alike))
        have hne := (ne_markedName dir backupMark n).symm
        obtain ⟨w₁, hrep, t₁⟩ := t.replace hw content
        have hg₁ : after h.disk.get? (ds ++ [.write (dir ++ [n]) content]) (dir ++ [markedName backupMark n]) =
            some (.file mode content) := by
          rw [after_append, after_cons, after_nil, Deed.apply, Function.update_of_ne hne, hg]
        obtain ⟨w₂, hrm, t₂⟩ := t₁.remove ⟨hl, hslash, hw.alter⟩ hg₁ (bone_file ..)
        have hdiscard := discard_on (b := Backup.of m) hrm
        have t₃ := (t₂.emit ⟨.debug, Backup.target, "file restored from backup", [("file", .path m)]⟩).emit
          ⟨.warn, Sweep.target, "restored interrupted file from backup", [("file", .path m)]⟩
        refine ⟨_, _, _, .done hw hl hg hread, by simpa using t₃, ?_⟩
        simp only [Sweep.recover, Backup.restore, Work.on_bind, Work.on_disk, hexisting, Backup.of, hread', hrep]
        simp only [Backup.of] at hdiscard
        simp only [Work.on_bind, hdiscard]
        rfl
      · simp only [not_exists] at hw
        obtain ⟨f, w₁, hrep, t₁⟩ := t.replace_error hm hw content
        refine ⟨[], _, w₁, .refused (e := .write m f) hl hg (.inr hw), by simpa using t₁, ?_⟩
        simp only [Sweep.recover, Backup.restore, Work.on_bind, Work.on_disk, hexisting, Backup.of, hread', hrep]
        rfl
    · have hread' : w.disk.read (backup m) = .error .denied := by
        simp [Disk.read, hl'.stat_some hslash hg (by simp), hread, bind, Except.bind]
      rw [t.now.view] at hg
      refine ⟨[], _, w, .refused (e := .read (backup m) .denied) hl hg (.inl (by simpa using hread)), by simpa using t, ?_⟩
      simp only [Sweep.recover, Backup.restore, Work.on_bind, Work.on_disk, hexisting, Backup.of, hread']
      rfl
  · have hexisting : Backup.existing? w.disk m = none := by simp [Backup.existing?, Backup.of, hfile]
    have t₁ := t.emit ⟨.info, Sweep.target, "interrupted file has no backup; nothing to recover", [("file", .path m)]⟩
    refine ⟨[], _, _, .bare fun dir n hl hslash mode content hg => hfile ?_, by simpa using t₁, ?_⟩
    · rw [← t.now.view] at hg
      simp [isFile, (hl.alike t.now.alike).stat_some hslash hg (by simp), Entry.isFile]
    · simp only [Sweep.recover, Work.on_bind, Work.on_disk, hexisting]
      rfl

namespace Recovers

variable {r : Except Sweep.Problem Unit}

theorem of_in (hx : x.In d v) (hr : Recovers d v x.path es r) : es = [] ∧ r = .ok () := by
  obtain ⟨⟨⟨dir, n, hl, hc, hw, hw'⟩, -⟩, -, hcopy⟩ := hx
  cases hr with
  | bare => exact ⟨rfl, rfl⟩
  | refused hl' hg =>
    obtain ⟨rfl, rfl⟩ := hw'.leads.unique hl'
    rw [← hc, hcopy] at hg
    cases hg
  | done hw₁ hl' hg =>
    obtain ⟨rfl, -⟩ := hw'.leads.unique hl'
    obtain ⟨-, rfl⟩ := hw.leads.unique hw₁.leads
    rw [← hc, hcopy] at hg
    cases hg

theorem of_caught (hx : x.Caught d v) (hr : Recovers d v x.path es r) : es = x.recovery ∧ r = .ok () := by
  obtain ⟨⟨⟨dir, n, hl, hc, hw, hw'⟩, -⟩, -, mode, hcopy, hmode⟩ := hx
  cases hr with
  | bare h => exact absurd (hc ▸ hcopy) (h _ _ hw'.leads hw'.slash mode x.content)
  | refused hl' hg hno =>
    obtain ⟨rfl, rfl⟩ := hw'.leads.unique hl'
    rw [← hc, hcopy] at hg
    cases hg
    rcases hno with h | h
    · rw [h] at hmode
      cases hmode
    · exact absurd hw (h _ _)
  | done hw₁ hl' hg =>
    obtain ⟨rfl, rfl⟩ := hw.leads.unique hw₁.leads
    rw [← hc, hcopy] at hg
    cases hg
    exact ⟨by rw [Lot.recovery, hl, hc], rfl⟩

theorem unique {m : Path} {es' : List Deed} {r' : Except Sweep.Problem Unit} (hr : Recovers d v m es r)
    (hr' : Recovers d v m es' r') : es' = es := by
  have hdone : ∀ {dir n mode content es r}, Writable d m dir n → Leads d (backup m) dir (markedName backupMark n) →
      v (dir ++ [markedName backupMark n]) = some (.file mode content) → allows mode readBit = true →
      Recovers d v m es r → es = [.write (dir ++ [n]) content, .erase (dir ++ [markedName backupMark n])] := by
    intro dir n mode content es r hw hl hg hread hr
    cases hr with
    | bare h => exact absurd hg (h _ _ hl (endsInSlash_backup hw.leads) _ _)
    | refused hl' hg' hno =>
      obtain ⟨rfl, rfl⟩ := hl.unique hl'
      rw [hg, Option.some.injEq, Entry.file.injEq] at hg'
      rcases hno with h | h
      · rw [← hg'.1, hread] at h
        cases h
      · exact absurd hw (h _ _)
    | done hw' hl' hg' =>
      obtain ⟨rfl, rfl⟩ := hw.leads.unique hw'.leads
      rw [hg, Option.some.injEq, Entry.file.injEq] at hg'
      rw [hg'.2]
  cases hr with
  | done hw hl hg hread => exact hdone hw hl hg hread hr'
  | bare =>
    cases hr' with
    | done hw hl hg hread => exact (hdone hw hl hg hread (.bare ‹_›)).symm
    | _ => rfl
  | refused hl hg hno =>
    cases hr' with
    | done hw hl' hg' hread => exact (hdone hw hl' hg' hread (.refused (e := .read m .denied) hl hg hno)).symm
    | _ => rfl

end Recovers

end Prune
