import Prune.Proofs.Verdicts

/-!
# What a sweep leaves builds

A source is committed with its blank lines dropped, and in that form it was never built. Where the verdict
is settled by the lines that are left, this does not matter: what a completed sweep leaves of all sources
is what the last build that passed saw (`completed_builds`).
-/

namespace Prune

open Disk Artefact Lines Workshop

variable {d d' : Disk} {p : Path} {v u : View} {ds : List Deed} {s : Settings} {files : List Path}
  {m : Directive.Matcher} {todo : List (Path × Option Lot)} {o : Oracle} {h : Host} {w : World}
  {sts : Path → List State} {V : Set (Path × Nat) → Bool} {x : Lot}
variable {summary : Sweep.Summary}

/-! ### From the view to the verdict -/

/-- All lines of all sources, as they are on `d`. -/
def whole (d : Disk) (p : Path) : List State := List.replicate (split ((d.content? p).getD [])).length .present

theorem whole_eq_untouched (hd : Tree d) (hx : x.In d d.get?) : whole d x.path = x.untouched := by
  rw [whole, hx.fits.content?_live (.refl hd) hx.live]
  rfl

theorem Showing.whole (hd : Tree d) (ht : Todo d d.get? todo) : Showing d m todo (whole d) d.get? where
  lot p x hx := by
    obtain ⟨rfl, hin⟩ := ht.lot p x hx
    rw [whole_eq_untouched hd hin]
    refine ⟨(x.forall₂_untouched m).imp fun st line h => h.imp_right And.right, ?_⟩
    rw [hin.live, Lot.untouched, render_present, Lot.lines, flatten_split]
  no_lot p _ c hc := by
    rw [Prune.whole, hc]
    rfl

theorem Framed.content?_eq (hs : Scene d s files) (hv : Framed d s files v) (ht : Turned d v d') (hp : p ∈ files)
    (hno : ∀ x : Lot, x.In d d.get? → x.path ≠ p) : d'.content? p = d.content? p := by
  refine content?_congr hs.tree ht.tree ht.alike (hs.live p hp).noLink fun dir n hl => ?_
  rw [ht.view]
  exact hv _ (hs.not_concerns (fun _ => id) hp (fun x hx _ => hno x hx) ⟨p, dir, n, .inl rfl, hl, rfl⟩)

theorem Showing.shows (hs : Scene d s files) (htodo : Todo d d.get? todo) (hp : todo.map (·.1) = files)
    (hv : Framed d s files v) (ht : Turned d v d') (hshow : Showing d s.matcher todo sts v) :
    Shows d s files sts d' := by
  intro p hmem c hc
  obtain ⟨⟨_, _ | x⟩, he, rfl⟩ := List.mem_map.1 (hp ▸ hmem)
  · rw [hshow.no_lot _ he c hc, hv.content?_eq hs ht hmem (htodo.no_lot _ he), hc, render_present, flatten_split]
    exact ⟨(forall₂_replicate_present s.matcher .blanked _).imp fun st line h => h.imp_right And.right, rfl⟩
  · obtain ⟨rfl, hin⟩ := htodo.lot _ x he
    obtain rfl : x.content = c := Option.some.inj ((hin.fits.content?_live (.refl hs.tree) hin.live).symm.trans hc)
    obtain ⟨hst, hlive⟩ := hshow.lot _ x he
    exact ⟨hst, hin.fits.content?_live ht hlive⟩

theorem Trail.answered (t : Trail o h ds w) (hs : Scene d s files) (htodo : Todo d d.get? todo)
    (hp : todo.map (·.1) = files) (hj : o.JudgesOrCuts d s files V) (ht : Turned d h.disk.get? h.disk)
    (hv : Framed d s files h.disk.get?) (hds : ∀ e ∈ ds, ∀ l ∈ e.location?, Concerns d s d.get? files l) :
    Answered (fun u b => ∀ sts, Showing d s.matcher todo sts u → b = V (survivors d s files sts)) h.disk.get? ds := by
  intro pre call _ hpre b hb' sts hshow
  obtain ⟨h', hturned, hb⟩ := t.asked pre call _ hpre
  have hframe := hv.after fun e he => hds e (hpre.subset (List.mem_append_left _ he))
  exact hj _ call h' sts (hshow.shows hs htodo hp hframe (ht.trans hturned)) b (hb.symm.trans hb')

/-! ### A completed sweep -/

theorem Course.settles (hs : Scene d s files)
    (hc : Course d s files d.get? none ds (some (.ok (.completed summary))))
    (hans : ∀ todo, Todo d d.get? todo → todo.map (·.1) = files →
      Answered (fun u b => ∀ sts, Showing d s.matcher todo sts u → b = V (survivors d s files sts)) d.get? ds) :
    V (survivors d s files (whole d)) = true ∧ ∃ todo, Todo d d.get? todo ∧ todo.map (·.1) = files ∧
      Showing d s.matcher todo (settled d s files V todo (whole d)) (after d.get? ds) := by
  cases hc with
  | @taken es fs k todo r ho ht hp hk =>
    rw [Sweep.resumeIndex, List.drop_zero] at hp
    have hans := hans todo ht hp
    have hstart : Showing d s.matcher todo (whole d) d.get? := .whole hs.tree ht
    refine ⟨(hans.head _ hstart).symm, todo, ht, hp, ?_⟩
    have hsub : ∀ p ∈ todo.map (·.1), p ∈ files := fun p hp' => hp ▸ hp'
    have ht' := hs.todo_opening ho ht hsub
    obtain ⟨dir, n, rfl, hl, -⟩ := ho.trial
    have hstill : ∀ {gs : List Deed} {u : View}, (∀ e ∈ gs, ∀ l ∈ e.location?, Concerns d s d.get? [] l) →
        ∀ p x, (p, some x) ∈ todo → after u gs x.live = u x.live := by
      intro gs u hgs p x hx
      obtain ⟨rfl, hin⟩ := ht.lot p x hx
      exact hs.eq_of_no_lot hgs (hsub _ (List.mem_map.2 ⟨_, hx, rfl⟩)) (hin.fits.touches (.inl rfl)) u
    have hopen : Showing d s.matcher todo (whole d) (after d.get? es) := hstart.congr (hstill ho.concerns)
    cases hk with
    | @done dir' n' fs gs summary hw hf hg =>
      have hspread := hs.spread ht' hsub (hp ▸ hs.nodup) hw.leads
      have hnew : ∀ p x, (p, some x) ∈ todo → whole d p = x.untouched := by
        intro p x hx
        obtain ⟨rfl, hin⟩ := ht.lot p x hx
        exact whole_eq_untouched hs.tree hin
      have hsettled := hf.settles (by simp) hspread (.refl _) (fun p x hx => (ht'.lot p x hx).2) hnew hopen
        hans.tail.right.left
      have hgs : ∀ e ∈ gs, e = .erase (dir ++ [n]) := by
        rcases hg with ⟨rfl, -⟩ | ⟨rfl, -⟩ <;> simp
      rw [after_cons, after_append, after_append]
      exact hsettled.congr (hstill (finish_concerns hw.leads ⟨dir, n, hl, rfl⟩ hgs))

theorem completed_course (hf : Footing h.disk s files) (ro : o.ReadOnly)
    (hread : Progress.read h.disk s.progressFile = .ok .fresh)
    (hrun : Run.on (Sweep.run s o) (World.start h) = (.ok (.ok (.completed summary)), w)) :
    ∃ ds, Course h.disk s files h.disk.get? none ds (some (.ok (.completed summary))) ∧ Trail o h ds w ∧
      ∀ e ∈ ds, ∀ l ∈ e.location?, Concerns h.disk s h.disk.get? files l := by
  obtain ⟨ds, r, w', hc, t, hrun'⟩ := run_fresh ro hf.scene hread (hf.tells fun _ _ _ _ => Iff.rfl)
  obtain ⟨hr, rfl⟩ := Prod.mk.inj (hrun'.symm.trans hrun)
  obtain rfl : r = some (.ok (.completed summary)) := by
    cases r with
    | none => cases hr
    | some r => exact congrArg some (Except.ok.inj hr)
  exact ⟨ds, hc, t, by simpa [Sweep.resumeIndex] using hc.concerns⟩

theorem Course.shows (hs : Scene h.disk s files) (hj : o.JudgesOrCuts h.disk s files V)
    (hc : Course h.disk s files h.disk.get? none ds (some (.ok (.completed summary)))) (t : Trail o h ds w)
    (hds : ∀ e ∈ ds, ∀ l ∈ e.location?, Concerns h.disk s h.disk.get? files l) :
    ∃ todo, Todo h.disk h.disk.get? todo ∧ todo.map (·.1) = files ∧
      (∀ p x, (p, some x) ∈ todo → whole h.disk p = x.untouched) ∧
      Shows h.disk s files (settled h.disk s files V todo (whole h.disk)) w.disk ∧
      V (survivors h.disk s files (settled h.disk s files V todo (whole h.disk))) = true := by
  obtain ⟨hV, todo, htodo, hp, hshow⟩ := hc.settles hs fun todo htodo hp =>
    t.answered hs htodo hp hj (.refl hs.tree) (fun _ _ => rfl) hds
  have hnew : ∀ p x, (p, some x) ∈ todo → whole h.disk p = x.untouched := by
    intro p x hx
    obtain ⟨rfl, hin⟩ := htodo.lot p x hx
    exact whole_eq_untouched hs.tree hin
  exact ⟨todo, htodo, hp, hnew, hshow.shows hs htodo hp (Framed.after (fun _ _ => rfl) hds) t.now,
    verdict_settled (hp ▸ hs.nodup) hnew hV⟩

/-- A build of what a completed sweep leaves passes, whichever project is built, if its verdict is settled by
the candidate lines that are left. -/
theorem completed_builds {summary : Sweep.Summary} (hf : Footing h.disk s files) (ro : o.ReadOnly)
    (hj : o.Judges h.disk s files V) (hread : Progress.read h.disk s.progressFile = .ok .fresh)
    (hrun : Run.on (Sweep.run s o) (World.start h) = (.ok (.ok (.completed summary)), w)) :
    ∀ n call (h' : Host), h'.disk = w.disk → (o n call h').verdict = some true := by
  obtain ⟨ds, hc, t, hds⟩ := completed_course hf ro hread hrun
  obtain ⟨todo, -, -, -, hshows, hV⟩ := hc.shows hf.scene hj.judgesOrCuts t hds
  intro n call h' hdisk
  rw [hj n call h' _ (hdisk ▸ hshows), hV]

/-- The verdict in the workshop is settled by one line of the first source. -/
theorem Workshop.judges_of {d : Disk}
    (hc : d.content? first = some (Bytes.ofString "#include <a>\n#include <b>\nint x;\n")) :
    (Oracle.looking builds).Judges d settings [first, second] fun S => open Classical in decide ((first, 1) ∈ S) := by
  intro n call h sts hshow
  have hlines : split "#include <a>\n#include <b>\nint x;\n" =
      ["#include <a>\n", "#include <b>\n", "int x;\n"] := by decide +kernel
  have hb : settings.matcher.accepts (body "#include <b>\n") = true := by decide +kernel
  have hx : settings.matcher.accepts (body "int x;\n") = false := by decide +kernel
  obtain ⟨hst, hshown⟩ := hshow first (by simp) _ hc
  rw [hlines] at hst hshown
  have hmem : (first, 1) ∈ survivors d settings [first, second] sts ↔
      (sts first)[1]? = some .present := by
    refine ⟨fun h => h.2.1, fun h => ⟨by simp, h, _, _, hc, by rw [hlines]; rfl, hb⟩⟩
  have hkey : builds h.disk = decide ((sts first)[1]? = some .present) := by
    rw [builds, hshown]
    generalize sts first = st at hst
    obtain ⟨a, st₁, -, hst₁, rfl⟩ := List.forall₂_cons_right_iff.1 hst
    obtain ⟨b, st₂, -, hst₂, rfl⟩ := List.forall₂_cons_right_iff.1 hst₁
    obtain ⟨c, st₃, hc, hst₃, rfl⟩ := List.forall₂_cons_right_iff.1 hst₂
    obtain rfl := List.forall₂_nil_right_iff.1 hst₃
    obtain rfl : c = .present := hc.resolve_right (by simp [hx])
    cases a <;> cases b <;> decide +kernel
  simp only [Oracle.looking, hkey, hmem]

theorem Workshop.judges : (Oracle.looking builds).Judges (workshop 0o644) settings [first, second]
    fun S => open Classical in decide ((first, 1) ∈ S) := judges_of (by decide +kernel)

/-- The workshop can be swept, and swept again when the progress has been taken away. -/
theorem Workshop.completed : ∃ w, Run.on (Sweep.run settings (.looking builds))
      (World.start (.ofDisk (workshop 0o644))) = (.ok (.ok (.completed ⟨2, 2, [], [], []⟩)), w) ∧
    w.disk.content? first = some (Bytes.ofString "#include <b>\nint x;\n") ∧
    (w.disk.remove settings.progressFile).toOption.any (fun d₂ => d₂.exists? settings.sourceRoot &&
      d₂.exists? settings.project && !d₂.exists? settings.trialProject) = true :=
    exists_left (by decide +kernel)

/-- In the workshop the line that is needed is left, and the build still passes. -/
theorem completed_builds_workshop : ∃ summary w, Run.on (Sweep.run settings (.looking builds))
      (World.start (.ofDisk (workshop 0o644))) = (.ok (.ok (.completed summary)), w) ∧
    w.disk.content? first = some (Bytes.ofString "#include <b>\nint x;\n") ∧
    (Oracle.looking builds 1 (baselineCall settings) w.toHost).verdict = some true := by
  obtain ⟨w, hrun, hcontent, -⟩ := completed
  exact ⟨_, w, hrun, hcontent, completed_builds footing (Oracle.readOnly_looking _) judges read_fresh hrun 1 _ _ rfl⟩

/-- Where the trial project is a source under another name, the project is copied over that source. The sweep is
completed without the line that is needed. -/
theorem not_built_over_link : (∃ V, (Oracle.looking builds).Judges doubled settings [first, second] V) ∧
    ∃ summary w, Run.on (Sweep.run settings (.looking builds)) (World.start (.ofDisk doubled)) =
      (.ok (.ok (.completed summary)), w) ∧
    (Oracle.looking builds 1 (baselineCall settings) w.toHost).verdict = some false :=
  ⟨⟨_, judges_of (by decide +kernel)⟩, ⟨2, 0, [], [], []⟩, exists_left (by decide +kernel)⟩

end Prune
