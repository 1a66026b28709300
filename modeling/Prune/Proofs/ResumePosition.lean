import Prune.Proofs.Frame
import Prune.Proofs.Handles
import Prune.Proofs.Keeping

/-!
# Where a resumed run begins

The sources are sorted by the order in which they are compared with the marker, so halving finds the place that parts
those before it from the rest (`Sweep.resumeIndex_parts`). From there on a run takes one source after the other, and
says so each time (`visitedBy_run`).
-/

namespace Prune

open Disk Workshop

variable {s : Settings} {o : Oracle} {w w' : World} {files : List Path} {L : List Event}

/-! ### The place of the marker -/

namespace Sources

theorem on_sift_fst (extensions : List Bytes) (found : List Found) (w : World) :
    (Work.on (sift extensions found) w).1 = sifted extensions found := by
  induction found generalizing w with
  | nil => rfl
  | cons f found ih =>
    rw [sift, sifted]
    split
    · rfl
    split
    · exact ih w
    split
    · rfl
    split
    · exact ih _
    · simp only [Work.on_bind, ih w]
      cases sifted extensions found <;> rfl

theorem on_find_fst (root : Path) (extensions : List Bytes) (w : World) :
    (Work.on (find root extensions) w).1 = listed w.disk root extensions := by
  rw [on_find, listed]
  cases w.disk.walk root with
  | error f => rfl
  | ok found =>
    simp only [findAlong, Work.on_bind, on_sift_fst]
    cases sifted extensions found <;> rfl

theorem sorted_of_listed {d : Disk} {root : Path} {extensions : List Bytes}
    (h : listed d root extensions = .ok files) : files.Pairwise fun p q => p.le q = true := by
  unfold listed at h
  split at h
  · cases h
  · next found _ =>
    cases hs : sifted extensions found with
    | error e => simp [hs, Except.map] at h
    | ok fs =>
      rw [hs] at h
      cases h
      exact pairwise_sortBy Path.le_trans Path.le_total fs

end Sources

theorem Path.key_eq_of_same {p q : Path} (h : p.same q = true) : p.key = q.key := by
  simp only [same, beq_iff_eq] at h
  rw [key, key, h]

theorem Path.same_or_lt {p q : Path} (h : p.le q = true) : p.same q = true ∨ p.lt q = true := by
  rcases (le_iff.1 h).eq_or_lt with h | h
  · exact .inl (by simp [same, components_eq_of_key_eq h])
  · exact .inr (lt_iff.2 h)

theorem Sweep.resumeIndex_congr {m m' : Path} (h : m'.same m = true) (files : List Path) :
    resumeIndex files (some m') = resumeIndex files (some m) := by
  simp only [resumeIndex, Path.lt, Path.key_eq_of_same h]

theorem Sweep.resumeIndex_parts (h : files.Pairwise fun p q => p.le q = true) (m : Path) :
    resumeIndex files (some m) ≤ files.length ∧
      files.take (resumeIndex files (some m)) = files.filter (·.lt m) ∧
      files.drop (resumeIndex files (some m)) = files.filter (m.le ·) := by
  have hparts : files.filter (·.lt m) ++ files.filter (m.le ·) = files :=
    filter_append_filter (h.imp fun hpq hq => Path.lt_iff.2 ((Path.le_iff.1 hpq).trans_lt (Path.lt_iff.1 hq)))
  have hk : resumeIndex files (some m) = (files.filter (·.lt m)).length := by
    conv_lhs => rw [← hparts]
    refine partitionPoint_append (fun p hp => (List.mem_filter.1 hp).2) fun p hp => ?_
    have hle := (List.mem_filter.1 hp).2
    simpa [Path.le] using hle
  rw [hk]
  exact ⟨List.length_filter_le .., (congrArg (List.take _) hparts).symm.trans List.take_left,
    (congrArg (List.drop _) hparts).symm.trans List.drop_left⟩

/-! ### Sources that are taken -/

/-- What is said when a source is taken. -/
def Sweep.visit (total : Nat) (x : Path × Nat) : Event :=
  ⟨.info, target, taking, [("file", .path x.1), ("position", .number x.2), ("total", .number total)]⟩

/-- The sweep itself says that a source is taken. What builds say, they say under a name of their own. -/
def World.visits (w : World) : List Event := w.events.filter fun e => e.target = Sweep.target ∧ e.message = Sweep.taking

theorem World.visits_emit (w : World) (e : Event) : (w.emit e).visits =
    w.visits ++ if e.target = Sweep.target ∧ e.message = Sweep.taking then [e] else [] := by
  simp only [visits, events, history, emit, List.reverse_cons, List.filterMap_append, List.filter_append]
  split <;> simp [*]

theorem World.visits_notes (notes : List Note) (w : World) :
    ((notes.map Note.event).foldl World.emit w).visits = w.visits := by
  induction notes generalizing w with
  | nil => rfl
  | cons n notes ih =>
    have hne : (Note.event n).target ≠ Sweep.target := show Note.target ≠ Sweep.target by decide
    rw [List.map_cons, List.foldl_cons, ih, visits_emit, if_neg fun h => hne h.1, List.append_nil]

theorem World.visits_change (w : World) (d : Disk) : (w.change d).visits = w.visits := by
  simp [visits, events, history, change]

theorem World.visits_changes (disks : List Disk) (w : World) : (disks.foldl World.change w).visits = w.visits := by
  induction disks generalizing w with
  | nil => rfl
  | cons d disks ih => exact (ih (w.change d)).trans (w.visits_change d)

theorem keeps_visits (change : Disk → Except Fault Disk) :
    Work.Keeps (·.visits = L) (Work.carryOut change) fun _ => True := by
  intro w hw
  simp only [Work.carryOut, Work.on_bind, Work.on_disk]
  cases change w.disk with
  | error f => exact ⟨hw, trivial⟩
  | ok d => exact ⟨(w.visits_change d).trans hw, trivial⟩

theorem keeps_visits_copy (source target : Path) : Work.Keeps (·.visits = L) (Work.copy source target) fun _ => True := by
  intro w hw
  rw [Work.on_copy]
  cases w.disk.copy source target with
  | error f => exact ⟨hw, trivial⟩
  | ok disks => exact ⟨(w.visits_changes disks).trans hw, trivial⟩

theorem lasting_visits : Lasting o (·.visits = L) fun _ => True where
  emit w e he hw := by rw [World.visits_emit, if_neg fun h => he h.2, List.append_nil, hw]
  build call := Run.keeps_build fun w hw => by
    rw [Run.on_build, World.visits_notes]
    exact Eq.trans (by simp [World.visits, World.events, World.history, World.answered]) hw
  replace p content _ w hw := by
    rw [Work.on_replace]
    split
    · next d _ => exact ⟨(w.visits_change d).trans hw, trivial⟩
    · exact ⟨hw, trivial⟩
  remove p _ := keeps_visits _

/-- Work that takes no source may come first, whatever is to be known of the visits and the end. -/
theorem Run.visits_bind {α β : Type} {P : List Event → Except Interrupted β × World → Prop} {x : Run α} {f : α → Run β}
    (hx : ∀ L, Run.Keeps o (·.visits = L) x fun _ => True) (hcut : ∀ w, P w.visits (.error ⟨⟩, w))
    (hf : ∀ a w, P w.visits (Run.on (f a) w)) (w : World) : P w.visits (Run.on (x >>= f) w) :=
  (hx w.visits).onward (P := P w.visits) (fun w' hw => hw ▸ hcut w') (fun a _ w' hw => hw ▸ hf a w') rfl

section
variable {β : Type} {total : Nat} {todo : List (Path × Nat)}

/-- Sources were taken as `todo` has them, one after the other. If the work came to its end, all of them were, and its
answer is as `Q` says. -/
def Visited (total : Nat) (todo : List (Path × Nat)) (Q : β → Prop) (before : List Event)
    (r : Except Interrupted (Except Sweep.Problem β) × World) : Prop :=
  ∃ taken, taken <+: todo ∧ r.2.visits = before ++ taken.map (Sweep.visit total) ∧
    ∀ b, r.1 = .ok (.ok b) → taken = todo ∧ Q b

variable {Q : β → Prop}

theorem Visited.none {r : Except Interrupted (Except Sweep.Problem β)} (hr : ∀ b, r ≠ .ok (.ok b)) (w : World) :
    Visited total todo Q w.visits (r, w) :=
  ⟨[], List.nil_prefix, by simp, fun b hb => absurd hb (hr b)⟩

theorem visited_visit {p : Path} {position : Nat} {y : Run (Except Sweep.Problem β)}
    (hy : ∀ w, Visited total todo Q w.visits (Run.on y w)) (w : World) :
    Visited total ((p, position) :: todo) Q w.visits (Run.on (do
      Work.report .info Sweep.target Sweep.taking
        [("file", .path p), ("position", .number position), ("total", .number total)]
      y) w) := by
  obtain ⟨taken, hpre, hvisits, hall⟩ := hy (w.emit (Sweep.visit total (p, position)))
  refine ⟨(p, position) :: taken, List.cons_prefix_cons.2 ⟨rfl, hpre⟩, hvisits.trans ?_, fun b hb =>
    (hall b hb).imp_left (congrArg _)⟩
  rw [World.visits_emit, if_pos ⟨rfl, rfl⟩, List.append_assoc]
  rfl

theorem visited_bind {α : Type} {Q' : α → Prop} {x : Run (Except Sweep.Problem α)}
    {f : Except Sweep.Problem α → Run (Except Sweep.Problem β)}
    (hx : ∀ w, Visited total todo Q' w.visits (Run.on x w)) (herr : ∀ e, f (.error e) = pure (.error e))
    (hok : ∀ a L, Q' a → Run.Keeps o (·.visits = L) (f (.ok a)) fun r => ∀ b, r = .ok b → Q b) (w : World) :
    Visited total todo Q w.visits (Run.on (x >>= f) w) := by
  obtain ⟨taken, hpre, hvisits, hall⟩ := hx w
  rw [Run.on_bind]
  rcases hrun : Run.on x w with ⟨_ | e | a, w'⟩
  all_goals rw [hrun] at hvisits hall
  · exact ⟨taken, hpre, hvisits, by simp⟩
  · simp only [herr]
    exact ⟨taken, hpre, hvisits, by simp⟩
  · obtain ⟨htaken, hQ⟩ := hall a rfl
    obtain ⟨hkept, hans⟩ := hok a w'.visits hQ w' rfl
    refine ⟨taken, hpre, hkept.trans hvisits, fun b hb => ⟨htaken, ?_⟩⟩
    obtain ⟨r, hr, hq⟩ | ⟨hcut, -⟩ := hans
    · exact hq b (Except.ok.inj (hr.symm.trans hb))
    · cases hcut.symm.trans hb

theorem visited_processFiles (position : Nat) (files : List Path) (summary : Sweep.Summary) (w : World) :
    Visited total (files.zipIdx position) (fun b => b.filesProcessed = summary.filesProcessed + files.length) w.visits
      (Run.on (Sweep.processFiles s o total position files summary) w) := by
  have hsteps := fun L => lasting_visits (o := o) (L := L)
  induction files generalizing position summary w with
  | nil =>
    refine ⟨[], List.prefix_rfl, by simp [Sweep.processFiles], fun b hb => ⟨rfl, ?_⟩⟩
    cases hb
    rfl
  | cons p files ih =>
    refine visited_visit (Run.visits_bind (o := o) (fun L => ((hsteps L).save trivial _).lift)
      (Visited.none (by simp)) fun r => ?_) w
    cases r with
    | error e => exact Visited.none (by simp)
    | ok u =>
      refine Run.visits_bind (fun L => (hsteps L).processFile trivial trivial) (Visited.none (by simp)) fun fate =>
        Run.visits_bind (o := o) (fun L => ((hsteps L).save trivial _).lift) (Visited.none (by simp)) fun r => ?_
      cases r with
      | error e => exact Visited.none (by simp)
      | ok u =>
        have hrecord : (summary.record p fate).filesProcessed + files.length =
            summary.filesProcessed + (p :: files).length := by
          cases fate <;> simp only [Sweep.Summary.record, List.length_cons] <;> omega
        rw [← hrecord]
        exact ih (position + 1) (summary.record p fate)

/-- The sources from `k` on, with their numbers. -/
def Sweep.remaining (files : List Path) (k : Nat) : List (Path × Nat) := (files.drop k).zipIdx (k + 1)

/-- A sweep was completed that counts as many files as are given. -/
def Sweep.Counts (n : Nat) (outcome : Outcome) : Prop := ∃ summary, outcome = .completed summary ∧ summary.filesProcessed = n

theorem visited_sweepFiles (files : List Path) (marker : Option Path) (w : World) :
    Visited files.length (Sweep.remaining files (Sweep.resumeIndex files marker))
      (Sweep.Counts (files.drop (Sweep.resumeIndex files marker)).length) w.visits
      (Run.on (Sweep.sweepFiles s o files marker) w) := by
  have hsteps := fun L => lasting_visits (o := o) (L := L)
  refine Run.visits_bind (o := o) (fun L => ((hsteps L).report (by decide)).lift) (Visited.none (by simp))
    (fun _ w => ?_) w
  refine visited_bind (o := o) (visited_processFiles _ _ _) ?_ (fun summary L hsum => ?_) w
  · exact fun _ => rfl
  · refine ((hsteps L).save trivial _).lift.either (fun _ => .pure (by simp)) fun _ =>
      ((hsteps L).removeTrialProject trivial).lift.bind fun _ _ =>
        ((hsteps L).report (by decide)).lift.bind fun _ _ => .pure ?_
    rintro _ ⟨⟩
    exact ⟨summary, rfl, hsum.trans (Nat.zero_add _)⟩

end

/-- The run took no source and did not come to its end, or it took those that it had found, from the marker on. -/
def VisitedBy (finds : List Path → World → World → Prop) (marker : Option Path) (before : List Event)
    (r : Except Interrupted (Except Sweep.Problem Sweep.Outcome) × World) : Prop :=
  (r.2.visits = before ∧ ∀ summary, r.1 ≠ .ok (.ok (.completed summary))) ∨
    ∃ files w₁ w₂, finds files w₁ w₂ ∧
      Visited files.length (Sweep.remaining files (Sweep.resumeIndex files marker))
        (Sweep.Counts (files.drop (Sweep.resumeIndex files marker)).length) before r

theorem VisitedBy.none {finds : List Path → World → World → Prop} {marker : Option Path} {before : List Event}
    {r : Except Interrupted (Except Sweep.Problem Sweep.Outcome)} (hw : w.visits = before)
    (hr : ∀ summary, r ≠ .ok (.ok (.completed summary))) : VisitedBy finds marker before (r, w) :=
  .inl ⟨hw, hr⟩

theorem visitedBy_sweepFrom (marker : Option Path) {w₀ : World}
    (hw : Sweep.Begins s w marker w₀) :
    VisitedBy (Sweep.Finds s o w marker) marker w₀.visits (Run.on (Sweep.sweepFrom s o marker) w₀) := by
  have hsteps := lasting_visits (o := o) (L := w₀.visits)
  have hbuilt := (hsteps.checkBaseline (s := s) w₀ rfl).1
  rw [Sweep.sweepFrom, Run.on_bind]
  rcases hrun : Run.on (Sweep.checkBaseline s o) w₀ with ⟨_ | _ | u, w₁⟩
  all_goals rw [hrun] at hbuilt
  · exact .none hbuilt (by simp)
  · exact .none hbuilt (by simp)
  have hfind := (hsteps.find (fun _ _ => trivial) s.sourceRoot s.extensions w₁ hbuilt).1
  simp only [Run.on_bind, Run.on_lift]
  rcases hfound : Work.on (Sources.find s.sourceRoot s.extensions) w₁ with ⟨_ | files, w₂⟩
  all_goals rw [hfound] at hfind
  · exact .none hfind (by simp)
  refine .inr ⟨files, w₁, w₂, ⟨⟨w₀, hw, hrun⟩, hfound⟩, ?_⟩
  rw [← hfind]
  refine Run.visits_bind (o := o) (fun L => (keeps_visits_copy s.project s.trialProject).lift) (Visited.none (by simp)) (fun r => ?_) w₂
  cases r with
  | error f => exact Visited.none (by simp)
  | ok u => exact visited_sweepFiles files marker

theorem visitedBy_run (s : Settings) (o : Oracle) (w : World) :
    VisitedBy (Sweep.Finds s o w (marked? w.disk s)) (marked? w.disk s) w.visits (Run.on (Sweep.run s o) w) := by
  have hsteps := lasting_visits (o := o) (L := w.visits)
  rw [Sweep.run, Run.on_bind, Run.on_lift, Work.on_disk, marked?]
  dsimp only
  cases hread : Progress.read w.disk s.progressFile with
  | error e => exact .none rfl (by simp)
  | ok position =>
    cases position with
    | done => exact .none (hsteps.report (by decide) w rfl).1 (by simp)
    | fresh => exact visitedBy_sweepFrom none (.fresh hread)
    | inProgress m =>
      have hrec := (hsteps.recover (p := m) trivial trivial w rfl).1
      simp only [Run.on_bind, Run.on_lift]
      rcases hrun : Work.on (Sweep.recover m) w with ⟨_ | u, w₀⟩
      all_goals rw [hrun] at hrec
      · exact .none hrec (by simp)
      · rw [← hrec]
        exact visitedBy_sweepFrom (some m) (.marked hread hrun)

/-- The sources before the marker are left out and those from it on are taken, whether it is among them or not. -/
theorem resumed_at_marker (s : Settings) (o : Oracle) :
    (∀ (w : World) (files : List Path), (Work.on (Sources.find s.sourceRoot s.extensions) w).1 = .ok files →
      Sweep.resumeIndex files none = 0 ∧ ∀ m : Path,
        let k := Sweep.resumeIndex files (some m)
        k ≤ files.length ∧ (∀ p ∈ files.take k, p.lt m = true) ∧ (∀ p ∈ files.drop k, m.le p = true) ∧
        (∀ m' : Path, m'.same m = true → Sweep.resumeIndex files (some m') = k) ∧
        (Tree w.disk → ∀ before p after, files = before ++ p :: after → p.same m = true → files.drop k = p :: after) ∧
        ((∀ p ∈ files, p.same m = false) → files.drop k = files.filter (m.lt ·))) ∧
    ∀ w : World, VisitedBy (Sweep.Finds s o w (marked? w.disk s)) (marked? w.disk s) w.visits
      (Run.on (Sweep.run s o) w) := by
  refine ⟨fun w files hfound => ⟨rfl, fun m => ?_⟩, visitedBy_run s o⟩
  rw [Sources.on_find_fst] at hfound
  obtain ⟨hk, htake, hdrop⟩ := Sweep.resumeIndex_parts (Sources.sorted_of_listed hfound) m
  refine ⟨hk, fun p hp => ?_, fun p hp => ?_, fun m' hm => Sweep.resumeIndex_congr hm files,
    fun hd before p after hfiles hp => ?_, fun hno => ?_⟩
  · rw [htake] at hp
    exact (List.mem_filter.1 hp).2
  · rw [hdrop] at hp
    exact (List.mem_filter.1 hp).2
  · have hsorted := (Sources.listing_of_listed hd hfound).1.sorted
    rw [← Sweep.resumeIndex_congr hp]
    subst hfiles
    exact Sweep.drop_resumeIndex hsorted
  · refine hdrop.trans (List.filter_congr fun p hp => ?_)
    rw [Bool.eq_iff_iff]
    refine ⟨fun hle => (Path.same_or_lt hle).resolve_left fun hsame => ?_, fun hlt => ?_⟩
    · rw [Path.same, beq_iff_eq] at hsame
      simpa [Path.same, hsame] using hno p hp
    · simp [Path.le, Path.lt_asymm hlt]

/-- A path that was written down with more slashes and dots still leads to its source, and a run that was cut off there
takes this one alone. -/
theorem resumed_at_marker_respelled :
    let files := [first, second]
    let before := World.start (.ofDisk halted)
    let run := Run.on (Sweep.run settings (.looking builds)) before
    files.drop (Sweep.resumeIndex files (some (.ofString "src//./b.cpp"))) = [second] ∧
    ∃ found w₁ w₂, Sweep.Finds settings (.looking builds) before (some second) found w₁ w₂ ∧
      run.2.visits = (Sweep.remaining found (Sweep.resumeIndex found (some second))).map
        (Sweep.visit found.length) ∧ (found.drop (Sweep.resumeIndex found (some second))).length = 1 := by
  have hfound : (Work.on (Sources.find settings.sourceRoot settings.extensions)
      (World.start (.ofDisk (workshop 0o644)))).1 = .ok [first, second] := by decide +kernel
  have hmark : marked? (World.start (.ofDisk halted)).disk settings = some second := by decide +kernel
  obtain ⟨_, hcompleted⟩ := completed_halted
  have hend := congrArg Prod.fst hcompleted
  obtain ⟨hplace, hrun⟩ := resumed_at_marker settings (.looking builds)
  obtain ⟨-, -, -, -, hsame, -⟩ := (hplace _ _ hfound).2 (.ofString "src//./b.cpp")
  refine ⟨hsame footing.tree [first] second [] rfl (by decide +kernel), ?_⟩
  obtain ⟨-, hno⟩ | ⟨found, w₁, w₂, hfinds, taken, -, hvisits, hall⟩ := hrun (World.start (.ofDisk halted))
  · exact absurd hend (hno _)
  · obtain ⟨rfl, summary, hsum, hcount⟩ := hall _ hend
    rw [hmark] at hfinds hvisits hcount
    cases hsum
    exact ⟨found, w₁, w₂, hfinds, hvisits, hcount.symm⟩

end Prune
