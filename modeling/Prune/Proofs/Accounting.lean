import Mathlib.Algebra.Ring.Nat
import Prune.Proofs.Frame
import Prune.Proofs.Trials

/-!
# The books of a run

A completed run can be read off three times: from its builds, from what it reports, and from the lines that its
sources have lost. The books agree (`books_balance`): after the first build there is one build of the trial project
for every candidate of every source that was taken, the lines reported as removed are those whose build passed, and
so many lines fewer are on the disk. Sources are taken one after the other, so what is true of one pass
(`Passes.exact`) is put together along the list (`Files.exact`).
-/

namespace Prune

open Disk Artefact Lines Pass Workshop Function

variable {d : Disk} {x : Lot} {v : View} {ds es : List Deed} {call : BuildCall} {m : Directive.Matcher}
  {o : Oracle} {h : Host} {w : World} {s : Settings} {files : List Path} {live prog : Location} {mode : Nat}

/-! ### Counting lines -/

namespace Lines

theorem length_kept {states : List State} {lines : List Bytes} (h : states.length = lines.length) :
    (kept states lines).length + states.count .dropped = lines.length := by
  fun_induction kept states lines with
  | case1 lines => simpa using h
  | case2 states => simp [List.length_eq_zero_iff.1 h]
  | case3 states line lines ih =>
    have := ih (by simpa using h)
    simp only [List.count_cons_self, List.length_cons]
    omega
  | case4 st states line lines hne ih =>
    have := ih (by simpa using h)
    simp only [List.length_cons, List.count_cons_of_ne (Ne.intro hne)]
    omega

theorem length_split_without {gone : List Nat} {c : Bytes} (hnodup : gone.Nodup)
    (hlt : ∀ i ∈ gone, i < (split c).length) :
    (split (without gone (split c))).length + gone.length = (split c).length := by
  have hsettle : (statesOf gone (split c).length).map State.settle =
      (List.range (split c).length).map fun i => if i ∈ gone then .dropped else .present := by
    rw [statesOf, List.map_map]
    refine List.map_congr_left fun i _ => ?_
    simp only [comp_apply]
    split <;> rfl
  have hblank : .blanked ∉ (statesOf gone (split c).length).map State.settle := by
    rw [hsettle]
    simp only [List.mem_map, not_exists, not_and]
    intro i _
    split <;> simp
  have hcount : ((statesOf gone (split c).length).map State.settle).count .dropped = gone.length := by
    have hperm : ((List.range (split c).length).filter (· ∈ gone)).Perm gone := by
      rw [List.perm_ext_iff_of_nodup (List.nodup_range.filter _) hnodup]
      simp only [List.mem_filter, List.mem_range, decide_eq_true_eq]
      exact fun i => ⟨fun h => h.2, fun h => ⟨hlt i h, h⟩⟩
    rw [hsettle, ← hperm.length_eq, List.count, List.countP_map, List.countP_eq_length_filter]
    congr 2
    funext i
    by_cases hi : i ∈ gone <;> simp [hi]
  rw [← render_settle_statesOf, split_render hblank, ← hcount]
  exact length_kept (by simp [statesOf])

end Lines

theorem Pass.nodup_index_candidates (m : Directive.Matcher) (lines : List Bytes) :
    ((candidates m lines).map (·.index)).Nodup := by
  have hnumbers : ((candidates m lines).map Candidate.number).Nodup := by
    rw [candidates, number_candidatesFrom]
    have hrange : ((lines.zipIdx 1).map (·.2)).Nodup := by
      rw [List.zipIdx_map_snd]
      exact List.nodup_range'
    exact hrange.sublist (List.filter_sublist.map _)
  refine .of_map (· + 1) ?_
  rw [List.map_map]
  exact hnumbers

theorem Pass.length_split_without_removed {findings : List Finding} {content : Bytes}
    (h : findings.map (·.candidate) = candidates m (split content)) :
    (split (without (removedPlaces findings) (split content))).length + findings.countP (·.removed) =
      (split content).length := by
  have hindex : findings.map (·.candidate.index) = (candidates m (split content)).map (·.index) := by
    rw [← h, List.map_map]
    rfl
  have hsub : (removedPlaces findings).Sublist ((candidates m (split content)).map (·.index)) := by
    rw [← hindex]
    exact List.filter_sublist.map _
  have hlength : (removedPlaces findings).length = findings.countP (·.removed) := by
    rw [removedPlaces, List.length_map, List.countP_eq_length_filter]
  rw [← hlength]
  refine length_split_without ((nodup_index_candidates m _).sublist hsub) fun i hi => ?_
  obtain ⟨c, hc, rfl⟩ := List.mem_map.1 (hsub.subset hi)
  obtain ⟨line, hline, -⟩ := mem_candidates hc
  exact (List.getElem?_eq_some_iff.1 hline).1

/-! ### The builds of the sources that were taken -/

/-- A build that tried the candidate `f` in the lot `x`: of the places that have nothing to do with the lots `todo`
nor with the progress it saw what was there before. -/
structure Tried (call : BuildCall) (prog : Location) (todo : List (Path × Option Lot)) (v : View) (q : Inquiry)
    (t : Lot × Finding) : Prop where
  lot : ∃ p, (p, some t.1) ∈ todo
  call : q.call = call
  verdict : q.verdict = some t.2.removed
  others : ∀ l, l ≠ prog → (∀ p x, (p, some x) ∈ todo → ¬ x.At l) → q.view l = v l
  shown : ∃ gone, q.view t.1.live = some (.file t.1.mode (blanking (gone ++ [t.2.candidate.index]) t.1.lines))

theorem Tried.weaken {todo todo' : List (Path × Option Lot)} {u : View} {q : Inquiry} {t : Lot × Finding}
    (ht : Tried call prog todo u q t) (hsub : ∀ p x, (p, some x) ∈ todo → (p, some x) ∈ todo')
    (hu : ∀ l, l ≠ prog → (∀ p x, (p, some x) ∈ todo' → ¬ x.At l) → u l = v l) : Tried call prog todo' v q t where
  lot := ht.lot.imp fun p => hsub p _
  call := ht.call
  verdict := ht.verdict
  others l hl hat := (ht.others l hl fun p x hx => hat p x (hsub p x hx)).trans (hu l hl hat)
  shown := ht.shown

theorem forall₂_trialsOf {R : Inquiry → Finding → Prop} {lines : List Bytes}
    (hR : ∀ (f : Finding) gone, R ⟨update v live (some (.file mode (blanking (gone ++ [f.candidate.index]) lines))),
      call, some f.removed⟩ f) (gone : List Nat) (fs : List Finding) :
    List.Forall₂ R (trialsOf call live mode lines v gone fs) fs := by
  induction fs generalizing gone with
  | nil => exact .nil
  | cons f fs ih => exact .cons (hR f gone) (ih _)

/-- What a pass that is done has found out, which builds it made, and what it left. -/
theorem Passes.exact {fs : List Finding} {final : List State} {todo : List (Path × Option Lot)} {p : Path}
    (prog : Location) (hp : Passes m call x ds (some (fs, final))) (hx : (p, some x) ∈ todo) (hne : x.live ≠ x.copy)
    (hv : v x.live = some (.file x.mode x.content)) :
    fs.map (·.candidate) = candidates m x.lines ∧
      List.Forall₂ (Tried call prog todo v) (inquiries v ds) (fs.map (x, ·)) ∧
      after v ds x.live = some (.file x.mode (without (removedPlaces fs) x.lines)) := by
  cases hp with
  | @done ds _ _ ht =>
    set v₁ := Deed.apply (.write x.copy x.content) v with hv₁
    have hlive : v₁ x.live = some (.file x.mode x.content) := by rw [hv₁, Deed.apply, update_of_ne hne, hv]
    obtain ⟨hcs, hfinal, hasked, c, hlast⟩ := ht.exact (statesOf_nil _).symm hlive fs final rfl
    have hresult : x.result final = without (removedPlaces fs) x.lines := by
      rw [Lot.result, hfinal, List.nil_append, render_settle_statesOf]
    refine ⟨hcs, ?_, ?_⟩
    · rw [inquiries_cons rfl, ← hv₁, inquiries_append, inquiries_append, hasked, Lot.inquiries_closing,
        inquiries_cons rfl, inquiries, List.append_nil, List.append_nil, List.forall₂_map_right_iff]
      refine forall₂_trialsOf (fun f gone => ⟨⟨p, hx⟩, rfl, rfl, fun l hprog hl => ?_, gone, update_self ..⟩) [] fs
      have hat := hl p x hx
      change update v₁ _ _ l = _
      rw [update_of_ne fun h => hat (.inl h), hv₁, Deed.apply, update_of_ne fun h => hat (.inr h)]
    · rw [after_cons, ← hv₁, after_append, after_append, after_cons, after_nil, Deed.apply, update_of_ne hne,
        Lot.after_closing hlast fun hnone => ?_, hresult]
      -- without a candidate nothing was tried, and the content is the one there was
      rw [hnone] at ht
      cases ht
      rw [after_nil, hlive] at hlast
      cases hlast
      exact x.result_untouched.symm

/-- A source that was taken, and what was found out about it if it was a lot. -/
abbrev Taken := Path × Option (Lot × List Finding)

namespace Taken

def source (t : Taken) : Path × Option Lot := (t.1, t.2.map (·.1))

def trials (t : Taken) : List (Lot × Finding) := (t.2.map fun out => out.2.map (out.1, ·)).getD []

end Taken

/-- What taking sources has found out, which builds it made, what it left and what it counted. -/
theorem Files.exact {todo : List (Path × Option Lot)} {summary final : Sweep.Summary}
    (hf : Files prog call m todo summary es (some final)) (hs : Spread prog todo)
    (hv : ∀ p x, (p, some x) ∈ todo → v x.live = some (.file x.mode x.content)) :
    ∃ took : List Taken, took.map Taken.source = todo ∧
      (∀ p x fs, (p, some (x, fs)) ∈ took → fs.map (·.candidate) = candidates m x.lines ∧
        after v es x.live = some (.file x.mode (without (removedPlaces fs) x.lines))) ∧
      List.Forall₂ (Tried call prog todo v) (inquiries v es) (took.flatMap Taken.trials) ∧
      final = ⟨summary.filesProcessed + took.length,
        summary.linesRemoved + (took.flatMap Taken.trials).countP (·.2.removed), summary.restored,
        summary.restoreFailed, summary.notStarted ++ (took.filter (·.2.isNone)).map (·.1)⟩ := by
  generalize hr : some final = r at hf
  induction hf generalizing v with
  | nil summary =>
    cases hr
    exact ⟨[], rfl, by simp, .nil, by simp⟩
  | cut => cases hr
  | @done p x todo summary ds es out r hp hf ih =>
    obtain ⟨fs, states⟩ := out
    have hx : (p, some x) ∈ (p, some x) :: todo := List.mem_cons_self
    have hprog : x.live ≠ prog := fun h => hs.progress p x hx (.inl h.symm)
    set v₁ := Deed.apply (.write prog p.text) v with hv₁
    set v₂ := Deed.apply (.write prog []) (after v₁ ds) with hv₂
    have hother : ∀ l, l ≠ prog → v₁ l = v l ∧ v₂ l = after v₁ ds l := fun l hl => by
      rw [hv₁, hv₂, Deed.apply, Deed.apply, update_of_ne hl, update_of_ne hl]
      exact ⟨rfl, rfl⟩
    have hframe : ∀ l, l ≠ prog → ¬ x.At l → v₂ l = v l := fun l hl hat => by
      rw [(hother l hl).2, after_of_forall (fun e he hloc => hat (hp.location_eq e he l hloc)), (hother l hl).1]
    have happart : ∀ q y, (q, some y) ∈ todo → ¬ x.At y.live ∧ ¬ y.At x.live := by
      intro q y hy
      have hne : p ≠ q := fun h => (List.nodup_cons.1 hs.nodup).1 (h ▸ List.mem_map_of_mem (f := (·.1)) hy)
      have hy' := List.mem_cons_of_mem (p, some x) hy
      exact ⟨fun h => hne (hs.apart p x q y _ hx hy' h (.inl rfl)), fun h => hne (hs.apart p x q y _ hx hy' (.inl rfl) h)⟩
    obtain ⟨hcs, hbuilt, hlast⟩ := hp.exact prog hx (hs.own p x hx) ((hother _ hprog).1.trans (hv p x hx))
    obtain ⟨took, htook, hdone, hrest, hfinal⟩ := ih hs.tail (v := v₂) (fun q y hy => by
      have hy' := List.mem_cons_of_mem (p, some x) hy
      rw [hframe _ (fun h => hs.progress q y hy' (.inl h.symm)) (happart q y hy).1, hv q y hy']) hr
    refine ⟨(p, some (x, fs)) :: took, by simp [Taken.source, htook], ?_, ?_, ?_⟩
    · rintro q y gs hy
      rw [after_cons, ← hv₁, after_append, after_cons, ← hv₂]
      rcases List.mem_cons.1 hy with heq | hy
      · cases heq
        refine ⟨hcs, ?_⟩
        rw [after_of_forall, (hother _ hprog).2, hlast]
        intro e he hloc
        rcases hf.location_eq e he _ hloc with h | ⟨q, y, hy, hat⟩
        · exact hprog h
        · exact (happart q y hy).2 hat
      · exact hdone q y gs hy
    · rw [inquiries_cons rfl, ← hv₁, inquiries_append, inquiries_cons rfl, ← hv₂, List.flatMap_cons]
      refine List.rel_append (hbuilt.imp fun q t ht => ?_) (hrest.imp fun q t ht => ?_)
      · exact ht.weaken (fun _ _ h => h) fun l hl _ => (hother l hl).1
      · exact ht.weaken (fun _ _ => List.mem_cons_of_mem _) fun l hl hat => hframe l hl (hat p x hx)
    · have hcount : (Taken.trials (p, some (x, fs))).countP (·.2.removed) = (fs.filter (·.removed)).length := by
        rw [Taken.trials, Option.map_some, Option.getD_some, List.countP_map, ← List.countP_eq_length_filter]
        rfl
      rw [hfinal, Sweep.Summary.mk.injEq, List.flatMap_cons, List.countP_append, hcount]
      refine ⟨?_, (Nat.add_assoc ..), rfl, rfl, rfl⟩
      simp only [Sweep.Summary.record, List.length_cons]
      omega
  | @skip p todo summary es r e hf ih =>
    set v₂ := Deed.apply (.write prog []) (Deed.apply (.write prog p.text) v) with hv₂
    have hother : ∀ l, l ≠ prog → v₂ l = v l := fun l hl => by
      rw [hv₂, Deed.apply, Deed.apply, update_of_ne hl, update_of_ne hl]
    obtain ⟨took, htook, hdone, hrest, hfinal⟩ := ih hs.tail (v := v₂) (fun q y hy => by
      have hy' := List.mem_cons_of_mem (p, none) hy
      rw [hother _ (fun h => hs.progress q y hy' (.inl h.symm)), hv q y hy']) hr
    refine ⟨(p, none) :: took, by simp [Taken.source, htook], ?_, ?_, ?_⟩
    · rintro q y gs hy
      exact hdone q y gs ((List.mem_cons.1 hy).resolve_left (by simp))
    · rw [inquiries_cons rfl, inquiries_cons rfl, ← hv₂, List.flatMap_cons]
      exact hrest.imp fun q t ht => ht.weaken (fun _ _ => List.mem_cons_of_mem _) fun l hl _ => hother l hl
    · rw [hfinal, Sweep.Summary.mk.injEq]
      refine ⟨?_, rfl, rfl, rfl, by simp [Sweep.Summary.record]⟩
      simp only [Sweep.Summary.record, List.length_cons]
      omega

/-! ### A whole run -/

def Disk.lineCount (d : Disk) (p : Path) : Nat := ((d.content? p).map fun c => (split c).length).getD 0

/-- A source that was taken, and what was found out about its candidates if it was not passed over. -/
abbrev PassOf := Path × Option (List Finding)

def PassOf.trials (t : PassOf) : List (Path × Finding) := (t.2.getD []).map (t.1, ·)

/-- A build that tried a candidate of a source which held what `r` shows, with a trial project that holds
`project`. -/
structure TrialOf (s : Settings) (project : Bytes) (r : Disk) (b : Build) (t : Path × Finding) : Prop where
  call : b.call = ⟨s.trialProject, s.configuration⟩
  verdict : b.verdict = some t.2.removed
  project : b.before.content? s.trialProject = some project
  blanked : ∃ content gone, r.content? t.1 = some content ∧
    b.before.content? t.1 = some (blanking (gone ++ [t.2.candidate.index]) (split content))

/-- The books of a completed run that began on `h` and found the sources `files`. -/
structure Books (s : Settings) (h : Host) (files : List Path) (summary : Sweep.Summary) (w : World) (first : Build)
    (rest : List Build) (passes : List PassOf) : Prop where
  builds : w.builds = first :: rest
  baseline : first.call = ⟨s.project, s.configuration⟩ ∧ first.verdict = some true
  /-- Up to then no source has changed, unless it is the marked file. -/
  untouched : ∀ p ∈ files, (∀ m ∈ marked? h.disk s, h.disk.locate m ≠ h.disk.locate p) →
    first.before.file? p = h.disk.file? p
  order : passes.map (·.1) = files.drop (Sweep.resumeIndex files (marked? h.disk s))
  skipped : summary.notStarted = (passes.filter (·.2.isNone)).map (·.1)
  candidates : ∀ p fs, (p, some fs) ∈ passes → ∃ content, (recovered s h).content? p = some content ∧
    fs.map (·.candidate) = candidates s.matcher (split content) ∧
    w.disk.content? p = some (without (removedPlaces fs) (split content))
  /-- One build for each candidate, in order. -/
  trials : ∃ project, (recovered s h).content? s.project = some project ∧
    List.Forall₂ (TrialOf s project (recovered s h)) rest (passes.flatMap PassOf.trials)
  processed : summary.filesProcessed = files.length - Sweep.resumeIndex files (marked? h.disk s)
  outcomes : summary.filesProcessed = (passes.filter (·.2.isSome)).length + summary.restored.length +
    summary.restoreFailed.length + summary.notStarted.length
  reported : summary.linesRemoved = (passes.flatMap PassOf.trials).countP (·.2.removed)
  passed : summary.linesRemoved = rest.countP (·.verdict = some true)
  lines : (files.map (recovered s h).lineCount).sum = (files.map w.disk.lineCount).sum + summary.linesRemoved

theorem forall₂_trans {α β γ : Type} {R : α → β → Prop} {S : β → γ → Prop} {T : α → γ → Prop} {as : List α}
    {bs : List β} {cs : List γ} (hT : ∀ a b c, R a b → S b c → T a c) (h : List.Forall₂ R as bs)
    (h' : List.Forall₂ S bs cs) : List.Forall₂ T as cs := by
  induction h generalizing cs with
  | nil =>
    cases h'
    exact .nil
  | cons hab _ ih =>
    cases h' with
    | cons hbc h' => exact .cons (hT _ _ _ hab hbc) (ih h')

theorem Opening.copied {k : Location} {r : Disk} (ho : Opening d s r.get? files es k) (hr : Turned d r.get? r)
    (hp : NoLink d s.project) (hu : d.Unlinked s.project s.trialProject) : ∃ mode project, after r.get? es k = some (.file mode project) ∧
      r.content? s.project = some project := by
  obtain ⟨es', cs, mode, content, rfl, hes, -, hlast, -, d', mode', content', ht, hstat, -, -, -, hsame⟩ := ho.deeds
  obtain ⟨dir, n, rfl, hl, -⟩ := ho.trial
  refine ⟨mode, content, by rw [after_append]; exact hlast _, ?_⟩
  have hc : d'.content? s.project = some content' := by simp [content?, hstat]
  obtain ⟨hs, dir', n', mode'', hl', hg⟩ := (content?_eq_some_iff ht.tree (hp.alike ht.alike)).1 hc
  have hne : dir' ++ [n'] ∉ d'.twins (dir ++ [n]) := fun hmem =>
    hu _ _ (hl'.alike ht.alike.symm) _ _ hl (ht.sharing.twins hmem)
  rw [hsame dir' n' mode'' hl' hs hne hg]
  rw [ht.view] at hg
  rw [((hes.cases (dir' ++ [n'])).resolve_right fun h => by simp [h] at hg)] at hg
  exact (hl'.alike (ht.alike.symm.trans hr.alike)).content? hs hg

theorem Opening.unbuilt {k : Location} (ho : Opening d s v files es k) : ∀ e ∈ es, e.isBuild = false := by
  obtain ⟨es', cs, -, -, rfl, hes, hcs, -⟩ := ho.deeds
  refine List.forall_mem_append.2 ⟨hes.unbuilt, fun e he => ?_⟩
  obtain ⟨l, -, mode, content, rfl⟩ := hcs e he
  rfl

def Taken.pass (t : Taken) : PassOf := (t.1, t.2.map (·.2))

theorem flatMap_pass {took : List Taken} (h : ∀ p x fs, (p, some (x, fs)) ∈ took → x.path = p) :
    (took.map Taken.pass).flatMap PassOf.trials = (took.flatMap Taken.trials).map fun t => (t.1.path, t.2) := by
  induction took with
  | nil => rfl
  | cons t took ih =>
    rw [List.map_cons, List.flatMap_cons, List.flatMap_cons, List.map_append,
      ih fun p x fs hm => h p x fs (.tail _ hm)]
    obtain ⟨p, _ | ⟨x, fs⟩⟩ := t
    · rfl
    · have hp := h p x fs List.mem_cons_self
      simp [Taken.pass, PassOf.trials, Taken.trials, hp]

theorem length_filter_isSome (took : List Taken) : took.length =
    ((took.map Taken.pass).filter (·.2.isSome)).length + (took.filter (·.2.isNone)).length := by
  induction took with
  | nil => rfl
  | cons t took ih => obtain ⟨p, _ | out⟩ := t <;> simp [Taken.pass, ih] <;> omega

theorem filter_pass (took : List Taken) :
    ((took.map Taken.pass).filter (·.2.isNone)).map (·.1) = (took.filter (·.2.isNone)).map (·.1) := by
  rw [List.filter_map, List.map_map]
  simp [comp_def, Taken.pass]

/-- Lines go where a source was taken, as many as were found to be removable. -/
theorem sum_lineCount {r d' : Disk} {took : List Taken}
    (h : ∀ t ∈ took, r.lineCount t.1 = d'.lineCount t.1 + t.trials.countP (·.2.removed)) :
    ((took.map (·.1)).map r.lineCount).sum =
      ((took.map (·.1)).map d'.lineCount).sum + (took.flatMap Taken.trials).countP (·.2.removed) := by
  induction took with
  | nil => rfl
  | cons t took ih =>
    have hrest := ih fun u hu => h u (.tail _ hu)
    have ht := h t List.mem_cons_self
    simp only [List.map_cons, List.sum_cons, List.flatMap_cons, List.countP_append]
    omega

/-- What a completed sweep has found out, which builds it made, what it left and what it counted. -/
theorem Course.exact {r : Disk} {marker : Option Path} {summary : Sweep.Summary} (hs : Scene d s files)
    (hr : Turned d r.get? r) (hp : NoLink d s.project) (hu : d.Unlinked s.project s.trialProject)
    (hne : ∀ dir n, Leads d s.progressFile dir n → ∀ dir' n', Leads d s.trialProject dir' n' → dir ++ [n] ≠ dir' ++ [n'])
    (hc : Course d s files r.get? marker ds (some (.ok (.completed summary)))) :
    ∃ (took : List Taken) (qs : List Inquiry) (project : Bytes), Todo d r.get? (took.map Taken.source) ∧
      took.map (·.1) = files.drop (Sweep.resumeIndex files marker) ∧
      (∀ p x fs, (p, some (x, fs)) ∈ took → fs.map (·.candidate) = candidates s.matcher x.lines ∧
        after r.get? ds x.live = some (.file x.mode (without (removedPlaces fs) x.lines))) ∧
      r.content? s.project = some project ∧
      inquiries r.get? ds = ⟨r.get?, baselineCall s, some true⟩ :: qs ∧
      List.Forall₂ (fun b t => ∀ b', b'.Meets d b → TrialOf s project r b' (t.1.path, t.2)) qs (took.flatMap Taken.trials) ∧
      summary = ⟨took.length, (took.flatMap Taken.trials).countP (·.2.removed), [], [],
        (took.filter (·.2.isNone)).map (·.1)⟩ := by
  cases hc with
  | @taken es _ k todo _ ho htodo hmap hk =>
    cases hk with
    | @done dir n fs gs _ hw hf hgs =>
      have hsub : ∀ p ∈ todo.map (·.1), p ∈ files := fun p hp => List.mem_of_mem_drop (hmap ▸ hp)
      have hspread := hs.spread htodo hsub (hmap ▸ hs.nodup.sublist (List.drop_sublist ..)) hw.leads
      have htodo₁ := hs.todo_opening ho htodo hsub
      obtain ⟨mode, project, hplaced, hproject⟩ := ho.copied hr hp hu
      obtain ⟨tdir, tn, rfl, htl, htslash⟩ := ho.trial
      obtain ⟨took, rfl, hdone, hbuilt, hfinal⟩ := hf.exact hspread fun p x hx => (htodo₁.lot p x hx).2.live
      have hlot : ∀ p x, (p, some x) ∈ took.map Taken.source → x.path = p ∧ x.In d r.get? ∧
          ¬ x.At (tdir ++ [tn]) := by
        intro p x hx
        obtain ⟨rfl, hin⟩ := htodo.lot p x hx
        refine ⟨rfl, hin, fun hat => ?_⟩
        exact hs.away _ (hsub _ (List.mem_map_of_mem (f := (·.1)) hx)) _ (hin.fits.touches hat) tdir tn htl (self_mem_twins ..)
      have hgs' : ∀ e ∈ gs, e = .erase (tdir ++ [tn]) := by
        rcases hgs with ⟨rfl, -⟩ | ⟨rfl, -⟩ <;> simp
      refine ⟨took, inquiries (after r.get? es) fs, project, htodo, ?_, ?_, hproject, ?_, ?_, ?_⟩
      · rw [← hmap, List.map_map]
        rfl
      · intro p x gs' hx
        obtain ⟨hcs, hlast⟩ := hdone p x gs' hx
        have hx' : (p, some x) ∈ took.map Taken.source := List.mem_map.2 ⟨_, hx, rfl⟩
        refine ⟨hcs, ?_⟩
        rw [after_cons, Deed.apply_build, after_append, after_append, after_of_forall, hlast]
        refine List.forall_mem_cons.2 ⟨fun h => ?_, fun e he h => ?_⟩
        · exact hspread.progress p x hx' (.inl (Option.some.inj h))
        · rw [hgs' e he] at h
          exact (hlot p x hx').2.2 (.inl (Option.some.inj h))
      · have hend : ∀ e ∈ .write (dir ++ [n]) Progress.sentinel :: gs, e.isBuild = false :=
          List.forall_mem_cons.2 ⟨rfl, fun e he => by rw [hgs' e he]; rfl⟩
        rw [inquiries, inquiries_append, inquiries_of_forall ho.unbuilt, List.nil_append, inquiries_append,
          inquiries_of_forall hend, List.append_nil]
      · refine hbuilt.imp fun q t ht b hb => ?_
        obtain ⟨p, hx⟩ := ht.lot
        obtain ⟨rfl, hin, -⟩ := hlot p t.1 hx
        obtain ⟨gone, hgone⟩ := ht.shown
        refine ⟨hb.call.trans ht.call, hb.verdict.trans ht.verdict, ?_, t.1.content, gone,
          hin.fits.content?_live hr hin.live, hin.fits.content?_live hb.before hgone⟩
        have hseen : b.before.get? (tdir ++ [tn]) = some (.file mode project) := by
          rw [hb.before.view, ht.others _ (fun h => hne _ _ hw.leads _ _ htl h.symm) fun q y hy => (hlot q y hy).2.2,
            hplaced]
        exact (htl.alike hb.before.alike).content? htslash hseen
      · simpa [Sweep.Summary.empty] using hfinal

theorem file?_recovered {p : Path} (hg : Grounds h.disk s (discovered (recovered s h) s) (marked? h.disk s))
    (hp : p ∈ discovered (recovered s h) s) (hm : ∀ m ∈ marked? h.disk s, h.disk.locate m ≠ h.disk.locate p) :
    (recovered s h).file? p = h.disk.file? p := by
  obtain ⟨back, ht, hback⟩ := exists_recovers hg.tree hg.marked
  refine file?_congr hg.tree ht.tree ht.alike (hg.live p hp).noLink fun dir n hl => ?_
  rw [ht.view]
  refine after_of_forall (fun e he hloc => ?_) _
  cases hmark : marked? h.disk s with
  | none =>
    simp only [hmark] at hback
    simp [hback] at he
  | some m =>
    simp only [hmark] at hback
    obtain ⟨r, hr⟩ := hback
    cases hr with
    | bare | refused => cases he
    | @done dir' n' _ _ hw =>
      rcases List.mem_pair.1 he with rfl | rfl
      · obtain ⟨rfl, rfl⟩ := concat_inj (Option.some.inj hloc)
        exact hm m hmark (hw.leads.locate.trans hl.locate.symm)
      · obtain ⟨-, hname⟩ := concat_inj (Option.some.inj hloc)
        obtain ⟨hlisted, -⟩ := ((listing_discovered ht.tree hp).mem_iff p).1 hp
        obtain ⟨ys, -, hy, -⟩ := hl.walks
        exact (unmarked_of_isListed hlisted (Path.exists_parent hy hl.name).1).2.1 n' hname.symm

theorem countP_eq_of_forall₂ {α β : Type} {R : α → β → Prop} {P : α → Bool} {Q : β → Bool} {as : List α} {bs : List β}
    (hR : ∀ a b, R a b → P a = Q b) (h : List.Forall₂ R as bs) : as.countP P = bs.countP Q := by
  induction h with
  | nil => rfl
  | cons hab _ ih => simp [List.countP_cons, ih, hR _ _ hab]

/-- The builds, the report and the disk of a completed run tell the same story. -/
theorem books_balance {summary : Sweep.Summary}
    (hg : Grounds h.disk s (discovered (recovered s h) s) (marked? h.disk s)) (hp : NoLink h.disk s.project)
    (hu : h.disk.Unlinked s.project s.trialProject) (ro : o.ReadOnly)
    (hrun : Run.on (Sweep.run s o) (World.start h) = (.ok (.ok (.completed summary)), w)) :
    ∃ first rest passes, Books s h (discovered (recovered s h) s) summary w first rest passes := by
  obtain ⟨back, ht, hback⟩ := exists_recovers hg.tree hg.marked
  have hs := hg.scene ht.tree ht.alike rfl
  set files := discovered (recovered s h) s with hfiles
  have hr : Turned h.disk (recovered s h).get? (recovered s h) := ht.view.symm ▸ ht
  obtain ⟨back', ds, hback', hunbuilt, t, hds⟩ := hg.trail hfiles ro hrun
  have hc := hds.resolve_left fun h => h.2 summary rfl
  have hnow := t.now
  rw [after_append, hback'] at hnow
  obtain ⟨took, qs, project, htodo, hmap, hdone, hproject, hasked, htried, hsummary⟩ := hc.exact hs hr hp hu hg.untried
  have hbuilt := t.built
  rw [inquiries_append, inquiries_of_forall hunbuilt, List.nil_append, hback', hasked] at hbuilt
  obtain ⟨first, rest, hfirst, hrest, hbuilds⟩ := List.forall₂_cons_right_iff.1 hbuilt
  have hpath : ∀ p x fs, (p, some (x, fs)) ∈ took → x.path = p ∧ x.In h.disk (recovered s h).get? := fun p x fs hx =>
    htodo.lot p x (List.mem_map.2 ⟨_, hx, rfl⟩)
  have htrials : List.Forall₂ (TrialOf s project (recovered s h)) rest
      ((took.map Taken.pass).flatMap PassOf.trials) := by
    rw [flatMap_pass fun p x fs hx => (hpath p x fs hx).1, List.forall₂_map_right_iff]
    exact forall₂_trans (fun b q t hb ht => ht b hb) hrest htried
  have hreported : summary.linesRemoved = ((took.map Taken.pass).flatMap PassOf.trials).countP (·.2.removed) := by
    rw [flatMap_pass fun p x fs hx => (hpath p x fs hx).1, List.countP_map, hsummary]
    rfl
  -- sources that are not taken, or that are passed over, keep their lines
  have hsame : ∀ p ∈ files, (∀ x : Lot, x.In h.disk (recovered s h).get? →
      x.path ∈ files.drop (Sweep.resumeIndex files (marked? h.disk s)) → x.path ≠ p) →
      w.disk.lineCount p = (recovered s h).lineCount p := by
    intro p hp hno
    rw [lineCount, lineCount, content?_congr hr.tree hnow.tree (hr.alike.symm.trans hnow.alike)
      ((hg.live p hp).noLink.alike hr.alike) fun dir n hl => ?_]
    rw [hnow.view]
    exact hs.eq_of_concerns hc.concerns (fun _ => List.mem_of_mem_drop) hp hno
      ⟨p, dir, n, .inl rfl, hl.alike hr.alike.symm, rfl⟩ _
  refine ⟨first, rest, took.map Taken.pass, hbuilds, ⟨hfirst.call, hfirst.verdict⟩, fun p hp hm => ?_, ?_, ?_, ?_,
    ⟨project, hproject, htrials⟩, ?_, ?_, hreported, ?_, ?_⟩
  · rw [← file?_recovered hg hp hm]
    refine file?_congr hr.tree hfirst.before.tree (hr.alike.symm.trans hfirst.before.alike)
      ((hg.live p hp).noLink.alike hr.alike) fun dir n _ => ?_
    rw [hfirst.before.view]
  · rw [List.map_map, ← hmap]
    rfl
  · rw [filter_pass, hsummary]
  · intro p fs hx
    obtain ⟨⟨q, _ | ⟨x, gs⟩⟩, hmem, heq⟩ := List.mem_map.1 hx
    · cases heq
    cases heq
    obtain ⟨rfl, hin⟩ := hpath _ _ _ hmem
    obtain ⟨hcs, hlast⟩ := hdone _ _ _ hmem
    exact ⟨x.content, hin.fits.content?_live hr hin.live, hcs, hin.fits.content?_live hnow hlast⟩
  · rw [hsummary, ← List.length_drop, ← hmap, List.length_map]
  · simp only [hsummary, List.length_nil, Nat.add_zero, List.length_map]
    exact length_filter_isSome took
  · rw [hreported]
    refine (countP_eq_of_forall₂ (fun b t hb => ?_) htrials).symm
    rw [hb.verdict]
    cases t.2.removed <;> rfl
  · have hstart : ∀ p ∈ files.take (Sweep.resumeIndex files (marked? h.disk s)),
        w.disk.lineCount p = (recovered s h).lineCount p := fun p hp => by
      refine hsame p (List.mem_of_mem_take hp) fun x _ hx heq => ?_
      exact List.disjoint_take_drop hs.nodup le_rfl hp (heq ▸ hx)
    have hend : ∀ t ∈ took, (recovered s h).lineCount t.1 = w.disk.lineCount t.1 + t.trials.countP (·.2.removed) := by
      rintro ⟨p, _ | ⟨x, fs⟩⟩ hx
      · have hp : p ∈ files := List.mem_of_mem_drop (hmap ▸ List.mem_map.2 ⟨_, hx, rfl⟩)
        exact (hsame p hp fun y hy _ => htodo.no_lot p (List.mem_map.2 ⟨_, hx, rfl⟩) y hy).symm
      · obtain ⟨rfl, hin⟩ := hpath _ _ _ hx
        obtain ⟨hcs, hlast⟩ := hdone _ _ _ hx
        rw [lineCount, lineCount, hin.fits.content?_live hr hin.live, hin.fits.content?_live hnow hlast]
        have hcount := Pass.length_split_without_removed hcs
        simp only [Option.map_some, Option.getD_some, Taken.trials, List.countP_map, comp_def, Lot.lines]
        omega
    have hsum := sum_lineCount hend
    rw [hmap] at hsum
    rw [← List.take_append_drop (Sweep.resumeIndex files (marked? h.disk s)) files]
    simp only [List.map_append, List.sum_append, hsum, List.map_congr_left hstart, hsummary]
    omega

/-- The books of a run that goes on in the workshop, where the pass over the second source was cut off. -/
theorem books_balance_workshop : marked? halted settings = some second ∧
    discovered (recovered settings (.ofDisk halted)) settings = [first, second] ∧
    ∃ w baseline rest passes, Run.on (Sweep.run settings (.looking builds))
        (World.start (.ofDisk halted)) = (.ok (.ok (.completed ⟨1, 1, [], [], []⟩)), w) ∧
      Books settings (.ofDisk halted) [first, second] ⟨1, 1, [], [], []⟩ w baseline rest passes := by
  have hp : NoLink (Host.ofDisk halted).disk settings.project :=
    (plain_of_entries (by decide +kernel) _).noLink
  obtain ⟨w, hrun⟩ := completed_halted
  obtain ⟨baseline, rest, passes, hbooks⟩ := books_balance grounds_halted hp (unlinked_trial grounds_halted.tree rfl)
    (Oracle.readOnly_looking _) hrun
  exact ⟨by decide +kernel, discovered_halted, w, baseline, rest, passes, hrun, discovered_halted ▸ hbooks⟩

namespace Workshop

/-- The trial project is the project itself. -/
def twinned : Disk := linkedTo ["w", "app.vcxproj"] "<Project/>\n"

/-- The build needs a trial project that is not empty. -/
def fed (d : Disk) : Bool := (d.content? settings.trialProject).any (· ≠ [])

end Workshop

/-- Where the trial project is the project itself, copying empties both, so that the trials do not build what was to
be built. -/
theorem not_balanced_over_link : ∃ w, Run.on (Sweep.run settings (.looking fed))
      (World.start (.ofDisk twinned)) = (.ok (.ok (.completed ⟨2, 0, [], [], []⟩)), w) ∧
    ∀ first rest passes, ¬ Books settings (.ofDisk twinned)
      (discovered (recovered settings (.ofDisk twinned)) settings) ⟨2, 0, [], [], []⟩ w first rest passes := by
  obtain ⟨w, hrun, hseen⟩ : ∃ w, Run.on (Sweep.run settings (.looking fed)) (World.start (.ofDisk twinned)) =
        (.ok (.ok (.completed ⟨2, 0, [], [], []⟩)), w) ∧
      w.builds.map (·.before.content? settings.trialProject) =
        [some (Bytes.ofString "<Project/>\n"), some [], some [], some []] :=
    exists_left (by decide +kernel)
  have hproject : (recovered settings (.ofDisk twinned)).content? settings.project =
      some (Bytes.ofString "<Project/>\n") := by decide +kernel
  refine ⟨w, hrun, fun first rest passes hbooks => ?_⟩
  obtain ⟨project, hp, htrials⟩ := hbooks.trials
  obtain rfl := Option.some.inj (hp.symm.trans hproject)
  rw [hbooks.builds, List.map_cons, List.cons.injEq] at hseen
  generalize passes.flatMap PassOf.trials = trials at htrials
  cases htrials with
  | nil => simp at hseen
  | cons hb _ =>
    have hempty := hb.project.symm.trans (List.cons.inj hseen.2).1
    exact absurd hempty (by decide)

end Prune
