import Prune.Proofs.Thinning

/-!
# The trials of a pass, one by one

Which lines are out is told by their places: `blanking gone lines` leaves the terminators of the lines at
these places, and `without gone lines` drops the lines. The states that a pass carries along are those of a
list of places (`statesOf`), to which a verdict adds one place or none. From that follows what the disk
showed at every single trial and what is left in the end (`minimized_exactly`), for any verdicts.
-/

namespace Prune

open Disk Workshop

namespace Lines

variable (gone : List Nat)

/-- The content with the lines at some places blanked. -/
def blanking (lines : List Bytes) : Bytes :=
  (lines.mapIdx fun i line => if i ∈ gone then terminator line else line).flatten

def without (lines : List Bytes) : Bytes :=
  (lines.mapIdx fun i line => if i ∈ gone then [] else line).flatten

/-- The states of `n` lines of which those at some places are blanked. -/
def statesOf (n : Nat) : List State :=
  (List.range n).map fun i => if i ∈ gone then .blanked else .present

theorem statesOf_nil (n : Nat) : statesOf [] n = List.replicate n .present := by simp [statesOf, List.map_const']

theorem set_statesOf (n i : Nat) :
    (statesOf gone n).set i .blanked = statesOf (gone ++ [i]) n := by
  refine List.ext_getElem? fun j => ?_
  rw [List.getElem?_set]
  by_cases hij : i = j
  · subst hij
    by_cases hi : i < n <;> simp [statesOf, hi]
  · rw [if_neg hij, statesOf, statesOf, List.getElem?_map, List.getElem?_map]
    by_cases hj : j < n <;> simp [hj, Ne.symm hij]

theorem zipWith_map_range {α : Type} (f : State → Bytes → α) (g : Nat → State) (lines : List Bytes) :
    List.zipWith f ((List.range lines.length).map g) lines = lines.mapIdx fun i line => f (g i) line := by
  refine List.ext_getElem? fun j => ?_
  rw [List.getElem?_zipWith, List.getElem?_mapIdx, List.getElem?_map]
  by_cases hj : j < lines.length
  · simp [hj]
  · simp [hj]

theorem render_statesOf (lines : List Bytes) :
    render lines (statesOf gone lines.length) = blanking gone lines := by
  rw [render, statesOf, zipWith_map_range, blanking]
  congr 2
  funext i line
  split <;> rfl

theorem render_settle_statesOf (lines : List Bytes) :
    render lines ((statesOf gone lines.length).map State.settle) = without gone lines := by
  rw [render, statesOf, List.map_map, zipWith_map_range, without]
  congr 2
  funext i line
  simp only [Function.comp_apply]
  split <;> rfl

theorem without_nil (lines : List Bytes) : without [] lines = lines.flatten := by
  simp [without, List.mapIdx_eq_zipIdx_map]

end Lines

namespace Pass

def removedPlaces (findings : List Finding) : List Nat := (findings.filter (·.removed)).map (·.candidate.index)

theorem removedPlaces_cons (f : Finding) (fs : List Finding) :
    removedPlaces (f :: fs) = (if f.removed then [f.candidate.index] else []) ++ removedPlaces fs := by
  cases hf : f.removed <;> simp [removedPlaces, hf]

/-- The numbers of the lines that `m` accepts, counted from one. -/
def acceptedNumbers (m : Directive.Matcher) (lines : List Bytes) : List Nat :=
  ((lines.zipIdx 1).filter fun (line, _) => m.accepts (Lines.body line)).map (·.2)

theorem number_candidatesFrom (m : Directive.Matcher) (i : Nat) (lines : List Bytes) :
    (candidatesFrom m i lines).map Candidate.number =
      ((lines.zipIdx (i + 1)).filter fun (line, _) => m.accepts (Lines.body line)).map (·.2) := by
  induction lines generalizing i with
  | nil => rfl
  | cons line lines ih =>
    by_cases hm : m.accepts (Lines.body line) <;> simp [candidatesFrom, hm, Candidate.number, ih, List.zipIdx_cons]

end Pass

open Lines Pass

variable {o : Oracle} {h : Host} {w : World} {v : View} {ds : List Deed} {call : BuildCall} {live : Location}
  {lines : List Bytes} {mode : Nat} {c : Bytes}

theorem Lot.inquiries_closing (m : Directive.Matcher) (x : Lot) (final : List State) (v : View) :
    inquiries v (x.closing m final) = [] := by
  refine inquiries_of_forall (fun e he => ?_) v
  obtain ⟨content, rfl⟩ := x.closing_cases m final e he
  rfl

theorem forall₂_getElem? {α β : Type} {R : α → β → Prop} {as : List α} {bs : List β} {i : Nat} {a : α}
    {b : β} (h : List.Forall₂ R as bs) (ha : as[i]? = some a) (hb : bs[i]? = some b) : R a b := by
  obtain ⟨hi, rfl⟩ := List.getElem?_eq_some_iff.1 ha
  obtain ⟨hj, rfl⟩ := List.getElem?_eq_some_iff.1 hb
  exact h.get hi hj

/-- The builds of a pass over lines of which some are gone: each sees the lines that went before it and its
own candidate blanked. -/
def trialsOf (call : BuildCall) (live : Location) (mode : Nat) (lines : List Bytes) (v : View) :
    List Nat → List Finding → List Inquiry
  | _, [] => []
  | gone, f :: fs =>
    ⟨Function.update v live (some (.file mode (blanking (gone ++ [f.candidate.index]) lines))), call,
      some f.removed⟩ ::
      trialsOf call live mode lines v (gone ++ if f.removed then [f.candidate.index] else []) fs

theorem length_trialsOf (gone : List Nat) (fs : List Finding) :
    (trialsOf call live mode lines v gone fs).length = fs.length := by
  induction fs generalizing gone with
  | nil => rfl
  | cons f fs ih => simp [trialsOf, ih]

theorem getElem?_trialsOf {gone : List Nat} {fs : List Finding} {i : Nat} {f : Finding} (hf : fs[i]? = some f) :
    (trialsOf call live mode lines v gone fs)[i]? =
      some ⟨Function.update v live (some (.file mode
        (blanking (gone ++ (removedPlaces (fs.take i) ++ [f.candidate.index])) lines))), call, some f.removed⟩ := by
  induction fs generalizing gone i with
  | nil => cases hf
  | cons f' fs ih =>
    cases i with
    | zero =>
      obtain rfl : f' = f := by simpa using hf
      simp [trialsOf, removedPlaces]
    | succ i =>
      rw [trialsOf, List.getElem?_cons_succ, ih (by simpa using hf)]
      simp [removedPlaces_cons]

theorem trialsOf_update (e : Option Entry) (gone : List Nat) (fs : List Finding) :
    trialsOf call live mode lines (Function.update v live e) gone fs = trialsOf call live mode lines v gone fs := by
  induction fs generalizing gone with
  | nil => rfl
  | cons f fs ih => simp [trialsOf, ih]

/-- What trying candidates finds out, which builds it makes, and what it leaves. -/
theorem Tries.exact {gone : List Nat} {cs : List Candidate} {states : List State}
    {r : Option (List Finding × List State)} (ht : Tries call live lines cs states ds r)
    (hstates : states = statesOf gone lines.length) (hv : v live = some (.file mode c)) :
    ∀ findings final, r = some (findings, final) →
      findings.map (·.candidate) = cs ∧ final = statesOf (gone ++ removedPlaces findings) lines.length ∧
      inquiries v ds = trialsOf call live mode lines v gone findings ∧ ∃ c', after v ds live = some (.file mode c') := by
  induction ht generalizing gone v c with
  | nil states =>
    rintro findings final ⟨⟩
    exact ⟨rfl, by simpa [removedPlaces] using hstates, rfl, c, hv⟩
  | cut | cutLater => rintro _ _ ⟨⟩
  | @step c' cs states passed ds fs final _ ih =>
    rintro findings final' hr
    obtain ⟨rfl, rfl⟩ : findings = ⟨c', passed⟩ :: fs ∧ final' = final := by simpa [eq_comm] using hr
    subst hstates
    set v' := Deed.apply (.write live (render lines ((statesOf gone lines.length).set c'.index .blanked))) v with hv'
    have hwrite : v' =
        Function.update v live (some (.file mode (blanking (gone ++ [c'.index]) lines))) := by
      rw [hv', Deed.apply, hv, set_statesOf, render_statesOf]
      rfl
    have hnext : (if passed = true then (statesOf gone lines.length).set c'.index .blanked
        else statesOf gone lines.length) =
        statesOf (gone ++ if passed then [c'.index] else []) lines.length := by
      cases passed <;> simp [set_statesOf]
    obtain ⟨hcs, hfinal, hasked, hlast⟩ := ih (v := v') hnext (by rw [hwrite, Function.update_self]) fs final' rfl
    refine ⟨by rw [List.map_cons, hcs], ?_, ?_, hlast⟩
    · rw [hfinal, removedPlaces_cons, List.append_assoc]
    · rw [inquiries, ← hv', inquiries, hasked, trialsOf, ← hwrite, hwrite, trialsOf_update]

/-- A pass over the file at `p` is over: how it came by what it reports, and what it left of a file that had
these bits and this content. -/
structure Minimized (call : BuildCall) (m : Directive.Matcher) (p : Path) (mode : Nat) (content : Bytes)
    (d : Disk) (report : Report) (w : World) : Prop where
  path : report.path = p
  numbers : report.findings.map (·.candidate.number) = acceptedNumbers m (split content)
  asked : w.builds.length = report.findings.length
  trial : ∀ i f b, report.findings[i]? = some f → w.builds[i]? = some b →
    b.call = call ∧ b.verdict = some f.removed ∧ b.before.file? p = some (mode,
      blanking (removedPlaces (report.findings.take i) ++ [f.candidate.index]) (split content))
  left : w.disk.file? p = some (mode, without (removedPlaces report.findings) (split content))
  idle : report.findings = [] → w.disk = d ∧ ∀ d', .change d' ∉ w.past

section Minimized

variable {m : Directive.Matcher} {p : Path} {content : Bytes} {report : Report} {dir : Location} {n : Bytes}

theorem Disk.NoLink.file?_eq {d d' : Disk} (hp : NoLink d p) (hs : endsInSlash p = false) (hl : Leads d p dir n)
    (ht : Turned d v d') (hv : v (dir ++ [n]) = some (.file mode c)) : d'.file? p = some (mode, c) := by
  rw [file?_eq_some_iff ht.tree (hp.alike ht.alike)]
  exact ⟨hs, dir, n, hl.alike ht.alike, by rw [ht.view, hv]⟩

theorem Pass.readable_of_run (hstat : w.disk.stat p = .ok (.file mode content)) {w' : World}
    (hrun : Run.on (Pass.run o call m p) w = (.ok (.ok report), w')) : allows mode readBit = true := by
  by_contra hr
  have hread : w.disk.read p = .error .denied := by simp [Disk.read, hstat, hr, bind, Except.bind]
  simp [Pass.run, Run.on_bind, hread] at hrun

theorem Pass.writable_of_run (t : Trail o h ds w) (hp : NoLink h.disk p) (hread : w.disk.read p = .ok content)
    (hc : candidates m (split content) ≠ []) {w' : World}
    (hrun : Run.on (Pass.run o call m p) w = (.ok (.ok report), w')) : ∃ dir n, Writable h.disk p dir n := by
  by_contra hw
  push Not at hw
  obtain ⟨cand, cs, hcs⟩ := List.exists_cons_of_ne_nil hc
  obtain ⟨f, w₁, hrep, -⟩ := (t.emit ⟨.debug, Pass.target, "starting pass",
      [("file", .path p), ("candidates", .number (candidates m (split content)).length)]⟩).replace_error hp hw
    (render (split content) ((List.replicate (split content).length .present).set cand.index .blanked))
  rw [hcs, List.length_cons] at hrep
  simp [Pass.run, Run.on_bind, hread, hcs, Pass.trials, hrep] at hrun

theorem Pass.run_of_no_candidate (o : Oracle) (call : BuildCall) (hread : w.disk.read p = .ok content) (hlog : w.log = none)
    (hc : candidates m (split content) = []) :
    ∃ e, Run.on (Pass.run o call m p) w = (.ok (.ok ⟨p, []⟩), { w with past := .event e :: w.past }) := by
  refine ⟨⟨.debug, Pass.target, "starting pass", [("file", .path p), ("candidates", .number 0)]⟩, ?_⟩
  simp only [Pass.run, Run.on_bind, Run.on_lift, Work.on_disk, hread, Work.on_report, hc, Pass.trials, Run.on_pure,
    List.isEmpty_nil, if_true, List.length_nil, World.emit, hlog]

/-- A file is tried line by line and loses the lines that the build does without, and these only. -/
theorem minimized_exactly (ro : o.ReadOnly) (hd : Tree h.disk) (hp : NoLink h.disk p)
    (hfile : h.disk.file? p = some (mode, content))
    (hrun : Run.on (Pass.run o call m p) (World.start h) = (.ok (.ok report), w)) :
    Minimized call m p mode content h.disk report w := by
  have t : Trail o h [] (World.start h) := .start o hd
  obtain ⟨hs, dir, n, hl, hg⟩ := (file?_eq_some_iff hd hp).1 hfile
  have hr : allows mode readBit = true := readable_of_run (hl.stat_some hs hg (by simp)) hrun
  have hread : (World.start h).disk.read p = .ok content := hl.read hs hg hr
  by_cases hc : candidates m (split content) = []
  · obtain ⟨e, he⟩ := run_of_no_candidate o call hread rfl hc
    obtain ⟨rfl, rfl⟩ : report = ⟨p, []⟩ ∧ w = { World.start h with past := [.event e] } := by
      simpa [World.start] using hrun.symm.trans he
    refine ⟨rfl, ?_, rfl, by simp, ?_, fun _ => ⟨rfl, by simp⟩⟩
    · rw [acceptedNumbers, ← number_candidatesFrom, ← candidates, hc]
      rfl
    · rw [removedPlaces, List.filter_nil, List.map_nil, without_nil, flatten_split]
      exact hfile
  · obtain ⟨dir', n', hw⟩ := writable_of_run t hp hread hc hrun
    obtain ⟨rfl, rfl⟩ := hw.leads.unique hl
    obtain ⟨es, r, w', htries, t', hrun'⟩ := run_deeds (x := ⟨p, dir ++ [n], [], mode, content⟩) ro call m t
      ⟨dir, n, rfl, hw⟩ hg hr
    rw [hrun] at hrun'
    rcases r with _ | ⟨findings, final⟩
    · cases hrun'
    obtain ⟨rfl, rfl⟩ : report = ⟨p, findings⟩ ∧ w = w' := by simpa [ending] using hrun'
    obtain ⟨hcs, hfinal, hasked, c, hlast⟩ := htries.exact (statesOf_nil _).symm hg findings final rfl
    have hbuilt : List.Forall₂ (Build.Meets h.disk) w.builds
        (trialsOf call (dir ++ [n]) mode (split content) h.disk.get? [] findings) := by
      simpa [hasked, Lot.inquiries_closing, Lot.lines] using t'.built
    refine ⟨rfl, ?_, hbuilt.length_eq.trans (length_trialsOf ..), ?_, ?_, ?_⟩
    · rw [acceptedNumbers, ← number_candidatesFrom, ← candidates]
      rw [Lot.lines] at hcs
      rw [← hcs, List.map_map]
      rfl
    · intro i f b hf hb
      obtain ⟨hcall, hverdict, hbefore⟩ := forall₂_getElem? hbuilt hb (getElem?_trialsOf hf)
      exact ⟨hcall, hverdict, hp.file?_eq hs hl hbefore (by simp)⟩
    · refine hp.file?_eq hs hl t'.now ?_
      rw [List.nil_append, after_append, Option.elim_some, Lot.after_closing hlast fun h => absurd h hc, Lot.result, hfinal, Lot.lines,
        render_settle_statesOf, List.nil_append]
    · rintro rfl
      exact absurd hcs.symm hc

/-- In the workshop the second line of the first source is tried with the first one blanked, and stays. -/
theorem minimized_exactly_workshop : ∃ w,
    Run.on (Pass.run (.looking builds) ⟨.ofString "app.vcxproj", "Debug"⟩ settings.matcher first) (World.start (.ofDisk (workshop 0o644))) =
      (.ok (.ok ⟨first, [⟨⟨0, "#include <a>"⟩, true⟩, ⟨⟨1, "#include <b>"⟩, false⟩]⟩), w) ∧
    w.builds.map (fun b => (b.verdict, b.before.file? first)) =
      [(some true, some (0o644, Bytes.ofString "\n#include <b>\nint x;\n")),
        (some false, some (0o644, Bytes.ofString "\n\nint x;\n"))] ∧
    w.disk.file? first = some (0o644, Bytes.ofString "#include <b>\nint x;\n") := by
  obtain ⟨w, hrun⟩ : ∃ w,
    Run.on (Pass.run (.looking builds) ⟨.ofString "app.vcxproj", "Debug"⟩ settings.matcher first)
      (World.start (.ofDisk (workshop 0o644))) =
    (.ok (.ok ⟨first, [⟨⟨0, "#include <a>"⟩, true⟩, ⟨⟨1, "#include <b>"⟩, false⟩]⟩), w) :=
    ⟨_, Prod.fst_eq_iff.1 (by decide +kernel)⟩
  have hmin := minimized_exactly (h := .ofDisk (workshop 0o644))
    (Oracle.readOnly_looking _) footing.tree (footing.live _ (by simp)).noLink
    (show _ = some (0o644, Bytes.ofString "#include <a>\n#include <b>\nint x;\n") by decide +kernel) hrun
  refine ⟨w, hrun, ?_, hmin.left.trans (by decide +kernel)⟩
  obtain ⟨b, b', hb⟩ := List.length_eq_two.1 hmin.asked
  have h := hmin.trial 0 _ b rfl (by rw [hb]; rfl)
  have h' := hmin.trial 1 _ b' rfl (by rw [hb]; rfl)
  rw [hb, List.map_cons, List.map_cons, List.map_nil, h.2.1, h.2.2, h'.2.1, h'.2.2]
  decide +kernel

end Minimized

end Prune
