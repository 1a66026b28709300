import Prune.Proofs.Reopening
import Prune.Proofs.Soundness

/-!
# Going on where a run was cut off

If the verdict is settled by the lines that are left, a run that was cut off has taken some sources, from the
first on, as any other run would have (`Reached`), and has stopped at the next one, which the progress names
and the backup keeps. The next run gives that source its content back and goes on there. So it does not
matter how often a sweep is cut off on its way (`resumed_as_if_never_cut`).
-/

namespace Prune

open Disk Artefact Lines Workshop

variable {d d' : Disk} {p q : Path} {v u : View} {ds es back : List Deed} {x y : Lot} {l prog : Location}
  {s : Settings} {files : List Path} {call : BuildCall} {todo done rest a b : List (Path × Option Lot)}
  {o : Oracle} {h : Host} {w : World} {sts : Path → List State} {V : Set (Path × Nat) → Bool} {k mode : Nat}
  {marker : Option Path} {r : Sweep.Ending}
variable {summary : Sweep.Summary}

/-! ### Sources taken, and sources ahead -/

theorem Todo.unique (ha : Todo d v a) (hb : Todo d v b) (h : a.map (·.1) = b.map (·.1)) : a = b := by
  induction a generalizing b with
  | nil => exact (List.map_eq_nil_iff.1 h.symm).symm
  | cons e a ih =>
    cases b with
    | nil => cases h
    | cons e' b =>
      obtain ⟨p, lot⟩ := e
      obtain ⟨q, lot'⟩ := e'
      rw [List.map_cons, List.map_cons, List.cons.injEq] at h
      obtain rfl : p = q := h.1
      obtain rfl : lot = lot' := by
        cases lot with
        | none =>
          cases lot' with
          | none => rfl
          | some y =>
            obtain ⟨hy, hin⟩ := hb.lot p y (.head _)
            exact absurd hy (ha.no_lot p (.head _) y hin)
        | some x =>
          obtain ⟨hx, hin⟩ := ha.lot p x (.head _)
          cases lot' with
          | none => exact absurd hx (hb.no_lot p (.head _) x hin)
          | some y =>
            obtain ⟨hy, hin'⟩ := hb.lot p y (.head _)
            rw [hin.unique hin' (hx.trans hy.symm)]
      rw [ih ha.tail hb.tail h.2]

/-- The first `k` sources have been taken, and those ahead are as they were. -/
structure Reached (d : Disk) (s : Settings) (files : List Path) (V : Set (Path × Nat) → Bool)
    (todo : List (Path × Option Lot)) (k : Nat) (v : View) : Prop where
  shows : Showing d s.matcher todo (settled d s files V (todo.take k) (whole d)) v
  ahead : ∀ p x, (p, some x) ∈ todo.drop k → x.In d v
  bare : ∀ p x, (p, some x) ∈ todo → v x.copy = none

namespace Reached

theorem start (hd : Tree d) (ht : Todo d d.get? todo) : Reached d s files V todo 0 d.get? where
  shows := .whole hd ht
  ahead p x hx := (ht.lot p x hx).2
  bare p x hx := (ht.lot p x hx).2.copy

variable (hv : Reached d s files V todo k v)
include hv

theorem congr (h : ∀ p x l, (p, some x) ∈ todo → x.At l → u l = v l) :
    Reached d s files V todo k u where
  shows := hv.shows.congr fun p x hx => h p x _ hx (.inl rfl)
  ahead p x hx := (hv.ahead p x hx).congr_at fun l => h p x l (List.mem_of_mem_drop hx)
  bare p x hx := (h p x _ hx (.inr rfl)).trans (hv.bare p x hx)

theorem all (hk : todo.length ≤ k) : Reached d s files V todo todo.length v where
  shows := by
    have hshows := hv.shows
    rw [List.take_of_length_le hk] at hshows
    rwa [List.take_length]
  ahead p x hx := by simp at hx
  bare := hv.bare

theorem live (hx : (p, some x) ∈ todo) : ∃ c, v x.live = some (.file x.mode c) :=
  ⟨_, (hv.shows.lot p x hx).2⟩

end Reached

theorem Files.after_eq_of_notMem {m : Directive.Matcher} {r : Option Sweep.Summary}
    (hf : Files prog call m done summary es r) (hs : Spread prog todo) (hsub : done.Sublist todo)
    (hx : (p, some x) ∈ todo) (hp : p ∉ done.map (·.1)) (hl : x.At l) (v : View) : after v es l = v l := by
  refine after_of_forall (fun e he hloc => ?_) v
  rcases hf.location_eq e he l hloc with rfl | ⟨q, y, hy, hyl⟩
  · exact hs.progress p x hx hl
  · obtain rfl := hs.apart p x q y l hx (hsub.subset hy) hl hyl
    exact hp (List.mem_map.2 ⟨_, hy, rfl⟩)

theorem drop_eq_of_append (h : todo.drop k = done ++ rest) : todo.drop (k + done.length) = rest := by
  rw [← List.drop_drop, h, List.drop_left]

theorem take_eq_of_append (h : todo.drop k = done ++ rest) : todo.take (k + done.length) = todo.take k ++ done := by
  rw [List.take_add, h, List.take_left]

theorem Files.reached {summary summary' : Sweep.Summary} (hf : Files prog call s.matcher done summary es (some summary'))
    (hd : Tree d) (hs : Spread prog todo) (ht : Todo d d.get? todo) (hne : ∀ p ∈ todo.map (·.1), p.text ≠ [])
    (hk : todo.drop k = done ++ rest) (hv : Reached d s files V todo k v)
    (hans : Answered (fun u b => ∀ sts, Showing d s.matcher todo sts u → b = V (survivors d s files sts)) v es) :
    Reached d s files V todo (k + done.length) (after v es) := by
  have hsub : done.Sublist todo :=
    ((List.prefix_append done rest).sublist.trans (hk ▸ List.Sublist.refl _)).trans (List.drop_sublist k todo)
  have hin : ∀ p x, (p, some x) ∈ done → x.In d v := fun p x hx => hv.ahead p x (by rw [hk]; simp [hx])
  have hnodup := hs.nodup
  rw [← List.take_append_drop k todo, List.map_append, List.nodup_append, hk, List.map_append, List.nodup_append]
    at hnodup
  have hnew : ∀ p x, (p, some x) ∈ done → settled d s files V (todo.take k) (whole d) p = x.untouched := by
    intro p x hx
    rw [settled_of_notMem fun hp => hnodup.2.2 p hp p (by simp [List.mem_map_of_mem hx]) rfl]
    obtain ⟨rfl, hx₀⟩ := ht.lot p x (hsub.subset hx)
    exact whole_eq_untouched hd hx₀
  refine ⟨?_, fun p x hx => ?_, fun p x hx => ?_⟩
  · rw [take_eq_of_append hk, settled_append]
    exact hf.settles (by simp) hs hsub hin hnew hv.shows hans
  · rw [drop_eq_of_append hk] at hx
    have hdrop : (p, some x) ∈ todo.drop k := by
      rw [hk]
      simp [hx]
    refine (hv.ahead p x hdrop).congr_at fun l hl => ?_
    refine hf.after_eq_of_notMem hs hsub (List.mem_of_mem_drop hdrop) (fun hp => ?_) hl v
    exact hnodup.2.1.2.2 p hp p (List.mem_map_of_mem hx) rfl
  · by_cases hp : p ∈ done.map (·.1)
    · obtain ⟨⟨_, lot⟩, he, rfl⟩ := List.mem_map.1 hp
      obtain rfl := hs.lot_unique hx (hsub.subset he)
      exact hf.copy_last (hs.sublist hsub) (fun q hq => hne q (hsub.map _ |>.subset hq))
        (fun q y hy => (hin q y hy).copy) he
    · rw [hf.after_eq_of_notMem hs hsub hx hp (.inr rfl), hv.bare p x hx]

/-- Where a run is cut off, the source it was at is stuck, and all is as it should be once that has its content
back. -/
theorem Files.cut_reached (hf : Files prog call s.matcher (todo.drop k) summary es none)
    (hd : Tree d) (hs : Spread prog todo) (ht : Todo d d.get? todo) (hne : ∀ p ∈ todo.map (·.1), p.text ≠ [])
    (hv : Reached d s files V todo k v)
    (hans : Answered (fun u b => ∀ sts, Showing d s.matcher todo sts u → b = V (survivors d s files sts)) v es) :
    ∃ j x rest, todo.drop j = (x.path, some x) :: rest ∧ x.Stuck s.matcher (after v es) ∧
      Marks (after v es) prog x.path ∧ Reached d s files V todo j (after (after v es) x.recovery) ∧
        ∃ sts, Showing d s.matcher todo sts (after v es) := by
  obtain ⟨done, p, x, rest, es, fs, summary', hk, hf', hp, rfl⟩ := hf.split
  have hdrop := drop_eq_of_append hk
  have hx : (p, some x) ∈ todo := by
    refine List.mem_of_mem_drop (show (p, some x) ∈ todo.drop (k + done.length) from ?_)
    simp [hdrop]
  obtain ⟨rfl, -⟩ := ht.lot p x hx
  have hprog := hs.progress _ x hx
  have hreached := hf'.reached hd hs ht hne hk hv hans.left
  have hin₁ : x.In d (after v es) := hreached.ahead x.path x (by simp [hdrop])
  have hin₂ : x.In d (Deed.apply (.write prog x.path.text) (after v es)) := hin₁.congr_at fun l hl =>
    Function.update_of_ne (by rintro rfl; exact hprog hl) _ _
  have hstuck : x.Stuck s.matcher (after (Deed.apply (.write prog x.path.text) (after v es)) fs) := hp.last hin₂
  have hrest : ∀ q y l, (q, some y) ∈ todo → q ≠ x.path → y.At l →
      after (Deed.apply (.write prog x.path.text) (after v es)) fs l = after v es l := by
    intro q y l hy hne hl
    rw [after_of_forall fun e he hloc => ?_]
    · exact Function.update_of_ne (by rintro rfl; exact hs.progress q y hy hl) _ _
    · exact hne (hs.apart q y _ x l hy hx hl (hp.location_eq e he l hloc))
  refine ⟨_, x, rest, hdrop, ?_⟩
  rw [after_append, after_cons]
  refine ⟨hstuck, (marks_write.2 rfl).congr (hp.prog_eq hprog _), hreached.congr fun q y l hy hl => ?_, ?_⟩
  · have hrec := (hstuck.caught hin₁.fits).recovered
    by_cases hq : q = x.path
    · subst hq
      obtain rfl := Option.some.inj (hs.lot_unique hx hy)
      rcases hl with rfl | rfl
      · rw [hrec.live, hin₁.live]
      · rw [hrec.copy, hin₁.copy]
    · rw [after_of_forall fun e he hloc => ?_, hrest q y l hy hq hl]
      have hat : x.At l := by
        simp only [Lot.recovery, List.mem_cons, List.not_mem_nil, or_false] at he
        rcases he with rfl | rfl <;> cases hloc
        · exact .inl rfl
        · exact .inr rfl
      exact hq (hs.apart q y _ x l hy hx hl hat)
  · obtain ⟨-, c, hlive, st, hst, rfl⟩ := hstuck
    refine ⟨_, hreached.shows.update hs hx hst hlive fun k hk hkp => ?_⟩
    rw [after_of_forall fun e he hloc => hk (hp.location_eq e he k hloc)]
    exact Function.update_of_ne hkp _ _

/-! ### One run -/

/-- What is known of the disk before the first run: a sweep from there can be completed, and started again. -/
structure Outset (d : Disk) (s : Settings) (files : List Path) (V : Set (Path × Nat) → Bool)
    (todo : List (Path × Option Lot)) (mode : Nat) : Prop where
  footing : Footing d s files
  aloof : Aloof d s
  restart : Restartable d s
  lots : Todo d d.get? todo
  paths : todo.map (·.1) = files
  passes : V (survivors d s files (whole d)) = true
  progress : ∃ dir n, Writable d s.progressFile dir n
  project : Project d s mode d.get?
  readable : allows mode readBit = true
  writable : allows mode writeBit = true
  opens : Reopens d s d.get?

theorem Clearing.alike {root : Path} (ha : Alike d d') (hd : Tree d) (hd' : Tree d') (hes : Clearing d root v es) :
    Clearing d' root v es := by
  intro e he
  obtain ⟨l, e', rfl, hl, hg, hfile⟩ := hes e he
  exact ⟨l, e', rfl, hl.alike ha hd hd', hg, hfile⟩

namespace Outset

variable (hb : Outset d s files V todo mode)
include hb

theorem ne_nil : ∀ p ∈ todo.map (·.1), p.text ≠ [] := by
  intro p hp h
  have hdot := dot_mem_of_isListed
    (((Sources.listing_of_listed hb.footing.tree hb.footing.listed).1.mem_iff p).1 (hb.paths ▸ hp)).1
  simp [h] at hdot

theorem spread {dir : Location} {n : Bytes} (hl : Leads d s.progressFile dir n) :
    Spread (dir ++ [n]) todo :=
  hb.footing.scene.spread hb.lots (fun _ hp => hb.paths ▸ hp) (hb.paths ▸ hb.footing.scene.nodup) hl

theorem todo_eq (ha : Alike d d') (hv : Framed d s files v)
    (hk : Reached d s files V todo k v) (ht : Todo d' v a) (hp : a.map (·.1) = (todo.drop k).map (·.1)) :
    a = todo.drop k := by
  refine ht.unique ⟨fun p x hx => ?_, fun p hp x hx heq => ?_⟩ hp
  · have hin := hk.ahead p x hx
    exact ⟨(hb.lots.lot p x (List.mem_of_mem_drop hx)).1, hin.fits.alike ha, hin.live, hin.copy⟩
  · have hmem := List.mem_of_mem_drop hp
    obtain ⟨x₀, hx₀, hpath⟩ := hv.exists_lot hb.footing.scene ha hx (heq ▸ hb.paths ▸ List.mem_map.2 ⟨_, hmem, rfl⟩)
    exact hb.lots.no_lot p hmem x₀ hx₀ (hpath.trans heq)

theorem verdict (k : Nat) :
    V (survivors d s files (settled d s files V (todo.take k) (whole d))) = true := by
  refine verdict_settled ?_ (fun p x hx => ?_) hb.passes
  · exact (hb.paths ▸ hb.footing.scene.nodup : (todo.map (·.1)).Nodup).sublist ((List.take_sublist ..).map _)
  · obtain ⟨rfl, hin⟩ := hb.lots.lot p x (List.mem_of_mem_take hx)
    exact whole_eq_untouched hb.footing.tree hin

end Outset

/-- How a run fares from the view `v` on: it is cut off before it has done anything, or at a source, or it is
completed. -/
inductive Fares (d : Disk) (s : Settings) (files : List Path) (V : Set (Path × Nat) → Bool)
    (todo : List (Path × Option Lot)) (v u : View) : Sweep.Ending → Prop
  | idle (h : u = v) : Fares d s files V todo v u none
  | cut {k : Nat} {x : Lot} {rest : List (Path × Option Lot)} (hk : todo.drop k = (x.path, some x) :: rest)
    (hx : x.Caught d u) (hm : MarksAt d s u x.path) (hu : Reached d s files V todo k (after u x.recovery))
    (ho : Openable d s u) : Fares d s files V todo v u none
  | completed {summary : Sweep.Summary} {mode : Nat} (hu : Reached d s files V todo todo.length u)
    (he : Ended d s mode u) :
    Fares d s files V todo v u (some (.ok (.completed summary)))

theorem Outset.fares (hb : Outset d s files V todo mode) (ht : Turned d d'.get? d') (hs' : Scene d' s files)
    (hv : Made d s files v) (hk : Reached d s files V todo k v) (hopen : Reopens d s v)
    (hc : Course d' s files v marker es r)
    (hmark : files.drop (Sweep.resumeIndex files marker) = (todo.drop k).map (·.1))
    (hans : Answered (fun u b => ∀ sts, Showing d s.matcher todo sts u → b = V (survivors d s files sts)) v es) :
    Fares d s files V todo v (after v es) r ∧ (r = none → ∃ sts, Showing d s.matcher todo sts (after v es)) := by
  have hs := hb.footing.scene
  cases hc with
  | cut => exact ⟨.idle rfl, fun _ => ⟨_, hk.shows⟩⟩
  | unfit =>
    have hfalse := hans.head _ hk.shows
    rw [hb.verdict k] at hfalse
    cases hfalse
  | unlisted hes he =>
    obtain ⟨d'', ht', he⟩ := he
    obtain ⟨fs, hfs⟩ := hopen.listed hb.footing hb.restart.root (ht.trans ht')
    rw [hfs] at he
    cases he
  | uncopied hes hgone hf =>
    obtain ⟨d'', ht', hf⟩ := hf
    obtain ⟨d₃, hcopy⟩ := hopen.copied hs (hes.alike ht.alike.symm hs'.tree hs.tree)
      (fun l e hlit => hgone l e (hlit.alike ht.alike hs.tree hs'.tree)) (ht.trans ht')
    rw [hcopy] at hf
    cases hf
  | @taken es fs kt todo' r ho ht' hp hkt =>
    rw [hmark] at hp
    obtain rfl := hb.todo_eq ht.alike hv.framed hk ht' hp
    have hsub : ∀ p ∈ (todo.drop k).map (·.1), p ∈ files := fun p hp' =>
      hb.paths ▸ ((List.drop_sublist k todo).map _).subset hp'
    obtain ⟨dir, n, rfl, hl, hslash⟩ := ho.trial
    have hl₀ := hl.alike ht.alike.symm
    obtain ⟨tmode, c, hplaced, hbit⟩ := ho.placed hs.tree hs'.tree ht.alike (hb.project.made hb.restart.unlinked hv)
    have hstill : ∀ p x l, (p, some x) ∈ todo → x.At l → after v es l = v l := by
      intro p x l hx hl
      obtain ⟨rfl, hin⟩ := hb.lots.lot p x hx
      exact hs'.eq_of_no_lot ho.concerns (hb.paths ▸ List.mem_map.2 ⟨_, hx, rfl⟩)
        ((hin.fits.alike ht.alike).touches hl) v
    have hk' := hk.congr hstill
    have ht'' := hs'.todo_opening ho ht' hsub
    rw [after_cons, after_append, Deed.apply_build]
    have hans' := hans.tail.right
    rw [Deed.apply_build] at hans'
    cases hkt with
    | unkept hw =>
      obtain ⟨dir', n', hw'⟩ := hb.progress
      exact absurd (hw'.alike ht.alike) (hw dir' n')
    | @cut dir' n' _ hw hf =>
      have hlp := hw.leads.alike ht.alike.symm
      have hspread := hb.spread hlp
      obtain ⟨j, x, rest, hj, hstuck, hm, hreached, hshow⟩ :=
        hf.cut_reached hs.tree hspread hb.lots hb.ne_nil hk' hans'
      have hx : (x.path, some x) ∈ todo := by
        refine List.mem_of_mem_drop (show (x.path, some x) ∈ todo.drop j from ?_)
        simp [hj]
      refine ⟨.cut hj (hstuck.caught (hb.lots.lot _ x hx).2.fits) ⟨hw.slash, dir', n', hlp, hm⟩ hreached
        ⟨dir, n, hl₀, hslash, ?_⟩, fun _ => hshow⟩
      have hstays := (hs'.after_files hf ht'' hsub hl (hb.aloof.untried _ _ hlp _ _ hl₀) (after v es)).trans hplaced
      by_cases hlit : Litter d s.sourceRoot (dir ++ [n])
      · refine .inl ⟨hlit, fun e he => ?_⟩
        rw [hstays] at he
        cases he
        rfl
      · exact .inr ⟨hlit, .inr ⟨tmode, c, hstays, hbit.trans hb.writable⟩⟩
    | @done dir' n' fs gs summary hw hf hg =>
      have hlp := hw.leads.alike ht.alike.symm
      have hreached := hf.reached hs.tree (hb.spread hlp) hb.lots hb.ne_nil (List.append_nil _).symm hk' hans'.left
      have hended := ho.ended hs' ht' hsub hplaced hbit hw
        (fun _ _ hl' => hb.aloof.untried _ _ hlp _ _ (hl'.alike ht.alike.symm)) hf hg
      have hgs : ∀ e ∈ gs, e = .erase (dir ++ [n]) := by
        rcases hg with ⟨rfl, -⟩ | ⟨rfl, -⟩ <;> simp
      refine ⟨.completed ?_ (hended.alike ht.alike.symm), by simp⟩
      rw [after_append]
      refine (hreached.all (by rw [List.length_drop]; omega)).congr fun p x l hx hl' => ?_
      obtain ⟨rfl, hin⟩ := hb.lots.lot p x hx
      exact hs'.eq_of_no_lot (v := v) (finish_concerns hw.leads ⟨dir, n, hl, rfl⟩ hgs)
        (hb.paths ▸ List.mem_map.2 ⟨_, hx, rfl⟩) ((hin.fits.alike ht.alike).touches hl') _

/-- A run that is cut off is cut off at a build. -/
theorem Course.exists_build (hc : Course d s files v marker ds none) : ∃ pre call, ds = pre ++ [.build call none] := by
  have htries : ∀ {call live lines cs states ds r}, Tries call live lines cs states ds r → r = none →
      ∃ pre call, ds = pre ++ [.build call none] := by
    intro call live lines cs states ds r ht hr
    induction ht with
    | nil => cases hr
    | cut => exact ⟨[_], _, rfl⟩
    | cutLater _ ih =>
      obtain ⟨pre, call, rfl⟩ := ih rfl
      exact ⟨_ :: _ :: pre, call, rfl⟩
    | step => cases hr
  cases hc with
  | cut => exact ⟨[], _, rfl⟩
  | @taken es fs k todo r ho ht hp hk =>
    cases hk with
    | @cut dir n _ hw hf =>
      obtain ⟨done, p, x, rest, gs, fs, summary', -, -, hpass, rfl⟩ := hf.split
      cases hpass with
      | cut htr =>
        obtain ⟨pre, call, rfl⟩ := htries htr rfl
        exact ⟨.build (baselineCall s) (some true) ::
          (es ++ (gs ++ .write (dir ++ [n]) p.text :: .write x.copy x.content :: pre)), call, by simp⟩

/-! ### Runs one after the other -/

theorem Disk.Leads.progress_read_congr {dir : Location} {n : Bytes} (hl : Leads d p dir n) (hs : endsInSlash p = false)
    (hp : NoLink d p) (ha : Alike d d') (h : d'.get? (dir ++ [n]) = d.get? (dir ++ [n])) :
    Progress.read d' p = Progress.read d p := by
  have hstat : d'.stat p = d.stat p := by
    cases hg : d.get? (dir ++ [n]) with
    | none => rw [hl.stat_none hs hg, (hl.alike ha).stat_none hs (h.trans hg)]
    | some e =>
      have hlink : ∀ target, e ≠ .link target := by
        rintro target rfl
        exact hp dir n hl target hg
      rw [hl.stat_some hs hg hlink, (hl.alike ha).stat_some hs (h.trans hg) hlink]
  simp only [Progress.read, readText, Disk.read, hstat]

/-- How far sweeps have come. -/
inductive Stage (d : Disk) (s : Settings) (files : List Path) (V : Set (Path × Nat) → Bool)
    (todo : List (Path × Option Lot)) (h : Host) : Prop
  | fresh (hread : Progress.read h.disk s.progressFile = .ok .fresh) (hv : h.disk.get? = d.get?)
  | cut {k : Nat} {x : Lot} {rest : List (Path × Option Lot)} {back : List Deed}
    (hk : todo.drop k = (x.path, some x) :: rest)
    (hread : Progress.read h.disk s.progressFile = .ok (.inProgress x.path))
    (hx : back = [] ∧ x.In d h.disk.get? ∨ back = x.recovery ∧ x.Caught d h.disk.get?)
    (hv : Reached d s files V todo k (after h.disk.get? back)) (ho : Openable d s h.disk.get?)
  | done {mode : Nat} (hread : Progress.read h.disk s.progressFile = .ok .done)
    (hv : Reached d s files V todo todo.length h.disk.get?) (he : Ended d s mode h.disk.get?)

/-- The host is what sweeps have left of `d` that were perhaps cut off. -/
structure Paused (d : Disk) (s : Settings) (files : List Path) (V : Set (Path × Nat) → Bool)
    (todo : List (Path × Option Lot)) (h : Host) : Prop where
  stands : Stands d s files h
  made : Made d s files h.disk.get?
  stage : Stage d s files V todo h

theorem Ended.read (hp : Kept d s files v) (ht : Turned d v d') (he : Ended d s mode v) :
    Progress.read d' s.progressFile = .ok .done := by
  obtain ⟨hslash, dir, n, mode, hl, hg⟩ := he.sentinel
  obtain ⟨_, _, ⟨⟩, hmode, -⟩ := hp.progress hslash dir n hl _ hg
  rw [← ht.view] at hg
  rw [(hl.alike ht.alike).progress_read hslash hg hmode (by decide)]
  decide

/-- What one more run makes of a host. -/
def Steps (d : Disk) (s : Settings) (files : List Path) (V : Set (Path × Nat) → Bool)
    (todo : List (Path × Option Lot)) (o : Oracle) (h : Host) : Prop :=
  Paused d s files V todo (h.sweep s o).2 ∧
    (Progress.read h.disk s.progressFile = .ok .done ∧ (h.sweep s o).1 = .ok (.ok .alreadyComplete) ∧
      Progress.read (h.sweep s o).2.disk s.progressFile = .ok .done ∨
    (h.sweep s o).1 = .error ⟨⟩ ∧ Progress.read (h.sweep s o).2.disk s.progressFile ≠ .ok .done ∧
      (∃ n call h' sts, Shows d s files sts h'.disk ∧ (o n call h').verdict = none) ∨
    (∃ summary, (h.sweep s o).1 = .ok (.ok (.completed summary))) ∧
      Progress.read (h.sweep s o).2.disk s.progressFile = .ok .done)

theorem Paused.of_course (hb : Outset d s files V todo mode) (ro : o.ReadOnly) (hj : o.JudgesOrCuts d s files V)
    (hh : Paused d s files V todo h) (hback : ∀ e ∈ back, Does d s d.get? files e)
    (hv : Reached d s files V todo k (after h.disk.get? back)) (hopen : Reopens d s (after h.disk.get? back))
    (hmark : files.drop (Sweep.resumeIndex files marker) = (todo.drop k).map (·.1))
    (hc : Course h.disk s files (after h.disk.get? back) marker es r) (t : Trail o h (back ++ es) w)
    (hrun : Run.on (Sweep.run s o) (World.start h) = (ending r, w))
    (hidle : w.disk.get? = after h.disk.get? back → Stage d s files V todo w.toHost ∧
      Progress.read w.disk s.progressFile ≠ .ok .done) : Steps d s files V todo o h := by
  have hs := hb.footing.scene
  have hmade := hh.made.after hback
  have hes : ∀ e ∈ es, Does d s d.get? files e := fun e he =>
    hmade.framed.does hs hh.stands.turned (fun _ => List.mem_of_mem_drop) (hc.does e he)
  have hans := (t.answered hs hb.lots hb.paths hj hh.stands.turned hh.made.framed fun e he l =>
    ((List.forall_mem_append.2 ⟨hback, hes⟩) e he).concerns).right
  obtain ⟨hfares, hshow⟩ := hb.fares hh.stands.turned hh.stands.scene hmade hv hopen hc hmark hans
  have hview : w.disk.get? = after (after h.disk.get? back) es := by rw [t.now.view, after_append]
  have hstands := hh.stands.sweep hb.footing hb.aloof ro
  have hmade' := hmade.after hes
  rw [Steps, Host.sweep, hrun]
  rw [Host.sweep, hrun] at hstands
  -- what a run that is cut off was asked
  have hcut : r = none → ∃ n call h' sts, Shows d s files sts h'.disk ∧ (o n call h').verdict = none := by
    rintro rfl
    obtain ⟨sts, hshow⟩ := hshow rfl
    obtain ⟨pre, call, rfl⟩ := hc.exists_build
    obtain ⟨h', ht, hnone⟩ := t.asked (back ++ pre) call none (by simp)
    rw [after_append] at ht
    rw [after_append, after_cons, after_nil, Deed.apply_build] at hshow hmade'
    exact ⟨_, call, h', sts, hshow.shows hs hb.lots hb.paths hmade'.framed (hh.stands.turned.trans ht), hnone.symm⟩
  generalize after (after h.disk.get? back) es = u at hview hfares hmade'
  subst hview
  cases hfares with
  | idle heq =>
    obtain ⟨hstage, hread⟩ := hidle heq
    exact ⟨⟨hstands, hmade', hstage⟩, .inr (.inl ⟨rfl, hread, hcut rfl⟩)⟩
  | @cut j x rest hj' hx hm hu ho =>
    have hp : x.path ∈ files := by
      rw [← hb.paths, ← List.take_append_drop j todo, hj']
      simp
    have hread : Progress.read w.disk s.progressFile = .ok (.inProgress x.path) :=
      hstands.kept.read_of_held hb.footing hb.aloof hstands.turned hp hm
    exact ⟨⟨hstands, hmade', .cut hj' hread (.inr ⟨rfl, hx⟩) hu ho⟩, .inr (.inl ⟨rfl, by simp [hread], hcut rfl⟩)⟩
  | completed hu he =>
    have hread : Progress.read w.disk s.progressFile = .ok .done := he.read hstands.kept hstands.turned
    exact ⟨⟨hstands, hmade', .done hread hu he⟩, .inr (.inr ⟨⟨_, rfl⟩, hread⟩)⟩

namespace Outset

variable (hb : Outset d s files V todo mode)
include hb

theorem tells (hv : Framed d s files v) (hk : Reached d s files V todo k v) :
    Tells d s files v :=
  hv.tells hb.footing hb.aloof.toApart fun _ hx hp => hk.live (hb.lots.mem_of_in hx (hb.paths ▸ hp))

theorem drop_eq (hk : todo.drop k = (x.path, some x) :: rest) :
    files.drop (Sweep.resumeIndex files (some x.path)) = (todo.drop k).map (·.1) := by
  have hfiles : files = (todo.take k).map (·.1) ++ x.path :: rest.map (·.1) := by
    rw [← hb.paths]
    conv_lhs => rw [← List.take_append_drop k todo, hk, List.map_append, List.map_cons]
  have hsorted := (Sources.listing_of_listed hb.footing.tree hb.footing.listed).1.sorted
  rw [hfiles] at hsorted ⊢
  rw [Sweep.drop_resumeIndex hsorted, hk, List.map_cons]

theorem does_recovery (hx : (x.path, some x) ∈ todo) :
    ∀ e ∈ x.recovery, Does d s d.get? files e := by
  obtain ⟨-, hin⟩ := hb.lots.lot _ x hx
  have hp : x.path ∈ files := hb.paths ▸ List.mem_map.2 ⟨_, hx, rfl⟩
  rw [Lot.recovery, List.forall_mem_cons, List.forall_mem_singleton]
  exact ⟨.write hin hp _, .copy hin hp rfl⟩

end Outset

theorem Lot.at_of_recovery {e : Deed} (he : e ∈ x.recovery) (hl : e.location? = some l) : x.At l := by
  simp only [Lot.recovery, List.mem_cons, List.not_mem_nil, or_false] at he
  rcases he with rfl | rfl <;> cases hl
  · exact .inl rfl
  · exact .inr rfl

/-- One more run, from wherever the last one was cut off. -/
theorem Paused.step (hb : Outset d s files V todo mode) (ro : o.ReadOnly) (hj : o.JudgesOrCuts d s files V)
    (hh : Paused d s files V todo h) : Steps d s files V todo o h := by
  have hs := hb.footing.scene
  have ha := hh.stands.turned.alike
  have htells : ∀ {v : View}, Tells d s files v → Tells h.disk s files v := fun hv d'' hd'' =>
    hv d'' (hh.stands.turned.trans hd'')
  obtain ⟨pdir, pn, hw⟩ := hb.progress
  have hprog := hw.leads.alike ha
  -- the progress says the same as before where nothing has happened to it
  have hsame : ∀ {es : List Deed} {w : World}, Trail o h es w → w.disk.get? (pdir ++ [pn]) = h.disk.get? (pdir ++ [pn]) →
      Progress.read w.disk s.progressFile = Progress.read h.disk s.progressFile := fun t =>
    hprog.progress_read_congr hw.slash hh.stands.scene.progress.noLink t.now.alike
  cases hh.stage with
  | fresh hread hv =>
    have hreached : Reached d s files V todo 0 (after h.disk.get? []) := hv ▸ Reached.start hs.tree hb.lots
    obtain ⟨es, r, w, hc, t, hrun⟩ := run_fresh ro hh.stands.scene hread (htells (hb.tells hh.made.framed hreached))
    have hmark : files.drop (Sweep.resumeIndex files none) = (todo.drop 0).map (·.1) := hb.paths.symm
    refine hh.of_course hb ro hj (by simp) hreached (hv ▸ hb.opens) hmark hc t hrun fun hidle => ?_
    have hread' := (hsame t (by rw [hidle, after_nil])).trans hread
    exact ⟨.fresh hread' (hidle.trans hv), by simp [hread']⟩
  | @cut k x rest back hk hread hx hv ho =>
    have hmem : (x.path, some x) ∈ todo := by
      refine List.mem_of_mem_drop (show (x.path, some x) ∈ todo.drop k from ?_)
      simp [hk]
    obtain ⟨-, hin⟩ := hb.lots.lot _ x hmem
    have hp : x.path ∈ files := hb.paths ▸ List.mem_map.2 ⟨_, hmem, rfl⟩
    have hback : ∀ e ∈ back, e ∈ x.recovery := by
      rcases hx with ⟨rfl, -⟩ | ⟨rfl, -⟩ <;> simp
    have hdoes : ∀ e ∈ back, Does d s d.get? files e := fun e he => hb.does_recovery hmem e (hback e he)
    have hat : ∀ e ∈ back, ∀ l, e.location? = some l → Touches d x.path l := fun e he l hl =>
      hin.fits.touches (Lot.at_of_recovery (hback e he) hl)
    have hmade := hh.made.after hdoes
    have hx' : back = [] ∧ x.In h.disk h.disk.get? ∨ back = x.recovery ∧ x.Caught h.disk h.disk.get? := by
      rcases hx with ⟨hnil, hx⟩ | ⟨hrec, hx⟩
      · exact .inl ⟨hnil, hx.fits.alike ha, hx.live, hx.copy⟩
      · exact .inr ⟨hrec, hx.fits.alike ha, hx.live, hx.copy⟩
    have hin' : x.In d (after h.disk.get? back) := hv.ahead x.path x (by simp [hk])
    have hopen : Reopens d s (after h.disk.get? back) := by
      refine .of_made hb.footing hb.aloof hb.restart hb.project hb.readable (List.ne_nil_of_mem hp) hmade
        (fun y hy hq => ?_) ?_
      · have hy' := hb.lots.mem_of_in hy (hb.paths ▸ hq)
        exact ⟨hv.bare _ y hy', hv.live hy'⟩
      · obtain ⟨dir, n, hl, hslash, hopen⟩ := ho
        refine ⟨dir, n, hl, hslash, ?_⟩
        rwa [after_of_forall fun e he hloc => hs.away _ hp _ (hat e he _ hloc) dir n hl (self_mem_twins ..)]
    obtain ⟨es, r, w, hc, t, hrun⟩ := run_marked ro hh.stands.scene hread hx' (htells (hb.tells hmade.framed hv))
    refine hh.of_course hb ro hj hdoes hv hopen (hb.drop_eq hk) hc t hrun fun hidle => ?_
    have hread' : Progress.read w.disk s.progressFile = .ok (.inProgress x.path) := by
      rw [hsame t, hread]
      rw [hidle, after_of_forall fun e he hloc => hs.aside _ hp _ (hat e he _ hloc) pdir pn hw.leads rfl]
    refine ⟨.cut hk hread' (.inl ⟨rfl, ?_⟩) ?_ ?_, by simp [hread']⟩
    · rwa [hidle]
    · rwa [hidle]
    · rw [hidle]
      exact hopen.trial
  | done hread hv he =>
    obtain ⟨w, t, hrun⟩ := run_done (o := o) hh.stands.scene.tree hread
    have hview : w.disk.get? = h.disk.get? := t.now.view
    have hread' := (hsame t (by rw [hview])).trans hread
    have hstands := hh.stands.sweep hb.footing hb.aloof ro
    rw [Steps, Host.sweep, hrun]
    rw [Host.sweep, hrun] at hstands
    exact ⟨⟨hstands, hview ▸ hh.made, .done hread' (hview ▸ hv) (hview ▸ he)⟩, .inl ⟨hread, rfl, hread'⟩⟩

theorem Paused.of_done (hh : Paused d s files V todo h) (hread : Progress.read h.disk s.progressFile = .ok .done) :
    Reached d s files V todo todo.length h.disk.get? ∧ ∃ mode, Ended d s mode h.disk.get? := by
  cases hh.stage with
  | fresh hread' =>
    rw [hread] at hread'
    cases hread'
  | cut _ hread' =>
    rw [hread] at hread'
    cases hread'
  | done _ hv he => exact ⟨hv, _, he⟩

theorem Paused.sweeps (hb : Outset d s files V todo mode) (ro : o.ReadOnly) (hj : o.JudgesOrCuts d s files V)
    (hh : Paused d s files V todo h) (ns : List Nat) :
    Paused d s files V todo (h.sweeps s (ns.map o.cutAt)) ∧
      (Progress.read (h.sweeps s (ns.map o.cutAt)).disk s.progressFile = .ok .done →
        Progress.read h.disk s.progressFile = .ok .done ∨ ∃ before n later summary, ns = before ++ n :: later ∧
          ((h.sweeps s (before.map o.cutAt)).sweep s (o.cutAt n)).1 = .ok (.ok (.completed summary))) := by
  induction ns generalizing h with
  | nil => exact ⟨hh, .inl⟩
  | cons n ns ih =>
    obtain ⟨hpaused, hstep⟩ := hh.step hb (ro.cutAt n) (hj.cutAt n)
    obtain ⟨hpaused', hdone⟩ := ih hpaused
    refine ⟨hpaused', fun hread => ?_⟩
    rcases hdone hread with hread' | ⟨before, n', later, summary, rfl, hrun⟩
    · rcases hstep with ⟨hread, -⟩ | ⟨-, hnot, -⟩ | ⟨⟨summary, hrun⟩, -⟩
      · exact .inl hread
      · exact absurd hread' hnot
      · exact .inr ⟨[], n, ns, summary, rfl, hrun⟩
    · exact .inr ⟨n :: before, n', later, summary, rfl, hrun⟩

/-! ### As if never cut off -/

/-- A sweep that was completed says what there is to know about the disk it began on. -/
theorem Outset.of_completed (hf : Footing h.disk s files) (ha : Aloof h.disk s)
    (hr : Restartable h.disk s) (ro : o.ReadOnly) (hj : o.JudgesOrCuts h.disk s files V)
    (hread : Progress.read h.disk s.progressFile = .ok .fresh)
    (hrun : (h.sweep s o).1 = .ok (.ok (.completed summary))) : ∃ todo mode, Outset h.disk s files V todo mode := by
  have hs := hf.scene
  obtain ⟨es, r, w, hc, t, hrun'⟩ := run_fresh ro hs hread (hf.tells fun _ _ _ _ => Iff.rfl)
  rw [Host.sweep, hrun'] at hrun
  have hds : ∀ e ∈ es, ∀ l ∈ e.location?, Concerns h.disk s h.disk.get? files l := by
    simpa [Sweep.resumeIndex] using hc.concerns
  have hans := fun todo (htodo : Todo h.disk h.disk.get? todo) hp =>
    t.answered hs htodo hp hj (.refl hs.tree) (fun _ _ => rfl) hds
  cases hc with
  | cut | unfit | unlisted | uncopied => cases hrun
  | @taken es fs k todo r ho ht hp hk =>
    rw [Sweep.resumeIndex, List.drop_zero] at hp
    obtain ⟨mode, hproject, hmode⟩ := ho.exists_project hr.project
    have hwritable : allows mode writeBit = true := by
      obtain ⟨dir, n, c, hl, hslash, hg, -⟩ := hproject
      exact hr.writable mode c (hl.stat_some hslash hg (by simp))
    refine ⟨todo, mode, hf, ha, hr, ht, hp, ?_, ?_, hproject, hmode, hwritable, ho.reopens hf hr.project⟩
    · exact ((hans todo ht hp).head _ (.whole hs.tree ht)).symm
    · cases hk with
      | unkept | cut => cases hrun
      | done hw => exact ⟨_, _, hw⟩

theorem Paused.start (hb : Outset h.disk s files V todo mode)
    (hread : Progress.read h.disk s.progressFile = .ok .fresh) : Paused h.disk s files V todo h :=
  ⟨.start hb.footing hread, .start .., .fresh hread rfl⟩

/-- When all sources have been taken, the lots are the same as after any other run. -/
theorem Reached.eq_at (hb : Outset d s files V todo mode) (hv : Reached d s files V todo todo.length v)
    (hu : Reached d s files V todo todo.length u) (hvf : Framed d s files v) (huf : Framed d s files u) (hp : p ∈ files)
    (hl : Touches d p l) : v l = u l := by
  obtain ⟨⟨_, _ | x⟩, hx, rfl⟩ := List.mem_map.1 (hb.paths ▸ hp)
  · have hno := hb.footing.scene.not_concerns (fun _ => id) hp (fun y hy _ => hb.lots.no_lot _ hx y hy) hl
    rw [hvf l hno, huf l hno]
  · obtain ⟨rfl, hin⟩ := hb.lots.lot _ x hx
    rcases hin.fits.eq_of_touches hl with rfl | rfl
    · rw [(hv.shows.lot _ x hx).2, (hu.shows.lot _ x hx).2]
    · rw [hv.bare _ x hx, hu.bare _ x hx]

/-- A sweep that can be completed may be cut off any number of times, at any builds, and started again: the run
that is not cut off is completed, or finds that an earlier one was. Each source is then the same file as after
one single run, and so is its backup, if there was one; the progress says that all is done; and the trial
project is gone, if it is after a single run. -/
theorem resumed_as_if_never_cut (hf : Footing h.disk s files) (ha : Aloof h.disk s) (hr : Restartable h.disk s)
    (ro : o.ReadOnly) (hj : o.Judges h.disk s files V) (hread : Progress.read h.disk s.progressFile = .ok .fresh)
    {summary : Sweep.Summary} {once : Host} (hrun : h.sweep s o = (.ok (.ok (.completed summary)), once)) (ns : List Nat)
    {result : Except Interrupted (Except Sweep.Problem Sweep.Outcome)} {last : Host}
    (hlast : (h.sweeps s (ns.map o.cutAt)).sweep s o = (result, last)) :
    ((∃ summary, result = .ok (.ok (.completed summary))) ∨
      result = .ok (.ok .alreadyComplete) ∧ ∃ before n later summary, ns = before ++ n :: later ∧
        ((h.sweeps s (before.map o.cutAt)).sweep s (o.cutAt n)).1 = .ok (.ok (.completed summary))) ∧
    (∀ p ∈ files, last.disk.file? p = once.disk.file? p ∧ last.disk.file? (backup p) = once.disk.file? (backup p)) ∧
    last.disk.content? s.progressFile = some Progress.sentinel ∧
    last.disk.exists? s.trialProject = once.disk.exists? s.trialProject := by
  obtain ⟨todo, mode, hb⟩ := Outset.of_completed hf ha hr ro hj.judgesOrCuts hread (by rw [hrun])
  have hs := hf.scene
  have hstart := Paused.start hb hread
  -- a run that is not cut off comes to the end
  have hend : ∀ {h' : Host}, Paused h.disk s files V todo h' → Paused h.disk s files V todo (h'.sweep s o).2 ∧
      Progress.read (h'.sweep s o).2.disk s.progressFile = .ok .done ∧
      (Progress.read h'.disk s.progressFile = .ok .done ∧ (h'.sweep s o).1 = .ok (.ok .alreadyComplete) ∨
        ∃ summary, (h'.sweep s o).1 = .ok (.ok (.completed summary))) := by
    intro h' hh
    obtain ⟨hpaused, ⟨hdone, hres, hdone'⟩ | ⟨-, -, n, call, h'', sts, hshow, hnone⟩ | ⟨hres, hdone⟩⟩ :=
      hh.step hb ro hj.judgesOrCuts
    · exact ⟨hpaused, hdone', .inl ⟨hdone, hres⟩⟩
    · rw [hj n call h'' sts hshow] at hnone
      cases hnone
    · exact ⟨hpaused, hdone, .inr hres⟩
  obtain ⟨hmany, hearlier⟩ := hstart.sweeps hb ro hj.judgesOrCuts ns
  obtain ⟨hpaused, hdone, hres⟩ := hend hmany
  obtain ⟨hpaused', hdone', -⟩ := hend hstart
  rw [hlast] at hpaused hdone hres
  rw [hrun] at hpaused' hdone'
  obtain ⟨hv, _, he⟩ := hpaused.of_done hdone
  obtain ⟨hv', _, he'⟩ := hpaused'.of_done hdone'
  have ht := hpaused.stands.turned
  have ht' := hpaused'.stands.turned
  have hfile : ∀ p ∈ files, ∀ q, q = p ∨ q = backup p → NoLink h.disk q → last.disk.file? q = once.disk.file? q := by
    intro p hp q hq hlink
    refine file?_congr ht'.tree ht.tree (ht'.alike.symm.trans ht.alike) (hlink.alike ht'.alike) fun dir n hl => ?_
    exact hv.eq_at hb hv' hpaused.made.framed hpaused'.made.framed hp ⟨q, dir, n, hq, hl.alike ht'.alike.symm, rfl⟩
  refine ⟨?_, fun p hp => ⟨hfile p hp p (.inl rfl) (hs.live p hp).noLink, hfile p hp _ (.inr rfl) (hs.copy p hp).noLink⟩,
    he.content? hs.progress.noLink ht, ?_⟩
  · rcases hres with ⟨hread', hres⟩ | hres
    · refine .inr ⟨hres, (hearlier hread').resolve_left ?_⟩
      rw [hread]
      simp
    · exact .inl hres
  · rw [Bool.eq_iff_iff, he.exists? ht, he'.exists? ht']

/-- Cut off at the second source, and again there before anything is tried, a sweep of the workshop ends as if
it had not been. -/
theorem resumed_as_if_never_cut_workshop : ∃ once last, (Host.ofDisk (workshop 0o644)).sweep settings
      (.looking builds) = (.ok (.ok (.completed ⟨2, 2, [], [], []⟩)), once) ∧
    ((Host.ofDisk (workshop 0o644)).sweeps settings ([4, 1].map (Oracle.looking builds).cutAt)).sweep
      settings (.looking builds) = (.ok (.ok (.completed ⟨1, 1, [], [], []⟩)), last) ∧
    (∀ p ∈ [first, second], last.disk.file? p = once.disk.file? p ∧
      last.disk.file? (backup p) = once.disk.file? (backup p)) ∧
    last.disk.exists? settings.trialProject = once.disk.exists? settings.trialProject := by
  obtain ⟨w, hw, -⟩ := completed
  have honce : (Host.ofDisk (workshop 0o644)).sweep settings (.looking builds) =
    (.ok (.ok (.completed ⟨2, 2, [], [], []⟩)), w.toHost) := by rw [Host.sweep, hw]
  obtain ⟨last, hlast⟩ : ∃ last, ((Host.ofDisk (workshop 0o644)).sweeps settings
      ([4, 1].map (Oracle.looking builds).cutAt)).sweep settings (.looking builds) =
    (.ok (.ok (.completed ⟨1, 1, [], [], []⟩)), last) := ⟨_, Prod.fst_eq_iff.1 (by decide +kernel)⟩
  obtain ⟨-, hfiles, -, htrial⟩ := resumed_as_if_never_cut footing aloof restartable
    (Oracle.readOnly_looking _) judges read_fresh honce [4, 1] hlast
  exact ⟨_, last, honce, hlast, hfiles, htrial⟩

/-- Not so with a project that must not be written: its copy, which a run that is cut off leaves, must not be
written either, and the next run does not get past it. -/
theorem not_resumed_with_read_only_project : ∃ summary, ((Host.ofDisk (workshop 0o444)).sweep settings
      (.looking builds)).1 = .ok (.ok (.completed summary)) ∧
    (((Host.ofDisk (workshop 0o444)).sweeps settings [(Oracle.looking builds).cutAt 2]).sweep
      settings (.looking builds)).1 =
        .ok (.error (.trialProject settings.trialProject .denied)) := by
  refine ⟨⟨2, 2, [], [], []⟩, ?_⟩
  decide +kernel

end Prune
