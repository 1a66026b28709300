import Prune.Proofs.Histories

/-!
# Getting past the opening again

A run that was cut off has left a marker and the trial project. The next one must still be able to tell the
sources and to place the trial project (`Reopens`). A sweep that got so far before says what there was to
begin with (`Opening.reopens`); since then nothing came to the disk but the progress, the trial project and
backups (`Made.cases`), and no file went that is not one of a sweep's own (`Made.file_stays`).
-/

namespace Prune

/-! ### Names that are text -/

namespace Utf8

/-- A state that goes on with bytes of 0x80 and above only. -/
def State.High : State → Prop
  | .start => True
  | .within _ low _ _ => 0x80 ≤ low

theorem high_first (b : UInt8) : (first b).2.High := by
  unfold first
  split
  · trivial
  · split
    · next s hs =>
      unfold lead at hs
      split_ifs at hs <;> cases hs <;> exact show (0x80 : UInt8) ≤ _ by decide
    · trivial

theorem high_step (s : State) (b : UInt8) : (step s b).2.High := by
  cases s with
  | start => exact high_first b
  | within need low high bits =>
    simp only [step]
    split
    · split
      · trivial
      · exact show (0x80 : UInt8) ≤ 0x80 by decide
    · exact high_first b

theorem all_readFrom_append {b : UInt8} (hb : b < 0x80) (xs ys : Bytes) {s : State} (hs : s.High) :
    (readFrom s (xs ++ b :: ys)).all (·.isSome) = ((readFrom s xs).all (·.isSome) && isValid ys) := by
  induction xs generalizing s with
  | nil =>
    cases s with
    | start => simp [readFrom, step, first, hb, isValid, read]
    | within need low high bits =>
      have hlow : ¬ low ≤ b := UInt8.not_le.2 (UInt8.lt_of_lt_of_le hb hs)
      simp [readFrom, step, hlow]
  | cons c xs ih => simp only [List.cons_append, readFrom, List.all_append, ih (high_step s c), Bool.and_assoc]

/-- A byte below 0x80 stands for itself, whatever is around it. -/
theorem isValid_append_cons {b : UInt8} (hb : b < 0x80) (xs ys : Bytes) :
    isValid (xs ++ b :: ys) = (isValid xs && isValid ys) := all_readFrom_append hb xs ys trivial

end Utf8

open Disk Artefact Bytes

variable {d d' : Disk} {p q root : Path} {dir : Location} {n : Bytes} {v u : View} {ds es : List Deed} {e : Deed}
  {x : Lot} {l : Location} {s : Settings} {files taken : List Path} {mode : Nat} {c : Bytes}

theorem isValid_markedName {mark a n : Bytes} (hm : Utf8.isValid mark = true) (h : Utf8.isValid (a ++ n) = true) :
    Utf8.isValid (a ++ markedName mark n) = true := by
  have hdot : Path.dot < 0x80 := by decide
  rcases Path.splitName_eq n with ⟨stem, ext, rfl, hstem, hext, -⟩ | ⟨-, hsplit⟩
  · rw [markedName_ext mark hstem hext]
    rw [← List.append_assoc, Utf8.isValid_append_cons hdot, Bool.and_eq_true] at h
    rw [List.append_assoc, List.cons_append, ← List.append_assoc, Utf8.isValid_append_cons hdot,
      Utf8.isValid_append_cons hdot, h.1, h.2, hm]
    rfl
  · rw [markedName_plain mark hsplit, ← List.append_assoc, Utf8.isValid_append_cons hdot, h, hm]
    rfl

theorem exists_joinWith_concat (ms : List Bytes) : ∃ a : Bytes, ∀ m, joinWith Path.slash (ms ++ [m]) = a ++ m := by
  induction ms with
  | nil => exact ⟨[], fun m => rfl⟩
  | cons k ms ih =>
    obtain ⟨a, ha⟩ := ih
    refine ⟨k ++ Path.slash :: a, fun m => ?_⟩
    rw [List.cons_append, joinWith_cons _ _ (by simp), ha, List.append_assoc, List.cons_append]

theorem Disk.Spells.exists_beside {n' : Bytes} (h : Spells d root q (dir ++ [n'])) (hn : IsName n) :
    q = root ∨ ∃ a q', q.text = a ++ n' ∧ Spells d root q' (dir ++ [n]) ∧ q'.text = a ++ n := by
  generalize hl : dir ++ [n'] = l at h
  cases h with
  | self => exact .inl rfl
  | @below base mode ns hb hne hns =>
    obtain ⟨ms, m, rfl⟩ : ∃ ms m, ns = ms ++ [m] := by
      rcases List.eq_nil_or_concat ns with h | ⟨ms, m, h⟩
      · exact absurd h hne
      · exact ⟨ms, m, by simpa using h⟩
    rw [← List.append_assoc] at hl
    obtain ⟨rfl, rfl⟩ := concat_inj hl
    have hns' : ∀ k ∈ ms ++ [n], IsName k := by
      intro k hk
      rcases List.mem_append.1 hk with hk | hk
      · exact hns k (List.mem_append_left _ hk)
      · rwa [List.mem_singleton.1 hk]
    obtain ⟨a, ha⟩ := exists_join_text root
    obtain ⟨b, hb'⟩ := exists_joinWith_concat ms
    refine .inr ⟨a ++ b, root.join (joinWith Path.slash (ms ++ [n])), ?_, ?_, ?_⟩
    · rw [ha _ (head?_joinWith_ne hns), hb', List.append_assoc]
    · rw [List.append_assoc]
      exact .below hb (by simp) hns'
    · rw [ha _ (head?_joinWith_ne hns'), hb', List.append_assoc]

/-! ### What sweeps make of a disk -/

theorem Framed.does (hs : Scene d s files) (ht : Turned d u d') (hv : Framed d s files v)
    (htaken : ∀ p ∈ taken, p ∈ files) (he : Does d' s v taken e) : Does d s d.get? files e := by
  have ha := ht.alike
  have hlot : ∀ {x : Lot}, x.In d' v → x.path ∈ taken →
      ∃ x₀ : Lot, x₀.In d d.get? ∧ x₀.path ∈ files ∧ x₀.live = x.live ∧ x₀.copy = x.copy := by
    intro x hx hp
    obtain ⟨x₀, hx₀, hpath⟩ := hv.exists_lot hs ha hx (htaken _ hp)
    exact ⟨x₀, hx₀, hpath ▸ htaken _ hp, hx₀.fits.places_eq (hx.fits.alike ha.symm) hpath⟩
  cases he with
  | build call b => exact .build call b
  | clear h => exact .clear (h.alike ha.symm ht.tree hs.tree)
  | trial h hl he => exact .trial (h.alike ha.symm) (ht.sharing.twins hl) he
  | mark h hc => exact .mark (h.alike ha.symm) (hc.mono htaken)
  | write hx hp c =>
    obtain ⟨x₀, hx₀, hp₀, hlive, -⟩ := hlot hx hp
    rw [← hlive]
    exact .write hx₀ hp₀ c
  | copy hx hp he =>
    obtain ⟨x₀, hx₀, hp₀, -, hcopy⟩ := hlot hx hp
    exact .copy hx₀ hp₀ (hcopy ▸ he)

/-- The view is what deeds of sweeps make of the disk `d`. -/
def Made (d : Disk) (s : Settings) (files : List Path) (v : View) : Prop :=
  ∃ ds, (∀ e ∈ ds, Does d s d.get? files e) ∧ v = after d.get? ds

namespace Made

theorem start (d : Disk) (s : Settings) (files : List Path) : Made d s files d.get? := ⟨[], by simp, rfl⟩

theorem after (hv : Made d s files v) (hes : ∀ e ∈ es, Does d s d.get? files e) : Made d s files (after v es) := by
  obtain ⟨ds, hds, rfl⟩ := hv
  exact ⟨ds ++ es, List.forall_mem_append.2 ⟨hds, hes⟩, (after_append ..).symm⟩

/-- A file that is neither a temporary nor the trial project stays, with its bits. -/
theorem file_stays (hv : Made d s files v) (hg : d.get? l = some (.file mode c)) (hlit : ¬ Litter d s.sourceRoot l)
    (htrial : ∀ dir n, Leads d s.trialProject dir n → l ∉ d.twins (dir ++ [n])) : ∃ c', v l = some (.file mode c') := by
  obtain ⟨ds, hds, rfl⟩ := hv
  refine after_of_writes (fun e he hl => ?_) hg
  cases hds e he with
  | build => cases hl
  | clear h => cases hl; exact absurd h hlit
  | trial h hk he' => exact absurd (Option.some.inj (he'.symm.trans hl) ▸ hk) (htrial _ _ h)
  | mark => cases hl; exact ⟨_, rfl⟩
  | write hx hp c => cases hl; exact ⟨c, rfl⟩
  | copy hx hp hk =>
    rw [Option.some.inj (hl.symm.trans hk), hx.copy] at hg
    cases hg

/-- Nothing comes to the disk but the progress, the trial project and what belongs to lots. -/
theorem cases (hv : Made d s files v) (l : Location) : v l = d.get? l ∨ v l = none ∨
    (∃ dir n, Leads d s.progressFile dir n ∧ l = dir ++ [n]) ∨
      (∃ dir n, Leads d s.trialProject dir n ∧ l ∈ d.twins (dir ++ [n])) ∨
        ∃ x : Lot, x.In d d.get? ∧ x.path ∈ files ∧ x.At l := by
  obtain ⟨ds, hds, rfl⟩ := hv
  by_cases hcome : ∀ e ∈ ds, e.location? = some l → e = .erase l
  · exact (after_of_erasing hcome d.get?).imp_right .inl
  · push Not at hcome
    obtain ⟨e, he, hl, hne⟩ := hcome
    cases hds e he with
    | build => cases hl
    | clear h => cases hl; exact absurd rfl hne
    | trial h hk he' => exact .inr (.inr (.inr (.inl ⟨_, _, h, Option.some.inj (he'.symm.trans hl) ▸ hk⟩)))
    | mark h => cases hl; exact .inr (.inr (.inl ⟨_, _, h, rfl⟩))
    | write hx hp => cases hl; exact .inr (.inr (.inr (.inr ⟨_, hx, hp, .inl rfl⟩)))
    | copy hx hp hk => exact .inr (.inr (.inr (.inr ⟨_, hx, hp, .inr (Option.some.inj (hl.symm.trans hk))⟩)))

end Made

/-! ### The opening -/

/-- The trial project can be placed, once temporaries are gone. -/
def Openable (d : Disk) (s : Settings) (v : View) : Prop :=
  ∃ dir n, Leads d s.trialProject dir n ∧ endsInSlash s.trialProject = false ∧
    (Litter d s.sourceRoot (dir ++ [n]) ∧ (∀ e, v (dir ++ [n]) = some e → e.isFile = true) ∨
      ¬ Litter d s.sourceRoot (dir ++ [n]) ∧ (v (dir ++ [n]) = none ∧ d.mayAlter dir = true ∨
        ∃ mode c, v (dir ++ [n]) = some (.file mode c) ∧ allows mode writeBit = true))

/-- The project is there, with the given bits, and nobody takes it for a temporary. -/
def Project (d : Disk) (s : Settings) (mode : Nat) (v : View) : Prop :=
  ∃ dir n c, Leads d s.project dir n ∧ endsInSlash s.project = false ∧ v (dir ++ [n]) = some (.file mode c) ∧
    ¬ Litter d s.sourceRoot (dir ++ [n])

/-- Sources can be told and the trial project can be placed. -/
structure Reopens (d : Disk) (s : Settings) (v : View) : Prop where
  root : ∀ l, Spells d s.sourceRoot s.sourceRoot l → d.get? l ≠ none → v l ≠ none
  text : ∀ p l e, Spells d s.sourceRoot p l → v l = some e → e.isFile = true → Utf8.isValid p.text = true
  project : ∃ mode, Project d s mode v ∧ allows mode readBit = true
  trial : Openable d s v

theorem Litter.alter (h : Litter d root (dir ++ [n])) : d.mayAlter dir = true := by
  obtain ⟨p, dir', n', -, -, hrm, heq⟩ := h
  rw [(concat_inj heq).1]
  exact hrm.alter

theorem Clearing.after_eq (hes : Clearing d s.sourceRoot v es) (hl : ¬ Litter d s.sourceRoot l) : after v es l = v l :=
  after_of_forall (fun e he hloc => by
    obtain ⟨k, -, rfl, hk, -⟩ := hes e he
    rw [Option.some.inj hloc] at hk
    exact hl hk) v

theorem Clearing.cases (hes : Clearing d s.sourceRoot v es) (l : Location) : after v es l = v l ∨ after v es l = none :=
  after_of_erases v (fun e he => by obtain ⟨k, -, rfl, -⟩ := hes e he; exact ⟨k, rfl⟩) l

namespace Reopens

theorem listed (hf : Footing d s files) (hroot : NoLink d s.sourceRoot) (hv : Reopens d s v) (ht : Turned d v d') :
    ∃ fs, Sources.listed d' s.sourceRoot s.extensions = .ok fs := by
  refine Sources.exists_listed hf.tree ht.tree ht.alike hf.listed hroot (fun l hsp hg => ?_) fun p l e hsp hg he => ?_
  · rw [ht.view]
    exact hv.root l hsp hg
  · rw [ht.view] at hg
    exact hv.text p l e (hsp.alike ht.alike.symm ht.tree hf.tree) hg he

theorem copied (hs : Scene d s files) (hv : Reopens d s v) (hes : Clearing d s.sourceRoot v es)
    (hgone : ∀ l e, Litter d s.sourceRoot l → v l = some e → e.isFile = true → after v es l = none)
    (ht : Turned d (after v es) d') : ∃ disks, d'.copy s.project s.trialProject = .ok disks := by
  obtain ⟨mode, ⟨dir, n, c, hl, hslash, hg, hlit⟩, hr⟩ := hv.project
  have hstat : d'.stat s.project = .ok (.file mode c) :=
    (hl.alike ht.alike).stat_some hslash (by rw [ht.view, hes.after_eq hlit, hg]) (by simp)
  obtain ⟨dir', n', hl', hslash', hopen⟩ := hv.trial
  have hopens : Opens d' dir' n' := by
    rcases hopen with ⟨hlit', hfile⟩ | ⟨hlit', hopen⟩
    · refine .inl ⟨?_, ?_⟩
      · rw [ht.view]
        cases hg' : v (dir' ++ [n']) with
        | none => exact (hes.cases _).elim (fun h => h.trans hg') id
        | some e => exact hgone _ e hlit' hg' (hfile e hg')
      · rw [ht.alike.mayAlter]
        exact hlit'.alter
    · rcases hopen with ⟨hg', halter⟩ | ⟨mode', c', hg', hw⟩
      · exact .inl ⟨by rw [ht.view, hes.after_eq hlit', hg'], by rwa [ht.alike.mayAlter]⟩
      · exact .inr ⟨mode', c', by rw [ht.view, hes.after_eq hlit', hg'], hw⟩
  obtain ⟨disks, -, -, -, hcopy, -⟩ := copy_ok ht.tree ((hs.sited dir' n' hl').alike ht.alike ht.sharing) hstat hr
    (hl'.alike ht.alike) hslash' hopens
  exact ⟨disks, hcopy⟩

end Reopens

/-! ### What a sweep that got past its opening says -/

theorem trial_beside {dir' : Location} {n' : Bytes} (hd : Tree d) (hl : Leads d s.project dir n)
    (hl' : Leads d s.trialProject dir' n') : dir' = dir ∧ n' = markedName trialMark n :=
  (names_marked isMark_trial hl).unique hd hl'.walks

theorem project_ne_trial {dir' : Location} {n' : Bytes} (hd : Tree d) (hl : Leads d s.project dir n)
    (hl' : Leads d s.trialProject dir' n') : dir ++ [n] ≠ dir' ++ [n'] := by
  obtain ⟨rfl, rfl⟩ := trial_beside hd hl hl'
  exact ne_markedName _ _ _

theorem unlinked_trial (hd : Tree d) (hshared : d.shared = []) : d.Unlinked s.project s.trialProject := by
  intro dir n hl dir' n' hl'
  rw [twins_of_lookup (by simp [hshared]), List.mem_singleton]
  exact project_ne_trial hd hl hl'

theorem Project.made (hu : d.Unlinked s.project s.trialProject) (hp : Project d s mode d.get?) (hv : Made d s files v) :
    Project d s mode v := by
  obtain ⟨dir, n, c, hl, hslash, hg, hlit⟩ := hp
  obtain ⟨c', hg'⟩ := hv.file_stays hg hlit (hu dir n hl)
  exact ⟨dir, n, c', hl, hslash, hg', hlit⟩

namespace Opening

variable {k : Location}

theorem exists_project (hp : Plain d s.project) (ho : Opening d s d.get? files es k) :
    ∃ mode, Project d s mode d.get? ∧ allows mode readBit = true := by
  obtain ⟨es', -, -, -, -, hes, -, -, hgone, d', mode, c, ht, hstat, hr, -⟩ := ho.deeds
  rcases stat_cases ht.tree (hp.noLink.alike ht.alike) hstat with ⟨l, mode', hr'⟩ | ⟨hslash, dir, n, hl, hg⟩
  · simp [stat, hr', bind, Except.bind, pure, Except.pure] at hstat
  rw [ht.view] at hg
  have hg' : d.get? (dir ++ [n]) = some (.file mode c) := by
    rcases hes.cases (dir ++ [n]) with h | h
    · rw [← h, hg]
    · rw [h] at hg
      cases hg
  refine ⟨mode, ⟨dir, n, c, hl.alike ht.alike.symm, hslash, hg', fun hlit => ?_⟩, hr⟩
  rw [hgone _ _ hlit hg' rfl] at hg
  cases hg

theorem openable (hs : Scene d s files) (ho : Opening d s d.get? files es k) : Openable d s d.get? := by
  obtain ⟨es', -, -, -, -, hes, -, -, -, d', -, -, ht, -, -, -, ⟨dir, n, rfl, hopens⟩, -⟩ := ho.deeds
  obtain ⟨dir', n', heq, hl, hslash⟩ := ho.trial
  obtain ⟨rfl, rfl⟩ := concat_inj heq
  refine ⟨dir, n, hl, hslash, ?_⟩
  by_cases hlit : Litter d s.sourceRoot (dir ++ [n])
  · refine .inl ⟨hlit, fun e he => ?_⟩
    rcases hs.trial dir n hl e he with ⟨mode, c, rfl⟩ | ⟨mode, rfl⟩
    · rfl
    · -- a directory is not taken away, and nothing can be placed where it is
      have hdir : after d.get? es' (dir ++ [n]) = some (.dir mode) := by
        rw [after_of_forall (fun e' he' hloc => ?_), he]
        obtain ⟨k, e'', rfl, -, hk, hfile⟩ := hes e' he'
        rw [Option.some.inj hloc, he] at hk
        cases hk
        cases hfile
      rcases hopens with ⟨hg, -⟩ | ⟨mode', c, hg, -⟩ <;> rw [ht.view, hdir] at hg <;> cases hg
  · refine .inr ⟨hlit, ?_⟩
    rcases hopens with ⟨hg, halter⟩ | ⟨mode, c, hg, hw⟩
    · exact .inl ⟨by rw [← hg, ht.view, hes.after_eq hlit], by rwa [← ht.alike.mayAlter]⟩
    · exact .inr ⟨mode, c, by rw [← hg, ht.view, hes.after_eq hlit], hw⟩

theorem placed (hd : Tree d) (hd' : Tree d') (ha : Alike d d') (hp : Project d s mode v)
    (ho : Opening d' s v files es k) :
    ∃ mode' c, after v es k = some (.file mode' c) ∧ allows mode' writeBit = allows mode writeBit := by
  obtain ⟨es', cs, mode', c', rfl, hes, -, hlast, -, d'', mode'', c'', ht, hstat, -, hw, -⟩ := ho.deeds
  obtain ⟨dir, n, c, hl, hslash, hg, hlit⟩ := hp
  have hg' : d''.get? (dir ++ [n]) = some (.file mode c) := by
    rw [ht.view, hes.after_eq fun h => hlit (h.alike ha.symm hd' hd), hg]
  rw [((hl.alike ha).alike ht.alike).stat_some hslash hg' (by simp), Except.ok.injEq, Entry.file.injEq] at hstat
  refine ⟨mode', c', ?_, by rw [hw, hstat.1]⟩
  rw [after_append]
  exact hlast _

end Opening

/-- What has to be as it is for a sweep to be started again: no link where the sources are looked for or where
the project is, a project that may be written, so that its copy may be, and that is not the same file, and a
progress that a walk over the sources can spell. -/
structure Restartable (d : Disk) (s : Settings) : Prop where
  root : NoLink d s.sourceRoot
  project : Plain d s.project
  unlinked : d.Unlinked s.project s.trialProject
  writable : ∀ mode c, d.stat s.project = .ok (.file mode c) → allows mode writeBit = true
  text : ∀ p dir n, Leads d s.progressFile dir n → Spells d s.sourceRoot p (dir ++ [n]) → Utf8.isValid p.text = true

theorem Made.framed (hv : Made d s files v) : Framed d s files v := by
  obtain ⟨ds, hds, rfl⟩ := hv
  exact Framed.after (fun _ _ => rfl) fun e he l => (hds e he).concerns

theorem join_joinWith_ne {ns : List Bytes} (root : Path) (hne : ns ≠ []) (hns : ∀ n ∈ ns, IsName n) :
    root.join (joinWith Path.slash ns) ≠ root := by
  intro h
  have h := congrArg (fun r : Path => names r.text) h
  simp only [names_join_joinWith root hns] at h
  exact hne (List.append_right_eq_self.1 h)

theorem Disk.Spells.eq_root {l' : Location} (h : Spells d root q l) (hq : q = root) (h' : Spells d root p l') :
    p = root ∧ l' = l := by
  cases h with
  | below hb hne hns => exact absurd hq (join_joinWith_ne root hne hns)
  | self hb hs hl =>
    cases h' with
    | below hb' => exact absurd hb' (hb _ _)
    | self _ _ hl' =>
      obtain ⟨rfl, rfl⟩ := hl.unique hl'
      exact ⟨rfl, rfl⟩

theorem Disk.Spells.leads_root (h : Spells d root q l) (hq : q = root) :
    endsInSlash root = false ∧ ∃ dir n, Leads d root dir n ∧ l = dir ++ [n] := by
  cases h with
  | below hb hne hns => exact absurd hq (join_joinWith_ne root hne hns)
  | self hb hs hl => exact ⟨hs, _, _, hl, rfl⟩

/-- From what sweeps have left without backups, the next one gets past its opening, if there are sources. -/
theorem Reopens.of_made (hf : Footing d s files) (ha : Aloof d s) (hr : Restartable d s)
    (hp : Project d s mode d.get?) (hread : allows mode readBit = true) (hne : files ≠ []) (hv : Made d s files v)
    (hlot : ∀ x : Lot, x.In d d.get? → x.path ∈ files → v x.copy = none ∧ ∃ c, v x.live = some (.file x.mode c))
    (htrial : Openable d s v) : Reopens d s v := by
  obtain ⟨hlisting, hvalid⟩ := Sources.listing_of_listed hf.tree hf.listed
  obtain ⟨p₀, hp₀⟩ := List.exists_mem_of_ne_nil files hne
  obtain ⟨hlisted, l₀, e₀, hsp₀, hg₀, he₀⟩ := (hlisting.mem_iff p₀).1 hp₀
  refine ⟨fun l hsp hg => ?_, fun p l e hsp hg he => ?_, ⟨mode, hp.made hr.unlinked hv, hread⟩, htrial⟩
  · obtain ⟨rfl, rfl⟩ := hsp.eq_root rfl hsp₀
    by_cases hc : Concerns d s d.get? files l₀
    · obtain ⟨x, hx, hmem, rfl⟩ := isLot_of_concerns hf ha.toApart hlisted hsp₀ hc
      obtain ⟨-, c, hlive⟩ := hlot x hx hmem
      simp [hlive]
    · rwa [hv.framed _ hc]
  · rcases hv.cases l with h | h | ⟨dir, n, hl, rfl⟩ | ⟨dir, n, hl, hmem⟩ | ⟨x, hx, hmem, rfl | rfl⟩
    · exact hvalid p l e hsp (h ▸ hg) he
    · rw [h] at hg
      cases hg
    · exact hr.text p dir n hl hsp
    · by_cases heq : l = dir ++ [n]
      swap
      · obtain ⟨_, _, hg₀⟩ := hf.tied.file hmem heq
        exact hvalid p l _ hsp hg₀ rfl
      -- the trial project is spelled like the project beside it
      subst heq
      obtain ⟨dir', n', c, hl', -, hproject, -⟩ := hp
      obtain ⟨rfl, rfl⟩ := trial_beside hf.tree hl' hl
      rcases hsp.exists_beside hl'.name with rfl | ⟨a, q, htext, hsq, htext'⟩
      · obtain ⟨rfl, rfl⟩ := hsp.eq_root rfl hsp₀
        obtain ⟨dir'', n'', heq, hn⟩ := hsp₀.exists_fileName
        exact absurd (concat_inj heq).2.symm ((unmarked_of_isListed hlisted hn).2.2 n')
      · have hq := hvalid q _ _ hsq hproject rfl
        rw [htext'] at hq
        rw [htext]
        exact isValid_markedName (by decide) hq
    · exact hvalid p _ _ hsp hx.live rfl
    · rw [(hlot x hx hmem).1] at hg
      cases hg

theorem Opening.reopens {k : Location} (hf : Footing d s files) (hp : Plain d s.project)
    (ho : Opening d s d.get? files es k) : Reopens d s d.get? where
  root _ _ hg := hg
  text p l e hsp hg he := (Sources.listing_of_listed hf.tree hf.listed).2 p l e hsp hg he
  project := ho.exists_project hp
  trial := ho.openable hf.scene

/-! ### The end -/

theorem Scene.after_files {m : Directive.Matcher} {summary : Sweep.Summary} {r : Option Sweep.Summary} {dir : Location}
    {n : Bytes} (hs : Scene d s files) (hf : Files prog call m todo summary es r) (ht : Todo d v todo)
    (hsub : ∀ p ∈ todo.map (·.1), p ∈ files) (hl : Leads d s.trialProject dir n) (hne : prog ≠ dir ++ [n]) (u : View) :
    after u es (dir ++ [n]) = u (dir ++ [n]) := by
  refine after_of_forall (fun e he hloc => ?_) u
  rcases hf.location_eq e he _ hloc with h | ⟨p, x, hx, hxl⟩
  · exact hne h.symm
  · obtain ⟨rfl, hin⟩ := ht.lot p x hx
    exact hs.away _ (hsub _ (List.mem_map.2 ⟨_, hx, rfl⟩)) _ (hin.fits.touches hxl) dir n hl (self_mem_twins ..)

/-- The end of a sweep: the progress has the sentinel, and the trial project is gone if it can go. If not, it may be
written if the project may, which has the bits `mode`. -/
structure Ended (d : Disk) (s : Settings) (mode : Nat) (v : View) : Prop where
  sentinel : endsInSlash s.progressFile = false ∧ ∃ dir n mode, Leads d s.progressFile dir n ∧
    v (dir ++ [n]) = some (.file mode Progress.sentinel)
  trial : endsInSlash s.trialProject = false ∧ ∃ dir n, Leads d s.trialProject dir n ∧
    (v (dir ++ [n]) = none ∧ (∃ dir n, Removable d s.trialProject dir n) ∨
      (∃ mode' c, v (dir ++ [n]) = some (.file mode' c) ∧ allows mode' writeBit = allows mode writeBit) ∧
        ∀ dir n, ¬ Removable d s.trialProject dir n)

namespace Ended

theorem alike (ha : Alike d d') (he : Ended d s mode v) : Ended d' s mode v := by
  obtain ⟨⟨hslash, dir, n, mode', hl, hg⟩, hslash', dir', n', hl', hcases⟩ := he
  refine ⟨⟨hslash, dir, n, mode', hl.alike ha, hg⟩, hslash', dir', n', hl'.alike ha, ?_⟩
  rcases hcases with ⟨hg', dir'', n'', hrm⟩ | ⟨hg', hrm⟩
  · exact .inl ⟨hg', dir'', n'', hrm.alike ha⟩
  · exact .inr ⟨hg', fun dir'' n'' hrm' => hrm dir'' n'' (hrm'.alike ha.symm)⟩

theorem content? (hp : NoLink d s.progressFile) (ht : Turned d v d') (he : Ended d s mode v) :
    d'.content? s.progressFile = some Progress.sentinel := by
  obtain ⟨hslash, dir, n, mode, hl, hg⟩ := he.sentinel
  exact (content?_eq_some_iff ht.tree (hp.alike ht.alike)).2 ⟨hslash, dir, n, mode, hl.alike ht.alike, by rw [ht.view, hg]⟩

theorem exists? (ht : Turned d v d') (he : Ended d s mode v) :
    d'.exists? s.trialProject = true ↔ ∀ dir n, ¬ Removable d s.trialProject dir n := by
  obtain ⟨hslash, dir, n, hl, hcases⟩ := he.trial
  have hl' := hl.alike ht.alike
  rcases hcases with ⟨hg, dir', n', hrm⟩ | ⟨⟨mode, c, hg, -⟩, hrm⟩ <;> rw [← ht.view] at hg
  · simp only [Disk.exists?, hl'.stat_none hslash hg, Except.isOk, Except.toBool, Bool.false_eq_true, false_iff]
    exact fun hno => hno dir' n' hrm
  · simp only [Disk.exists?, hl'.stat_some hslash hg (by simp), Except.isOk, Except.toBool, true_iff]
    exact hrm

end Ended

/-- How a sweep that comes to its end ends. -/
theorem Opening.ended {k : Location} {mode' : Nat} {call : BuildCall} {m : Directive.Matcher}
    {summary : Sweep.Summary} {r : Option Sweep.Summary} {todo : List (Path × Option Lot)} {fs gs : List Deed}
    (hs : Scene d s files) (ho : Opening d s v files es k) (ht : Todo d v todo)
    (hsub : ∀ p ∈ todo.map (·.1), p ∈ files) (hk : after v es k = some (.file mode' c))
    (hbit : allows mode' writeBit = allows mode writeBit) (hw : Writable d s.progressFile dir n)
    (hne : ∀ dir' n', Leads d s.trialProject dir' n' → dir ++ [n] ≠ dir' ++ [n'])
    (hf : Files (dir ++ [n]) call m todo summary fs r)
    (hg : gs = [.erase k] ∧ (∃ dir n, Removable d s.trialProject dir n) ∨
      gs = [] ∧ ∀ dir n, ¬ Removable d s.trialProject dir n) :
    Ended d s mode (after (after v es) (fs ++ .write (dir ++ [n]) Progress.sentinel :: gs)) := by
  obtain ⟨dir', n', rfl, hl, hslash⟩ := ho.trial
  have hne := hne dir' n' hl
  have hstays := (hs.after_files hf (hs.todo_opening ho ht hsub) hsub hl hne (after v es)).trans hk
  have hwritten : Deed.apply (.write (dir ++ [n]) Progress.sentinel) (after (after v es) fs) (dir' ++ [n']) =
      some (.file mode' c) := (Function.update_of_ne hne.symm _ _).trans hstays
  rw [after_append, after_cons]
  refine ⟨⟨hw.slash, dir, n, ?_⟩, hslash, dir', n', hl, ?_⟩
  · have hgs : ∀ e ∈ gs, e.location? ≠ some (dir ++ [n]) := by
      rcases hg with ⟨rfl, -⟩ | ⟨rfl, -⟩ <;> simp [Deed.location?, hne.symm]
    rw [after_of_forall hgs, apply_write_self]
    exact ⟨_, hw.leads, rfl⟩
  · rcases hg with ⟨rfl, hrm⟩ | ⟨rfl, hrm⟩
    · exact .inl ⟨Function.update_self .., hrm⟩
    · exact .inr ⟨⟨mode', c, hwritten, hbit⟩, hrm⟩

theorem Workshop.restartable : Restartable (workshop 0o644) Workshop.settings where
  root := (plain_of_entries (by decide +kernel) _).noLink
  project := plain_of_entries (by decide +kernel) _
  unlinked := unlinked_trial footing.tree rfl
  writable mode c hstat := by
    have hproject : (workshop 0o644).stat settings.project = .ok (.file 0o644 "<Project/>\n") := by decide +kernel
    rw [hproject, Except.ok.injEq, Entry.file.injEq] at hstat
    rw [← hstat.1]
    decide
  text p dir n hl hsp := by
    -- the progress is beside the root, and no walk comes to it
    have hloc : (workshop 0o644).locate settings.progressFile =
        .ok (.named ["w"] "include-sweeper.progress") := by decide +kernel
    have hroot : (workshop 0o644).resolve true settings.sourceRoot =
        .ok (.entry ["w", "src"] (.dir 0o755)) := by decide +kernel
    rw [hl.locate, Except.ok.injEq, Spot.named.injEq] at hloc
    obtain ⟨rfl, rfl⟩ := hloc
    generalize hk : [Bytes.ofString "w"] ++ [Bytes.ofString "include-sweeper.progress"] = k at hsp
    cases hsp with
    | below hb =>
      rw [hroot, Except.ok.injEq, Place.entry.injEq] at hb
      rw [← hb.1] at hk
      exact absurd (List.cons.inj (List.cons.inj hk).2).1 (by decide +kernel)
    | self hb => exact absurd hroot (hb _ _)

end Prune
