import Prune.Proofs.Deeds
import Prune.Sweep

/-!
# The deeds of a pass

A `Lot` is a source that can be worked on: there is no backup of it yet, and one can be made. A backup's
name is longer than the source's and stands in the same directory, so wherever the backup can be written
the source can be written too, and with a build that only reads the disk a pass cannot fail once its
backup is there. `Tries` and `Passes` say what is done then, whatever the verdicts are.
-/

namespace Prune

open Disk Artefact

variable {d d' : Disk} {p q : Path} {dir dir' : Location} {n n' : Bytes} {v : View}
/-- What comes of the trials of a pass, none if a build cuts them off. -/
abbrev Pass.Result := Option (List Finding × List Lines.State)

variable {call : BuildCall} {r : Pass.Result}

namespace Disk

theorem Leads.read (h : Leads d p dir n) (hs : endsInSlash p = false) {mode : Nat} {content : Bytes}
    (hg : d.get? (dir ++ [n]) = some (.file mode content)) (hr : allows mode readBit = true) :
    d.read p = .ok content := by
  simp [Disk.read, h.stat_some hs hg (by simp), hr, bind, Except.bind, pure, Except.pure]

theorem stat_cases (hd : Tree d) (hp : NoLink d p) {e : Entry} (h : d.stat p = .ok e) :
    (∃ l mode, d.resolve true p = .ok (.entry l (.dir mode))) ∨
      endsInSlash p = false ∧ ∃ dir n, Leads d p dir n ∧ d.get? (dir ++ [n]) = some e := by
  simp only [stat, bind, Except.bind] at h
  cases hr : d.resolve true p with
  | error f => simp [hr] at h
  | ok place =>
    rcases resolve_cases hd hr with ⟨l, mode, rfl⟩ | ⟨hs, dir, n, hl⟩
    · exact .inl ⟨l, mode, rfl⟩
    refine .inr ⟨hs, dir, n, hl, ?_⟩
    cases hg : d.get? (dir ++ [n]) with
    | none =>
      rw [hl.resolve_vacant hs hg] at h
      cases h
    | some e' =>
      rw [hl.resolve_entry hs hg (by rintro target rfl; exact hp dir n hl target hg)] at h
      cases h
      rfl

theorem read_inv (hd : Tree d) (hp : Plain d p) {content : Bytes} (h : d.read p = .ok content) :
    endsInSlash p = false ∧ ∃ dir n mode, Leads d p dir n ∧ d.get? (dir ++ [n]) = some (.file mode content) ∧
      allows mode readBit = true := by
  simp only [Disk.read, stat, bind, Except.bind] at h
  cases hr : d.resolve true p with
  | error f => simp [hr] at h
  | ok place =>
    rcases resolve_cases hd hr with ⟨l, mode, rfl⟩ | ⟨hs, dir, n, hl⟩
    · simp [hr, pure, Except.pure] at h
    refine ⟨hs, dir, n, ?_⟩
    cases hg : d.get? (dir ++ [n]) with
    | none => rw [hl.resolve_vacant hs hg] at h; cases h
    | some e =>
      rcases hp dir n hl e hg with ⟨mode, content', rfl⟩ | ⟨mode, rfl⟩
      · rw [hl.resolve_entry hs hg (by simp)] at h
        simp only [pure, Except.pure] at h
        split at h
        · next hr =>
          cases h
          exact ⟨mode, hl, rfl, hr⟩
        · cases h
      · rw [hl.resolve_entry hs hg (by simp)] at h
        simp [pure, Except.pure] at h

theorem LinkFree.read_leaf (hn : LinkFree d) (hd : Tree d) {c : Bytes} (hr : d.read p = .ok c) :
    endsInSlash p = false ∧ ∃ dir n e, Leads d p dir n ∧ d.get? (dir ++ [n]) = some e ∧ bone (some e) = none := by
  cases hs : d.stat p with
  | error f => simp [Disk.read, hs, bind, Except.bind] at hr
  | ok e =>
    have hdir : ∀ mode, e ≠ .dir mode := by
      rintro mode rfl
      simp [Disk.read, hs, bind, Except.bind] at hr
    rcases stat_cases hd (hn.noLink p) hs with ⟨l, mode, hres⟩ | ⟨hslash, dir, n, hl, hg⟩
    · simp only [stat, hres, bind, Except.bind, pure, Except.pure, Except.ok.injEq] at hs
      exact absurd hs.symm (hdir mode)
    · refine ⟨hslash, dir, n, e, hl, hg, ?_⟩
      cases e with
      | dir mode => exact absurd rfl (hdir mode)
      | link target => exact absurd hg (hn _ target)
      | _ => rfl

theorem LinkFree.read_inv (h : LinkFree d) (hd : Tree d) {c : Bytes} (hr : d.read p = .ok c) :
    ∃ dir n e, Leads d p dir n ∧ d.get? (dir ++ [n]) = some e ∧ ∀ mode c', e = .file mode c' → c' = c := by
  obtain ⟨hs, dir, n, e, hl, hg, -⟩ := h.read_leaf hd hr
  refine ⟨dir, n, e, hl, hg, ?_⟩
  rintro mode c' rfl
  simp only [Disk.read, hl.stat_some hs hg (by simp), bind, Except.bind, pure, Except.pure] at hr
  split at hr
  · exact Except.ok.inj hr
  · cases hr

theorem exists_join_text (q : Path) : ∃ a : Bytes, ∀ t : Bytes, t.head? ≠ some Path.slash →
    (q.join t).text = a ++ t := by
  by_cases h0 : q.text = []
  · exact ⟨[], fun t ht => by simp [Path.join, ht, h0]⟩
  by_cases h1 : q.text.getLast? = some Path.slash
  · exact ⟨q.text, fun t ht => by simp [Path.join, ht, h1]⟩
  · exact ⟨q.text ++ [Path.slash], fun t ht => by simp [Path.join, ht, h0, h1]⟩

end Disk

theorem marked_beside (mark : Bytes) (h : Leads d p dir n) : ∃ q, p.parent? = some q ∧ Path.Trim q ∧
    marked mark p = q.join (markedName mark n) := by
  obtain ⟨q, hq, ht, -⟩ := h.parent
  refine ⟨q, hq, ht, ?_⟩
  rw [marked_eq _ h.fileName?, Path.withFileName, h.fileName?, hq]

theorem names_marked {mark : Bytes} (hm : IsMark mark) (h : Leads d p dir n) :
    Names d (marked mark p) dir (markedName mark n) := by
  obtain ⟨q, hq, -, hb⟩ := marked_beside mark h
  rw [hb]
  exact h.names_beside (isName_markedName hm h.name.slash) hq

theorem backup_eq (h : Leads d p dir n) : ∃ q, p.parent? = some q ∧ Path.Trim q ∧
    backup p = q.join (markedName backupMark n) := marked_beside backupMark h

theorem names_backup (h : Leads d p dir n) : Names d (backup p) dir (markedName backupMark n) :=
  names_marked isMark_backup h

theorem names_of_backup {xs : List Bytes} (hx : Disk.names p.text = xs ++ [n]) (hn : IsName n)
    (hb : Leads d (backup p) dir n') : n' = markedName backupMark n ∧ Names d p dir n := by
  obtain ⟨hname, q, dots, hq, -, rfl, hdots, ho⟩ := Path.exists_parent hx hn
  have hm := isName_markedName isMark_backup hn.slash
  have hbackup : backup p = q.join (markedName backupMark n) := by
    rw [backup, marked_eq _ hname, Path.withFileName, hname, hq]
  obtain ⟨ys, k, hy, hw⟩ := hb.walks
  rw [hbackup, Path.names_join q (head?_ne_slash hm), names_of_isName hm] at hy
  obtain ⟨rfl, hn'⟩ := List.append_inj' hy rfl
  rw [hbackup, Path.origin_join _ q (head?_ne_slash hm), ho] at hw
  exact ⟨by simpa [eq_comm] using hn', _, k, hx, hw.append (.dots hb.enter hdots)⟩

theorem endsInSlash_backup (h : Leads d p dir n) : endsInSlash (backup p) = false := by
  obtain ⟨q, hq, -, hb⟩ := backup_eq h
  rw [hb]
  exact endsInSlash_join q (isName_markedName isMark_backup h.name.slash)

theorem directory_backup (h : Leads d p dir n) : (backup p).directory = p.directory := by
  obtain ⟨q, hq, ht, hb⟩ := backup_eq h
  rw [hb, Path.directory, Path.directory, ht.parent?_join (isName_markedName isMark_backup h.name.slash), hq]

theorem writable_of_backup (hd : Tree d) (hl : Leads d p dir n) (hs : endsInSlash p = false)
    (hb : bone (d.get? (dir ++ [n])) = none) (hw : Writable d (backup p) dir' n') :
    (dir' = dir ∧ n' = markedName backupMark n) ∧ Writable d p dir n := by
  obtain ⟨rfl, rfl⟩ := (names_backup hl).unique hd hw.leads.walks
  refine ⟨⟨rfl, rfl⟩, hl, hs, hb, ?_, ?_, hw.alter⟩
  · have htext := hw.text
    rw [directory_backup hl] at htext
    obtain ⟨a, ha⟩ := exists_join_text p.directory
    rw [ha _ (head?_ne_slash (isName_template hw.leads)), checkText_eq_ok_iff] at htext
    rw [ha _ (head?_ne_slash (isName_template hl)), checkText_eq_ok_iff]
    obtain ⟨h0, -, hlen⟩ := htext
    simp only [template, temporaryStart, hl.fileName?, hw.leads.fileName?, Option.getD_some, List.mem_append,
      mem_markedName, List.length_append, length_markedName, not_or] at h0 hlen ⊢
    refine ⟨⟨h0.1, ⟨⟨h0.2.1.1.1, h0.2.1.1.2.1⟩, h0.2.1.2⟩, h0.2.2⟩, ?_, by omega⟩
    simp [openSuffix, Bytes.ofString]
  · have hshort := hw.short
    simp only [template, temporaryStart, hl.fileName?, hw.leads.fileName?, Option.getD_some,
      List.length_append, length_markedName] at hshort ⊢
    omega

/-- A source that is there without a backup: where the two stand, and its bits and content. -/
structure Lot where
  path : Path
  live : Location
  copy : Location
  mode : Nat
  content : Bytes

/-- The backup of a lot can be written, and its source read. -/
structure Lot.Fits (d : Disk) (x : Lot) : Prop where
  live : ∃ dir n, x.live = dir ++ [n] ∧ x.copy = dir ++ [markedName backupMark n] ∧
    Writable d x.path dir n ∧ Writable d (backup x.path) dir (markedName backupMark n)
  readable : allows x.mode readBit = true

/-- A lot that can be worked on, by what the view shows. -/
structure Lot.In (d : Disk) (v : View) (x : Lot) : Prop where
  fits : x.Fits d
  live : v x.live = some (.file x.mode x.content)
  copy : v x.copy = none

namespace Lot

variable {x y : Lot}

theorem Fits.alike (ha : Alike d d') (h : x.Fits d) : x.Fits d' := by
  obtain ⟨⟨dir, n, hl, hc, hw, hw'⟩, hr⟩ := h
  exact ⟨⟨dir, n, hl, hc, hw.alike ha, hw'.alike ha⟩, hr⟩

theorem Fits.live_ne_copy (h : x.Fits d) : x.live ≠ x.copy := by
  obtain ⟨⟨dir, n, hl, hc, -, -⟩, -⟩ := h
  rw [hl, hc]
  exact ne_markedName _ _ _

theorem In.unique (hx : x.In d v) (hy : y.In d v) (h : x.path = y.path) : x = y := by
  obtain ⟨xp, xl, xc, xm, xt⟩ := x
  obtain ⟨yp, yl, yc, ym, yt⟩ := y
  obtain rfl : xp = yp := h
  obtain ⟨⟨⟨dir, n, rfl, rfl, hw, -⟩, -⟩, hxl, -⟩ := hx
  obtain ⟨⟨⟨dir', n', rfl, rfl, hw', -⟩, -⟩, hyl, -⟩ := hy
  obtain ⟨rfl, rfl⟩ := hw.leads.unique hw'.leads
  simp_all

end Lot

/-! ### The backup -/

variable {o : Oracle} {h : Host} {ds : List Deed} {w : World} {x : Lot}

theorem create_of_lot (t : Trail o h ds w) (hx : x.In h.disk (after h.disk.get? ds)) :
    ∃ w', Work.on (Backup.create x.path) w = (.ok (Backup.of x.path), w') ∧
      Trail o h (ds ++ [.write x.copy x.content]) w' := by
  obtain ⟨⟨⟨dir, n, hl, hc, hw, hw'⟩, hr⟩, hlive, hcopy⟩ := hx
  have hleads := hw'.leads.alike t.now.alike
  have hexists : w.disk.exists? (backup x.path) = false := by
    rw [← t.now.view, hc] at hcopy
    simp [exists?, hleads.stat_none hw'.slash hcopy, Except.isOk, Except.toBool]
  have hread : w.disk.read x.path = .ok x.content := by
    rw [← t.now.view, hl] at hlive
    exact (hw.leads.alike t.now.alike).read hw.slash hlive hr
  obtain ⟨w', hrep, t'⟩ := t.replace hw' x.content
  rw [← hc] at t'
  refine ⟨_, ?_, t'.emit ⟨.debug, Backup.target, "backup created",
    [("file", .path x.path), ("backup", .path (backup x.path))]⟩⟩
  simp only [Backup.create, Backup.of, Work.on_bind, Work.on_disk, hexists, hread, Bool.false_eq_true, if_false, hrep]
  rfl

theorem create_of_no_lot (t : Trail o h ds w) {file : Path} (hlive : Plain w.disk file)
    (hcopy : NoLink h.disk (backup file)) (hx : ∀ x : Lot, x.In h.disk (after h.disk.get? ds) → x.path ≠ file) :
    ∃ e w', Work.on (Backup.create file) w = (.error e, w') ∧ Trail o h ds w' := by
  by_cases hexists : w.disk.exists? (backup file)
  · simp only [Backup.create, Backup.of, Work.on_bind, Work.on_disk, hexists, if_true]
    exact ⟨_, w, rfl, t⟩
  simp only [Backup.create, Backup.of, Work.on_bind, Work.on_disk, hexists, Bool.false_eq_true, if_false]
  cases hread : w.disk.read file with
  | error f => exact ⟨_, w, rfl, t⟩
  | ok content =>
    obtain ⟨hs, dir, n, mode, hl, hg, hr⟩ := read_inv t.now.tree hlive hread
    have hw : ∀ dir' n', ¬ Writable h.disk (backup file) dir' n' := by
      intro dir' n' hw
      have hw' := hw.alike t.now.alike
      obtain ⟨⟨rfl, rfl⟩, hwl⟩ := writable_of_backup t.now.tree hl hs (by rw [hg, bone_file]) hw'
      refine hx ⟨file, _, _, mode, content⟩ ⟨⟨⟨dir', n, rfl, rfl, hwl.alike t.now.alike.symm, hw⟩, hr⟩, ?_, ?_⟩ rfl
      · rw [← t.now.view, hg]
      · rw [← t.now.view]
        refine Option.eq_none_iff_forall_ne_some.2 fun e he => hexists ?_
        have hlink : ∀ target, e ≠ .link target := by
          rintro target rfl
          simpa [he, bone] using hw'.leaf
        simp [exists?, hw'.leads.stat_some hw'.slash he hlink, Except.isOk, Except.toBool]
    obtain ⟨f, w', hrep, t'⟩ := t.replace_error hcopy hw content
    refine ⟨.write (backup file) f, w', ?_, t'⟩
    simp only [Work.on_bind, hrep]
    rfl

theorem discard_on {b : Backup} {w w' : World} (hrm : Work.on (Work.carryOut (·.remove b.copy)) w = (.ok (), w')) :
    Work.on b.discard w = (.ok (), w') := by
  simp only [Backup.discard, Work.on_bind, hrm]
  rfl

/-! ### The trials -/

/-- The deeds of trying candidates, for any verdicts. A pass that is cut off has no outcome. -/
inductive Tries (call : BuildCall) (live : Location) (lines : List Bytes) :
    List Pass.Candidate → List Lines.State → List Deed → Pass.Result → Prop
  | nil (states : List Lines.State) : Tries call live lines [] states [] (some ([], states))
  | cut (c : Pass.Candidate) (cs : List Pass.Candidate) (states : List Lines.State) :
    Tries call live lines (c :: cs) states
      [.write live (Lines.render lines (states.set c.index .blanked)), .build call none] none
  | cutLater {c : Pass.Candidate} {cs : List Pass.Candidate} {states : List Lines.State} {passed : Bool}
    {ds : List Deed}
    (h : Tries call live lines cs (if passed then states.set c.index .blanked else states) ds none) :
    Tries call live lines (c :: cs) states
      (.write live (Lines.render lines (states.set c.index .blanked)) :: .build call (some passed) :: ds) none
  | step {c : Pass.Candidate} {cs : List Pass.Candidate} {states : List Lines.State} {passed : Bool}
    {ds : List Deed} {findings : List Pass.Finding} {final : List Lines.State}
    (h : Tries call live lines cs (if passed then states.set c.index .blanked else states) ds
      (some (findings, final))) :
    Tries call live lines (c :: cs) states
      (.write live (Lines.render lines (states.set c.index .blanked)) :: .build call (some passed) :: ds)
      (some (⟨c, passed⟩ :: findings, final))

/-- How a computation ends that has an outcome or is cut off. -/
def ending {α : Type} : Option α → Except Interrupted α
  | none => .error ⟨⟩
  | some a => .ok a

theorem trials_deeds (ro : o.ReadOnly) {path : Path} (hw : Writable h.disk path dir n) (call : BuildCall)
    (lines : List Bytes) (cs : List Pass.Candidate) (states : List Lines.State) (t : Trail o h ds w) :
    ∃ es r w', Tries call (dir ++ [n]) lines cs states es r ∧ Trail o h (ds ++ es) w' ∧
      Run.on (Pass.trials o call path lines cs states) w = (ending (r.map .ok), w') := by
  induction cs generalizing states ds w with
  | nil => exact ⟨[], _, w, .nil states, by simpa using t, rfl⟩
  | cons c cs ih =>
    obtain ⟨w₁, hrep, t₁⟩ := t.replace hw (Lines.render lines (states.set c.index .blanked))
    obtain ⟨b, w₂, t₂, hbuild⟩ := t₁.build ro call
    simp only [Pass.trials, Run.on_bind, Run.on_lift, hrep, hbuild]
    cases b with
    | none => exact ⟨_, none, w₂, .cut c cs states, by simpa using t₂, rfl⟩
    | some passed =>
      obtain ⟨e, he⟩ : ∃ e, ∀ rest : Unit → Run (Except Pass.Problem (List Pass.Finding × List Lines.State)),
          Run.on (if passed then
            liftM (Work.report .info Pass.target "redundant directive removed"
              [("file", .path path), ("line", .number c.number), ("text", .shown c.text)]) >>= rest
          else liftM (Work.report .debug Pass.target "directive required"
            [("file", .path path), ("line", .number c.number)]) >>= rest) w₂ = Run.on (rest ()) (w₂.emit e) := by
        cases passed <;> exact ⟨_, fun _ => rfl⟩
      obtain ⟨es, r, w', htries, t', hrun⟩ := ih (if passed then states.set c.index .blanked else states) (t₂.emit e)
      simp only [he, Run.on_bind, hrun]
      cases r with
      | none => exact ⟨_, none, w', .cutLater htries, by simpa using t', rfl⟩
      | some out => exact ⟨_, _, w', .step htries, by simpa using t', rfl⟩

theorem Tries.cases {live : Location} {lines : List Bytes} {cs : List Pass.Candidate}
    {states : List Lines.State}
    (ht : Tries call live lines cs states ds r) :
    ∀ e ∈ ds, (∃ b, e = .build call b) ∨ ∃ content, e = .write live content := by
  induction ht with
  | nil | cut => simp
  | cutLater _ ih | step _ ih => simpa using ih

theorem Tries.location_eq {live : Location} {lines : List Bytes} {cs : List Pass.Candidate}
    {states : List Lines.State}
    (ht : Tries call live lines cs states ds r) : ∀ e ∈ ds, ∀ l ∈ e.location?, l = live := by
  intro e he l hl
  rcases ht.cases e he with ⟨b, rfl⟩ | ⟨content, rfl⟩
  · cases hl
  · exact (Option.some.inj hl).symm

namespace Lot

def lines (x : Lot) : List Bytes := Lines.split x.content

def untouched (x : Lot) : List Lines.State := List.replicate x.lines.length .present

/-- What is left at the end of a pass is written, unless there was nothing to try. -/
def closing (m : Directive.Matcher) (x : Lot) (final : List Lines.State) : List Deed :=
  if (Pass.candidates m x.lines).isEmpty then []
  else [.write x.live (Lines.render x.lines (final.map Lines.State.settle))]

end Lot

/-- The deeds of taking a source, and what is found out about its candidates. -/
inductive Passes (m : Directive.Matcher) (call : BuildCall) (x : Lot) :
    List Deed → Pass.Result → Prop
  | cut {ds : List Deed} (h : Tries call x.live x.lines (Pass.candidates m x.lines) x.untouched ds none) :
    Passes m call x (.write x.copy x.content :: ds) none
  | done {ds : List Deed} {findings : List Pass.Finding} {final : List Lines.State}
    (h : Tries call x.live x.lines (Pass.candidates m x.lines) x.untouched ds (some (findings, final))) :
    Passes m call x (.write x.copy x.content :: (ds ++ x.closing m final ++ [.erase x.copy])) (some (findings, final))

theorem Lot.closing_cases (m : Directive.Matcher) (x : Lot) (final : List Lines.State) :
    ∀ e ∈ x.closing m final, ∃ content, e = .write x.live content := by
  rw [Lot.closing]
  split <;> simp

theorem Lot.location_closing (m : Directive.Matcher) (x : Lot) (final : List Lines.State) :
    ∀ e ∈ x.closing m final, ∀ l ∈ e.location?, l = x.live := by
  intro e he l hl
  obtain ⟨content, rfl⟩ := x.closing_cases m final e he
  exact (Option.some.inj hl).symm

theorem Passes.cases {m : Directive.Matcher} (hp : Passes m call x ds r) :
    ∀ e ∈ ds, (∃ b, e = .build call b) ∨ (∃ content, e = .write x.live content) ∨ e.location? = some x.copy := by
  cases hp with
  | cut ht =>
    rw [List.forall_mem_cons]
    exact ⟨.inr (.inr rfl), fun e he => (ht.cases e he).imp_right .inl⟩
  | done ht =>
    rw [List.forall_mem_cons, List.forall_mem_append, List.forall_mem_append]
    exact ⟨.inr (.inr rfl), ⟨fun e he => (ht.cases e he).imp_right .inl,
      fun e he => .inr (.inl (x.closing_cases m _ e he))⟩, by simp [Deed.location?]⟩

theorem Passes.location_eq {m : Directive.Matcher} (hp : Passes m call x ds r) :
    ∀ e ∈ ds, ∀ l ∈ e.location?, l = x.live ∨ l = x.copy := by
  intro e he l hl
  rcases hp.cases e he with ⟨b, rfl⟩ | ⟨content, rfl⟩ | hcopy
  · cases hl
  · exact .inl (Option.some.inj hl).symm
  · exact .inr (Option.some.inj (hl.symm.trans hcopy))

theorem run_deeds (ro : o.ReadOnly) (call : BuildCall) (m : Directive.Matcher) (t : Trail o h ds w)
    (hl : ∃ dir n, x.live = dir ++ [n] ∧ Writable h.disk x.path dir n)
    (hv : after h.disk.get? ds x.live = some (.file x.mode x.content)) (hr : allows x.mode readBit = true) :
    ∃ es r w', Tries call x.live x.lines (Pass.candidates m x.lines) x.untouched es r ∧
      Trail o h (ds ++ es ++ (r.elim [] fun out => x.closing m out.2)) w' ∧
      Run.on (Pass.run o call m x.path) w = (ending (r.map fun out => .ok ⟨x.path, out.1⟩), w') := by
  obtain ⟨dir, n, hlive, hw⟩ := hl
  have hread : w.disk.read x.path = .ok x.content := by
    rw [← t.now.view, hlive] at hv
    exact (hw.leads.alike t.now.alike).read hw.slash hv hr
  obtain ⟨es, r, w₁, htries, t₁, hrun⟩ := trials_deeds ro hw call x.lines (Pass.candidates m x.lines) x.untouched
    (t.emit ⟨.debug, Pass.target, "starting pass",
      [("file", .path x.path), ("candidates", .number (Pass.candidates m x.lines).length)]⟩)
  rw [← hlive] at htries
  simp only [Lot.lines, Lot.untouched] at hrun
  simp only [Pass.run, Run.on_bind, Run.on_lift, Work.on_disk, hread, Work.on_report, hrun]
  cases r with
  | none => exact ⟨es, none, w₁, htries, by simpa using t₁, rfl⟩
  | some out =>
    by_cases hcs : (Pass.candidates m x.lines).isEmpty
    · refine ⟨es, some out, w₁, htries, by simpa [Lot.closing, hcs] using t₁, ?_⟩
      rw [Lot.lines] at hcs
      simp only [ending, Option.map_some, hcs, if_true]
      rfl
    · obtain ⟨w₂, hrep, t₂⟩ := t₁.replace hw (Lines.render x.lines (out.2.map Lines.State.settle))
      rw [← hlive] at t₂
      refine ⟨es, some out, w₂, htries, by simpa [Lot.closing, hcs] using t₂, ?_⟩
      rw [Lot.lines] at hcs hrep
      simp only [ending, Option.map_some, hcs, Bool.false_eq_true, if_false, Run.on_bind, Run.on_lift, hrep]
      rfl

/-- What is left of a lot when a pass is done, by its final states. -/
def Lot.result (x : Lot) (final : List Lines.State) : Bytes := Lines.render x.lines (final.map Lines.State.settle)

/-- Taking a lot. With a build that only reads the disk nothing goes wrong. -/
theorem processFile_of_lot (ro : o.ReadOnly) (s : Settings) (t : Trail o h ds w)
    (hx : x.In h.disk (after h.disk.get? ds)) :
    ∃ es r w', Passes s.matcher (Sweep.trialCall s) x es r ∧ Trail o h (ds ++ es) w' ∧
      Run.on (Sweep.processFile s o x.path) w = (ending (r.map fun out => .committed ⟨x.path, out.1⟩), w') := by
  obtain ⟨w₁, hcreate, t₁⟩ := create_of_lot t hx
  have hne := hx.fits.live_ne_copy
  obtain ⟨⟨⟨dir, n, hl, hc, hw, hw'⟩, hr⟩, hlive, hcopy⟩ := hx
  have hlive₁ : after h.disk.get? (ds ++ [.write x.copy x.content]) x.live = some (.file x.mode x.content) := by
    rw [after_append, after_cons, after_nil, Deed.apply, Function.update_of_ne hne, hlive]
  obtain ⟨es, r, w₂, htries, t₂, hrun⟩ := run_deeds ro (Sweep.trialCall s) s.matcher t₁ ⟨dir, n, hl, hw⟩ hlive₁ hr
  simp only [Sweep.processFile, Run.on_bind, Run.on_lift, hcreate, hrun]
  cases r with
  | none => exact ⟨_, none, w₂, .cut htries, by simpa using t₂, rfl⟩
  | some out =>
    have hcopy₂ : after h.disk.get? (ds ++ [.write x.copy x.content] ++ es ++ x.closing s.matcher out.2) x.copy =
        some (.file (inherit none) x.content) := by
      rw [after_append, after_append, after_of_forall, after_of_forall]
      · simp [Deed.apply, hcopy]
      · exact fun e he hc => hne (htries.location_eq e he _ hc).symm
      · exact fun e he hc => hne (x.location_closing s.matcher _ e he _ hc).symm
    obtain ⟨w₃, hrm, t₃⟩ := t₂.remove hw'.removable (by rw [← hc]; exact hcopy₂) (bone_file ..)
    refine ⟨_, some out, _, .done htries, by simpa [← hc] using t₃.emit ⟨.debug, Backup.target,
      "backup discarded after commit", [("file", .path x.path)]⟩, ?_⟩
    have hcommit := discard_on (b := Backup.of x.path) hrm
    simp only [ending, Option.map_some, Backup.commit, Run.on_bind, Run.on_lift, Work.on_bind, hcommit]
    rfl

theorem processFile_of_no_lot (s : Settings) (t : Trail o h ds w) {file : Path} (hlive : Plain w.disk file)
    (hcopy : NoLink h.disk (backup file)) (hx : ∀ x : Lot, x.In h.disk (after h.disk.get? ds) → x.path ≠ file) :
    ∃ e w', Trail o h ds w' ∧ Run.on (Sweep.processFile s o file) w = (.ok (.notStarted e), w') := by
  obtain ⟨e, w₁, hcreate, t₁⟩ := create_of_no_lot t hlive hcopy hx
  refine ⟨e, _, t₁.emit ⟨.error, Sweep.target, "could not back up file; skipping it",
      [("file", .path file), ("error", .shown e.message)]⟩, ?_⟩
  simp only [Sweep.processFile, Run.on_bind, Run.on_lift, hcreate]
  rfl

end Prune
