import Prune.Proofs.Histories

/-!
# Backups from before

A source that has a backup before the first run is passed over by every run: neither of the two is touched,
also by runs that are cut off, for as long as no run begins while the progress names the source
(`stale_backup_untouched`). But when the turn of the source comes, the progress names it until it is passed
over, and a run that begins on such a disk takes the backup for one of its own and goes over the source with
it (`stale_backup_taken`).

What runs do is said by `Acts`, without asking what of the disk they find: they stay away from one source,
and all they do leaves the disk `Orderly`, so that the next run finds the same sources again.
-/

namespace Prune

open Disk Artefact Lines Workshop

variable {d d' : Disk} {f p q : Path} {l dir : Location} {n content : Bytes} {v : View} {e : Deed} {ds back : List Deed}
  {s : Settings} {files : List Path} {A B : Path → Prop} {o : Oracle} {h h' h'' : Host} {marker : Option Path}
  {r : Sweep.Ending}

/-! ### What runs do, whatever they find -/

/-- What runs do that have to do with no sources but those in `A`. -/
inductive Acts (d : Disk) (s : Settings) (files : List Path) (A : Path → Prop) : Deed → Prop
  | build (call : BuildCall) (verdict : Option Bool) : Acts d s files A (.build call verdict)
  | clear {l : Location} (h : Litter d s.sourceRoot l) : Acts d s files A (.erase l)
  | trial {dir l : Location} {n : Bytes} {e : Deed} (h : Leads d s.trialProject dir n)
    (hl : l ∈ d.twins (dir ++ [n])) (he : e.location? = some l) : Acts d s files A e
  | mark {dir : Location} {n content : Bytes} (h : Leads d s.progressFile dir n) (hc : Notes files content) :
    Acts d s files A (.write (dir ++ [n]) content)
  | write {p : Path} {dir : Location} {n : Bytes} (hp : p ∈ files) (hA : A p) (h : Leads d p dir n)
    (content : Bytes) : Acts d s files A (.write (dir ++ [n]) content)
  | copy {p : Path} {dir : Location} {n : Bytes} {e : Deed} (hp : p ∈ files) (hA : A p)
    (h : Leads d (backup p) dir n) (he : e.location? = some (dir ++ [n])) : Acts d s files A e

namespace Acts

theorem not_touches (hs : Scene d s files) (hf : f ∈ files) (hA : ¬ A f) (he : Acts d s files A e)
    (hl : e.location? = some l) : ¬ Touches d f l := by
  intro ht
  cases he with
  | build => cases hl
  | clear h =>
    cases hl
    exact hs.kept f hf l ht h
  | trial h hk he => exact hs.away f hf l ht _ _ h (Option.some.inj (he.symm.trans hl) ▸ hk)
  | mark h =>
    cases hl
    exact hs.aside f hf _ ht _ _ h rfl
  | @write p dir n hp hA' h =>
    cases hl
    obtain rfl := hs.apart f hf p hp _ ht ⟨p, dir, n, .inl rfl, h, rfl⟩
    exact hA hA'
  | @copy p dir n _ hp hA' h he =>
    obtain rfl := Option.some.inj (hl.symm.trans he)
    obtain rfl := hs.apart f hf p hp _ ht ⟨backup p, dir, n, .inr rfl, h, rfl⟩
    exact hA hA'

theorem at_source (hf : Footing d s files) (ha : Apart d s) (hq : Sources.isListed s.extensions q = true)
    (hsp : Spells d s.sourceRoot q l) (he : Acts d s files A e) (hl : e.location? = some l) :
    (∃ content, e = .write l content) ∧ ∃ e', d.get? l = some e' ∧ e'.isFile = true := by
  obtain ⟨dir, n, rfl, hn⟩ := hsp.exists_fileName
  obtain ⟨htemp, hbackup, htrial⟩ := unmarked_of_isListed hq hn
  obtain ⟨hlisting, -⟩ := Sources.listing_of_listed hf.tree hf.listed
  cases he with
  | build => cases hl
  | clear h =>
    cases hl
    obtain ⟨q', dir', n', -, ht, hr, heq⟩ := h
    obtain ⟨rfl, rfl⟩ := concat_inj heq
    exact absurd ((isTemporary_iff hr.leads.fileName?).1 ht) htemp
  | @trial dir' k n' _ h hk he =>
    obtain rfl := Option.some.inj (he.symm.trans hl)
    by_cases heq : dir ++ [n] = dir' ++ [n']
    · obtain ⟨rfl, rfl⟩ := concat_inj heq
      obtain ⟨m, rfl⟩ := exists_trial_name h
      exact absurd rfl (htrial m)
    · exact absurd hsp (hf.not_spells h hk heq hq)
  | mark h => exact absurd (Option.some.inj hl).symm (ha.unlisted q _ hq hsp _ _ h)
  | write hp _ h content =>
    obtain ⟨rfl, rfl⟩ := concat_inj (Option.some.inj hl)
    obtain ⟨-, k, e', hsp', hg, he'⟩ := (hlisting.mem_iff _).1 hp
    obtain rfl := hsp'.eq_of_names hf.tree hg h.walks
    exact ⟨⟨content, rfl⟩, e', hg, he'⟩
  | copy hp _ h he =>
    obtain ⟨rfl, rfl⟩ := concat_inj (Option.some.inj (hl.symm.trans he))
    obtain ⟨-, k, e', hsp', -, -⟩ := (hlisting.mem_iff _).1 hp
    obtain ⟨xs, m, hx, hm⟩ := hsp'.exists_names
    exact absurd (names_of_backup hx hm h).1 (hbackup m)

end Acts

theorem Notes.told (hf : Footing d s files) (ha : Aloof d s) (h : Notes files content) : Says (· ∈ files) content := by
  rcases h with rfl | rfl | ⟨p, hp, rfl⟩
  · exact says_nil
  · exact says_sentinel
  · obtain ⟨hvalid, hdecode⟩ := source_marker hf ha hp
    exact ⟨hvalid, .inr (.inr ⟨p, hp, rfl, hdecode⟩)⟩

/-- The sources are where they were, and the progress can be read. -/
structure Orderly (d : Disk) (s : Settings) (files : List Path) (v : View) : Prop where
  sources : ∀ p l, Sources.isListed s.extensions p = true → Spells d s.sourceRoot p l →
    ((∃ e, v l = some e ∧ e.isFile = true) ↔ ∃ e, d.get? l = some e ∧ e.isFile = true)
  progress : endsInSlash s.progressFile = false → ∀ dir n, Leads d s.progressFile dir n →
    Legible (· ∈ files) (v (dir ++ [n]))

namespace Orderly

theorem start (hf : Footing d s files) (hread : Progress.read d s.progressFile = .ok .fresh) :
    Orderly d s files d.get? where
  sources _ _ _ _ := .rfl
  progress hslash _ _ hl := hl.legible_of_fresh hf.progress hslash hread

theorem apply (hf : Footing d s files) (ha : Aloof d s) (he : Acts d s files A e) (hv : Orderly d s files v) :
    Orderly d s files (e.apply v) where
  sources q l hq hsp := by
    by_cases hl : e.location? = some l
    · obtain ⟨⟨content, rfl⟩, hfile⟩ := he.at_source hf ha.toApart hq hsp hl
      exact iff_of_true ⟨_, apply_write_self content v, rfl⟩ hfile
    · rw [Deed.apply_of_ne hl]
      exact hv.sources q l hq hsp
  progress hslash dir n hl := by
    by_cases hloc : e.location? = some (dir ++ [n])
    · cases he with
      | build => cases hloc
      | clear =>
        cases hloc
        simpa [Deed.apply] using Legible.none
      | trial h hk he => exact absurd (Option.some.inj (he.symm.trans hloc) ▸ hk) (ha.unlinked dir n hl _ _ h)
      | mark h hc =>
        obtain ⟨rfl, rfl⟩ := concat_inj (Option.some.inj hloc)
        rw [apply_write_self]
        exact (hv.progress hslash _ _ hl).write (hc.told hf ha)
      | @write p dir' n' hp _ h =>
        exact absurd (Option.some.inj hloc) (hf.aside p hp _ ⟨p, dir', n', .inl rfl, h, rfl⟩ dir n hl)
      | @copy p dir' n' _ hp _ h he =>
        exact absurd (Option.some.inj (he.symm.trans hloc)) (hf.aside p hp _ ⟨_, dir', n', .inr rfl, h, rfl⟩ dir n hl)
    · rw [Deed.apply_of_ne hloc]
      exact hv.progress hslash dir n hl

theorem after (hf : Footing d s files) (ha : Aloof d s) (hds : ∀ e ∈ ds, Acts d s files A e)
    (hv : Orderly d s files v) : Orderly d s files (after v ds) := by
  induction ds generalizing v with
  | nil => exact hv
  | cons e ds ih =>
    exact ih (fun e he => hds e (.tail _ he)) (hv.apply hf ha (hds e (.head _)))

theorem tells (hf : Footing d s files) (ht : Turned d h.disk.get? h.disk) (hv : Orderly d s files v) :
    Tells h.disk s files v := fun d' hd' => hf.tells hv.sources d' (ht.trans hd')

theorem read_cases (ht : Turned d v d') (hs' : Scene d' s files) (hv : Orderly d s files v) {t : Resume}
    (hread : Progress.read d' s.progressFile = .ok t) : t = .fresh ∨ t = .done ∨ ∃ p ∈ files, t = .inProgress p := by
  rcases progress_read_inv hs'.tree hs'.progress hread with rfl | ⟨hslash, dir, n, mode, c, hl, hg, -, -, rfl⟩
  · exact .inl rfl
  · rw [ht.view] at hg
    obtain ⟨_, _, ⟨⟩, -, -, h | h | ⟨p, hp, -, h⟩⟩ := hv.progress hslash dir n (hl.alike ht.alike.symm) _ hg
    · exact .inl h
    · exact .inr (.inl h)
    · exact .inr (.inr ⟨p, hp, h⟩)

end Orderly

/-- What the course of a run does, seen from the disk there was before all runs. -/
theorem Course.acts {u : View} (hd : Tree d) (ht : Turned d u d')
    (hA : ∀ x : Lot, x.In d' v → x.path ∈ files → A x.path) (hc : Course d' s files v marker ds r) :
    ∀ e ∈ ds, Acts d s files A e := by
  intro e he
  have ha := ht.alike
  have hsub : ∀ p ∈ files.drop (Sweep.resumeIndex files marker), p ∈ files := fun _ => List.mem_of_mem_drop
  cases hc.does e he with
  | build call b => exact .build call b
  | clear h => exact .clear (h.alike ha.symm ht.tree hd)
  | trial h hl he => exact .trial (h.alike ha.symm) (ht.sharing.twins hl) he
  | mark h hc => exact .mark (h.alike ha.symm) (hc.mono hsub)
  | write hx hp content =>
    obtain ⟨⟨dir, n, hlive, -, hw, -⟩, -⟩ := hx.fits
    rw [hlive]
    exact .write (hsub _ hp) (hA _ hx (hsub _ hp)) (hw.leads.alike ha.symm) content
  | copy hx hp he =>
    obtain ⟨⟨dir, n, -, hcopy, -, hw⟩, -⟩ := hx.fits
    exact .copy (hsub _ hp) (hA _ hx (hsub _ hp)) (hw.leads.alike ha.symm) (hcopy ▸ he)

theorem Recovers.acts {m : Path} {r : Except Sweep.Problem Unit} (ha : Alike d d') (hm : m ∈ files) (hA : A m)
    (hr : Recovers d' v m back r) : ∀ e ∈ back, Acts d s files A e := by
  cases hr with
  | bare | refused => simp
  | done hw hl =>
    rw [List.forall_mem_cons, List.forall_mem_singleton]
    exact ⟨.write hm hA (hw.leads.alike ha.symm) _, .copy hm hA (hl.alike ha.symm) rfl⟩

/-! ### A source with a backup from before -/

def HasBackup (d : Disk) (f : Path) : Prop :=
  endsInSlash (backup f) = false ∧
    ∃ dir n mode content, Leads d (backup f) dir n ∧ d.get? (dir ++ [n]) = some (.file mode content)

theorem HasBackup.of_file? (hd : Tree d) (hp : Plain d (backup f)) (hb : d.file? (backup f) ≠ none) : HasBackup d f := by
  obtain ⟨⟨mode, content⟩, hb⟩ := Option.ne_none_iff_exists'.1 hb
  obtain ⟨hslash, dir, n, hl, hg⟩ := (file?_eq_some_iff hd hp.noLink).1 hb
  exact ⟨hslash, dir, n, mode, content, hl, hg⟩

/-- The host is what runs have left of the disk `d` that had nothing to do with `f`. -/
structure Steady (d : Disk) (s : Settings) (files : List Path) (f : Path) (h : Host) : Prop where
  turned : Turned d h.disk.get? h.disk
  scene : Scene h.disk s files
  orderly : Orderly d s files h.disk.get?
  same : ∀ l, Touches d f l → h.disk.get? l = d.get? l

namespace Steady

theorem start (hf : Footing h.disk s files) (hread : Progress.read h.disk s.progressFile = .ok .fresh) :
    Steady h.disk s files f h := ⟨.refl hf.tree, hf.scene, .start hf hread, fun _ _ => rfl⟩

theorem path_ne (hh : Steady d s files f h) (hb : HasBackup d f)
    (hv : ∀ l, Touches d f l → v l = h.disk.get? l) {x : Lot} (hx : x.In h.disk v) : x.path ≠ f := by
  rintro rfl
  obtain ⟨-, dir, n, mode, content, hl, hg⟩ := hb
  obtain ⟨⟨⟨dir', n', -, hcopy, -, hw⟩, -⟩, -, hnone⟩ := hx
  obtain ⟨rfl, rfl⟩ := hl.unique (hw.leads.alike hh.turned.alike.symm)
  have htouch : Touches d x.path x.copy := ⟨_, _, _, .inr rfl, hl, hcopy⟩
  rw [hcopy] at htouch hnone
  rw [hv _ htouch, hh.same _ htouch, hg] at hnone
  cases hnone

theorem run (hf : Footing d s files) (ha : Aloof d s) (hmem : f ∈ files) (hb : HasBackup d f) (ro : o.ReadOnly)
    (hh : Steady d s files f h) (hread : Progress.read h.disk s.progressFile ≠ .ok (.inProgress f)) :
    ∃ ds, (∀ e ∈ ds, Acts d s files (· ≠ f) e) ∧ Trail o h ds (Run.on (Sweep.run s o) (World.start h)).2 := by
  have hs' := hh.scene
  cases hr : Progress.read h.disk s.progressFile with
  | error e =>
    obtain ⟨w', t, hrun⟩ := run_error (o := o) hs'.tree hr
    exact ⟨[], by simp, hrun ▸ t⟩
  | ok t =>
    rcases hh.orderly.read_cases hh.turned hs' hr with rfl | rfl | ⟨m, hm, rfl⟩
    · obtain ⟨es, r, w', hc, t, hrun⟩ := run_fresh ro hs' hr (hh.orderly.tells hf hh.turned)
      exact ⟨es, hc.acts hf.tree hh.turned fun x hx _ => hh.path_ne hb (fun _ _ => rfl) hx, hrun ▸ t⟩
    · obtain ⟨w', t, hrun⟩ := run_done (o := o) hs'.tree hr
      exact ⟨[], by simp, hrun ▸ t⟩
    · have hne : m ≠ f := by
        rintro rfl
        exact hread hr
      have hback : ∀ {back r}, Recovers h.disk h.disk.get? m back r → ∀ e ∈ back, Acts d s files (· ≠ f) e :=
        fun hrec => hrec.acts hh.turned.alike hm hne
      obtain ⟨back, r, w', hrec, hrun⟩ := run_recovered ro hs' (hs'.live m hm).noLink (hs'.copy m hm) hr
        fun back hrec => (hh.orderly.after hf ha (hback hrec)).tells hf hh.turned
      cases r with
      | error e => exact ⟨back, hback hrec, hrun.2 ▸ hrun.1⟩
      | ok u =>
        obtain ⟨es, r, hc, t, hrun⟩ := hrun
        refine ⟨back ++ es, List.forall_mem_append.2 ⟨hback hrec, ?_⟩, hrun ▸ t⟩
        refine hc.acts hf.tree hh.turned fun x hx _ => hh.path_ne hb (fun l hl => ?_) hx
        exact after_of_forall (fun e he hloc => (hback hrec e he).not_touches hf.scene hmem (by simp) hloc hl) _

theorem of_mem_disks (hf : Footing d s files) (ha : Aloof d s) (hmem : f ∈ files) (hb : HasBackup d f)
    (ro : o.ReadOnly) (hh : Steady d s files f h)
    (hread : Progress.read h.disk s.progressFile ≠ .ok (.inProgress f))
    (hd : h'.disk ∈ (Run.on (Sweep.run s o) (World.start h)).2.disks) : Steady d s files f h' := by
  obtain ⟨ds, hds, t⟩ := hh.run hf ha hmem hb ro hread
  obtain ⟨pre, hpre, hturn⟩ := t.past _ hd
  have hacts : ∀ e ∈ pre, Acts d s files (· ≠ f) e := fun e he => hds e (hpre.subset he)
  have hturned : Turned d h'.disk.get? h'.disk := hh.turned.trans (hturn.view ▸ hturn)
  refine ⟨hturned, ?_, ?_, fun l hl => ?_⟩
  · exact hh.scene.turned hturn
  · rw [hturn.view]
    exact hh.orderly.after hf ha hacts
  · rw [hturn.view, after_of_forall fun e he hloc => (hacts e he).not_touches hf.scene hmem (by simp) hloc hl]
    exact hh.same l hl

end Steady

/-- `h'` is left of `h` by a run that came to its end or was cut off between two of its changes. -/
def Leaves (s : Settings) (o : Oracle) (h h' : Host) : Prop :=
  h'.disk ∈ (Run.on (Sweep.run s o) (World.start h)).2.disks

theorem leaves_sweep (s : Settings) (o : Oracle) (h : Host) : Leaves s o h (h.sweep s o).2 := .head _

/-- What is left of `h` by runs one after the other, none of which begins while the progress names `f`. -/
inductive Restarts (s : Settings) (f : Path) (h : Host) : Host → Prop
  | none : Restarts s f h h
  | run {h' h'' : Host} {o : Oracle} (before : Restarts s f h h') (ro : o.ReadOnly)
    (hread : Progress.read h'.disk s.progressFile ≠ .ok (.inProgress f)) (hl : Leaves s o h' h'') : Restarts s f h h''

theorem Restarts.steady (hf : Footing h.disk s files) (ha : Aloof h.disk s)
    (hread : Progress.read h.disk s.progressFile = .ok .fresh) (hmem : f ∈ files) (hb : HasBackup h.disk f)
    (hr : Restarts s f h h') : Steady h.disk s files f h' := by
  induction hr with
  | none => exact .start hf hread
  | run _ ro hread' hl ih => exact ih.of_mem_disks hf ha hmem hb ro hread' hl

/-- A source that has a backup before the first run, and that backup, stay as they are, however often runs are
cut off, if none begins while the progress names the source. -/
theorem stale_backup_untouched (hf : Footing h.disk s files) (ha : Aloof h.disk s)
    (hread : Progress.read h.disk s.progressFile = .ok .fresh) (hmem : f ∈ files)
    (hb : h.disk.file? (backup f) ≠ none) (hr : Restarts s f h h') :
    h'.disk.file? f = h.disk.file? f ∧ h'.disk.file? (backup f) = h.disk.file? (backup f) := by
  have hh := hr.steady hf ha hread hmem (.of_file? hf.tree (hf.copy f hmem) hb)
  have hsame : ∀ q, q = f ∨ q = backup f → NoLink h.disk q → h'.disk.file? q = h.disk.file? q := fun q hq hlink =>
    file?_congr hf.tree hh.turned.tree hh.turned.alike hlink fun dir n hl => hh.same _ ⟨q, dir, n, hq, hl, rfl⟩
  exact ⟨hsame f (.inl rfl) (hf.live f hmem).noLink, hsame _ (.inr rfl) (hf.copy f hmem).noLink⟩

namespace Workshop

/-- The workshop with a backup of the first source that nobody remembers. -/
def stale : Disk :=
  { workshop 0o644 with entries := (["w", "src",
      "a.sweeper-backup.cpp"], .file 0o600 "old\n") :: (workshop 0o644).entries }

theorem footing_stale : Footing (Host.ofDisk stale).disk settings [first, second] :=
  .of_entries (by decide +kernel) (by decide +kernel) (by decide +kernel) rfl (by decide +kernel)

end Workshop

/-- A run that is cut off at the second source, and one that ends, leave the first one and its backup alone. -/
theorem stale_backup_untouched_workshop : ∃ h',
    Restarts settings first (.ofDisk stale) h' ∧
    h'.disk.content? second = some [] ∧
    h'.disk.file? first = (Host.ofDisk stale).disk.file? first ∧
    h'.disk.file? (backup first) = (Host.ofDisk stale).disk.file? (backup first) := by
  have ha : Aloof (Host.ofDisk stale).disk settings :=
    .of_name rfl (by decide +kernel) (by decide +kernel) (by decide +kernel)
  have ro := Oracle.readOnly_looking fun _ => true
  have hcut : Restarts settings first (.ofDisk stale)
      ((Host.ofDisk stale).sweep settings ((Oracle.looking fun _ => true).cutAt 2)).2 :=
    .run .none (ro.cutAt 2) (by decide +kernel) (leaves_sweep ..)
  have hr := Restarts.run hcut ro (by decide +kernel) (leaves_sweep ..)
  exact ⟨_, hr, by decide +kernel, stale_backup_untouched footing_stale ha (by decide +kernel) (by simp) (by decide +kernel) hr⟩

/-- A run that is cut off while the progress names the first source has left it alone, but the next run goes over
it with what the backup holds. -/
theorem stale_backup_taken : ∃ d ∈ (Run.on (Sweep.run settings (.looking fun _ => true))
      (World.start (.ofDisk stale))).2.disks,
    d.file? first = stale.file? first ∧
    d.file? (backup first) = stale.file? (backup first) ∧
    ((Host.ofDisk d).sweep settings (.looking fun _ => true)).2.disk.content? first =
      some (Bytes.ofString "old\n") ∧
    ((Host.ofDisk d).sweep settings (.looking fun _ => true)).2.disk.exists? (backup first) = false ∧
    stale.content? first = some (Bytes.ofString "#include <a>\n#include <b>\nint x;\n") := by
  -- the moment after the first source was named, counted from the end
  refine ⟨_, List.getElem_mem (n := 12) (by decide +kernel), ?_⟩
  decide +kernel

end Prune
