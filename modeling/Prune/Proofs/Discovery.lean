import Prune.Proofs.Runs
import Prune.Proofs.Siblings

/-!
# The search for sources

A walk meets the entries under a root in some order. Along every order the search returns the same list: the sources
as the disk stands, sorted (`Listing`). It takes away temporaries that can be taken away and touches nothing else, and
as artefacts are never listed, disks that differ in artefacts alone have the same list.
-/

namespace Prune

open Disk Artefact

variable {d d' : Disk} {p q root : Path} {l : Location} {extensions : List Bytes} {h : Host}

/-- `p` is how a walk from `root` spells a regular file. -/
def IsFileUnder (d : Disk) (root p : Path) : Prop := ∃ l e, Spells d root p l ∧ d.get? l = some e ∧ e.isFile = true

/-- A temporary under `root` that the system lets go. -/
def IsLitter (d : Disk) (root : Path) (l : Location) : Prop :=
  Litter d root l ∧ ∃ e, d.get? l = some e ∧ e.isFile = true

/-- What a search under `root` returned on the disk `d`, and the disk `d'` it left. -/
structure Searched (d : Disk) (root : Path) (extensions : List Bytes)
    (result : Except Sources.Problem (List Path)) (d' : Disk) : Prop where
  fails_iff : (∃ problem, result = .error problem) ↔
    ¬ Sources.Walkable d root ∨ ∃ p, IsFileUnder d root p ∧ Utf8.isValid p.text = false
  lists : ∀ files, result = .ok files → Sources.Listing d root extensions files
  cwd : d'.cwd = d.cwd
  spares : ∀ l, d'.get? l = d.get? l ∨ IsLitter d root l ∧ d'.get? l = none
  clears : ∀ files, result = .ok files → ∀ l, IsLitter d root l → d'.get? l = none

namespace Sources

theorem clear_perm {found order : List Found} (ho : order.Perm found) : Clear order ↔ Clear found :=
  ⟨fun hc f hf => hc f (ho.mem_iff.2 hf), fun hc f hf => hc f (ho.mem_iff.1 hf)⟩

/-- What keeps the sources from being told. -/
theorem not_clear_iff (hd : Tree d) {found : List Found} (hw : d.walk root = .ok found) :
    ¬ Clear found ↔ ¬ Walkable d root ∨ ∃ p, IsFileUnder d root p ∧ Utf8.isValid p.text = false := by
  rw [← not_iff_not, not_or, not_not, not_not]
  constructor
  · intro hc
    refine ⟨⟨found, hw, fun f hf => (hc f hf).1⟩, ?_⟩
    rintro ⟨p, ⟨l, e, hsp, hg, he⟩, hv⟩
    have hv' := (hc _ (met_of_spells hd hw hc hsp hg he)).2 rfl
    exact Bool.false_ne_true (hv.symm.trans hv')
  · rintro ⟨hwalk, hv⟩
    obtain ⟨found', hw', hc⟩ := hwalk.clear hd fun p l e hsp hg he => by
      by_contra hbad
      exact hv ⟨p, ⟨l, e, hsp, hg, he⟩, by simpa using hbad⟩
    rw [hw] at hw'
    cases hw'
    exact hc

end Sources

open Sources

theorem searched_along (hd : Tree h.disk) {found order : List Found} (hw : h.disk.walk root = .ok found)
    (ho : order.Perm found) (extensions : List Bytes) :
    Searched h.disk root extensions (Work.on (findAlong extensions order) (World.start h)).1
      (Work.on (findAlong extensions order) (World.start h)).2.disk := by
  obtain ⟨es, w, t, hrun, hes, hgone⟩ :=
    findAlong_deeds hd hw ho extensions (Trail.start (fun _ _ h => ⟨h, none, []⟩) hd)
  have hview : w.disk.get? = after h.disk.get? es := t.now.view
  rw [hrun]
  have hfails : (∃ problem, (sifted extensions order).map (sortBy Path.le) = .error problem) ↔ ¬ Clear found := by
    rw [← clear_perm ho]
    constructor
    · rintro ⟨problem, hp⟩ hc
      rw [sifted_of_clear hc] at hp
      cases hp
    · intro hc
      cases hs : sifted extensions order with
      | error problem => exact ⟨problem, rfl⟩
      | ok files => exact absurd (clear_of_sifted hs) hc
  refine ⟨hfails.trans (not_clear_iff hd hw), fun files hfiles => ?_, t.now.alike.cwd, fun l => ?_,
    fun files hfiles l hl => ?_⟩
  · have hc : Clear found := by
      by_contra hc
      obtain ⟨problem, hp⟩ := hfails.2 hc
      cases hp.symm.trans hfiles
    rw [sifted_of_clear ((clear_perm ho).2 hc)] at hfiles
    cases hfiles
    exact listing_of_clear hd hw hc ho
  · rw [hview]
    by_cases hl : ∃ e ∈ es, e = .erase l
    · obtain ⟨_, he, rfl⟩ := hl
      obtain ⟨_, e', heq, hlit, hg, hf⟩ := hes _ he
      cases heq
      have herase : ∀ e ∈ es, ∃ k, e = .erase k := fun e he => by
        obtain ⟨k, -, rfl, -⟩ := hes e he
        exact ⟨k, rfl⟩
      exact (after_of_erases h.disk.get? herase l).imp_right fun hv => ⟨⟨hlit, e', hg, hf⟩, hv⟩
    · refine .inl (after_of_forall (fun e he hloc => hl ⟨e, he, ?_⟩) _)
      obtain ⟨k, -, rfl, -⟩ := hes e he
      rw [Option.some.inj hloc]
  · obtain ⟨hlit, e, hg, hf⟩ := hl
    cases hs : sifted extensions order with
    | error problem => rw [hs] at hfiles; cases hfiles
    | ok fs => exact (congrFun hview l).trans (hgone fs hs l e hlit hg hf)

theorem searched_of_error {f : Fault} (hw : h.disk.walk root = .error f) :
    Searched h.disk root extensions (Work.on (find root extensions) (World.start h)).1
      (Work.on (find root extensions) (World.start h)).2.disk := by
  have hfind : Work.on (find root extensions) (World.start h) = (.error (.walk root f), World.start h) := by
    rw [on_find, show (World.start h).disk.walk root = .error f from hw]
  rw [hfind]
  have hwalk : ¬ Walkable h.disk root := by
    rintro ⟨found, hw', -⟩
    cases hw.symm.trans hw'
  exact ⟨⟨fun _ => .inl hwalk, fun _ => ⟨_, rfl⟩⟩, fun files hfiles => (by cases hfiles), rfl, fun l => .inl rfl,
    fun files hfiles => (by cases hfiles)⟩

theorem Searched.ok_of_ok {d₁ d₂ : Disk} {r r' : Except Problem (List Path)} {files : List Path}
    (hs : Searched d root extensions r d₁) (hs' : Searched d root extensions r' d₂) (hr : r = .ok files) :
    r' = .ok files := by
  cases hr' : r' with
  | error problem =>
    obtain ⟨_, h'⟩ := hs.fails_iff.2 (hs'.fails_iff.1 ⟨problem, hr'⟩)
    cases h'.symm.trans hr
  | ok files' => rw [(hs.lists _ hr).unique (hs'.lists _ hr') fun _ _ => Iff.rfl]

/-! ### Artefacts make no difference -/

/-- `p` is where something is kept for the file `q`: its backup, its trial copy or a temporary. -/
def KeptFor (p q : Path) : Prop :=
  p.same (backup q) = true ∨ p.same (trial q) = true ∨
    ∃ dir s, q.parent? = some dir ∧ Path.slash ∉ s ∧ p.same (dir.join (temporaryStart q ++ s)) = true

theorem Path.fileName?_of_same (h : p.same q = true) : p.fileName? = q.fileName? := by
  simp only [Path.same, beq_iff_eq] at h
  rw [Path.fileName?, Path.fileName?, h]

theorem KeptFor.not_isListed (hq : q.fileName? ≠ none) (hk : KeptFor p q) : isListed extensions p = false := by
  obtain ⟨n, hn⟩ := Option.ne_none_iff_exists'.1 hq
  rcases hk with hs | hs | ⟨dir, s, hdir, hslash, hs⟩
  · obtain ⟨_, -, -, -, -, hb⟩ := exists_marked isMark_backup hn
    have hp : isArtefact p = true := (isArtefact_congr (Path.fileName?_of_same hs)).trans (isArtefact_backup hb)
    simp [isListed, isSource, hp]
  · obtain ⟨_, -, -, -, -, hb⟩ := exists_marked isMark_trial hn
    have hp : isArtefact p = true := (isArtefact_congr (Path.fileName?_of_same hs)).trans (isArtefact_trial hb)
    simp [isListed, isSource, hp]
  · obtain ⟨dir', hdir', ht⟩ := isTemporary_join hn hslash
    rw [hdir] at hdir'
    cases hdir'
    rw [isTemporary, ← Path.fileName?_of_same hs] at ht
    simp [isListed, isTemporary, ht]

/-- The disks differ at most in files, and under `root` at most in what is kept for files. -/
structure SameButKept (d d' : Disk) (root : Path) : Prop where
  cwd : d'.cwd = d.cwd
  bone : ∀ l, bone (d'.get? l) = bone (d.get? l)
  kept : ∀ p l, Spells d root p l → d'.get? l ≠ d.get? l → ∃ q, q.fileName? ≠ none ∧ KeptFor p q

theorem SameButKept.alike (hs : SameButKept d d' root) : Alike d d' := ⟨hs.cwd, hs.bone⟩

theorem SameButKept.files_eq (hs : SameButKept d d' root) (hd : Tree d) (hd' : Tree d') {files files' : List Path}
    (hf : Listing d root extensions files) (hf' : Listing d' root extensions files') : files' = files := by
  have hsame : ∀ p, isListed extensions p = true → ∀ l, Spells d root p l → d'.get? l = d.get? l := by
    intro p hp l hsp
    by_contra hne
    obtain ⟨q, hq, hk⟩ := hs.kept p l hsp hne
    rw [hk.not_isListed hq] at hp
    cases hp
  refine (hf.unique hf' fun p hp => ⟨?_, ?_⟩).symm
  · rintro ⟨l, e, hsp, hg, he⟩
    exact ⟨l, e, hsp.alike hs.alike hd hd', (hsame p hp l hsp).trans hg, he⟩
  · rintro ⟨l, e, hsp, hg, he⟩
    have hsp := hsp.alike hs.alike.symm hd' hd
    exact ⟨l, e, hsp, (hsame p hp l hsp).symm.trans hg, he⟩

/-- The search for sources is a sorted filter that the order of the walk does not change, that takes away temporaries
and nothing else, and to which artefacts make no difference. -/
theorem search_sorted_and_artefact_blind (h : Host) (hd : Tree h.disk) (root : Path) (extensions : List Bytes) :
    Searched h.disk root extensions (Work.on (find root extensions) (World.start h)).1
      (Work.on (find root extensions) (World.start h)).2.disk ∧
    (∀ found order, h.disk.walk root = .ok found → order.Perm found →
      Searched h.disk root extensions (Work.on (findAlong extensions order) (World.start h)).1
        (Work.on (findAlong extensions order) (World.start h)).2.disk ∧
      ∀ files, (Work.on (findAlong extensions order) (World.start h)).1 = .ok files ↔
        (Work.on (find root extensions) (World.start h)).1 = .ok files) ∧
    ∀ (h' : Host) (base : Location) (mode : Nat) (files : List Path), Tree h'.disk →
      h.disk.resolve false root = .ok (.entry base (.dir mode)) → SameButKept h.disk h'.disk root →
      (Work.on (find root extensions) (World.start h)).1 = .ok files →
      (Work.on (find root extensions) (World.start h')).1 = .ok files ∨
        ∃ p, IsFileUnder h'.disk root p ∧ Utf8.isValid p.text = false := by
  have hfind : ∀ h' : Host, Tree h'.disk →
      Searched h'.disk root extensions (Work.on (find root extensions) (World.start h')).1
        (Work.on (find root extensions) (World.start h')).2.disk := by
    intro h' hd'
    cases hw : h'.disk.walk root with
    | error f => exact searched_of_error hw
    | ok found =>
      rw [on_find, show (World.start h').disk.walk root = .ok found from hw]
      exact searched_along hd' hw (.refl found) extensions
  refine ⟨hfind h hd, fun found order hw ho => ?_, fun h' base mode files hd' hroot hs hfiles => ?_⟩
  · have hs := searched_along hd hw ho extensions
    exact ⟨hs, fun files => ⟨hs.ok_of_ok (hfind h hd), (hfind h hd).ok_of_ok hs⟩⟩
  · have hf := hfind h hd
    have hf' := hfind h' hd'
    cases hr : (Work.on (find root extensions) (World.start h')).1 with
    | ok files' => exact .inl (congrArg Except.ok (hs.files_eq hd hd' (hf.lists _ hfiles) (hf'.lists _ hr)))
    | error problem =>
      refine .inr ((hf'.fails_iff.1 ⟨problem, hr⟩).resolve_left (not_not.2 ?_))
      have hwalk : Walkable h.disk root := by
        by_contra hwalk
        obtain ⟨_, h'⟩ := hf.fails_iff.2 (.inl hwalk)
        cases h'.symm.trans hfiles
      exact hwalk.alike hd hd' hs.alike (resolve_dir_of_false hroot)

namespace Nested

/-- Sources with a backup and a temporary beside them, and a directory that must not be altered. -/
def disk : Disk where
  entries := [(names "w", .dir 0o755),
    (names "w/src", .dir 0o755),
    (names "w/src/.sweeper-tmp-a.cpp.9q", .file 0o600 []),
    (names "w/src/a.cpp", .file 0o644 "int x;\n"),
    (names "w/src/a.sweeper-backup.cpp", .file 0o600 "#include <a>\nint x;\n"),
    (names "w/src/a", .dir 0o555),
    (names "w/src/a/y.CPP", .file 0o644 []),
    (names "w/src/a/.sweeper-tmp-y.CPP.9q", .file 0o600 [])]
  cwd := names "w"

def src : Path := .ofString "src"

def endings : List Bytes := ["Cpp"]

/-- Directories are compared before names. -/
def files : List Path := [.ofString "src/a/y.CPP", .ofString "src/a.cpp"]

def copy : Location := names "w/src" ++ [Bytes.ofString "a.sweeper-backup.cpp"]

theorem tree : Tree disk := tree_of_entries (by decide +kernel)

theorem spells (ns : List Bytes) (hne : ns ≠ []) (hn : ∀ n ∈ ns, IsName n) :
    Spells disk src (spelled src ns) (names "w/src" ++ ns) :=
  .below (show disk.resolve true src = .ok (.entry _ (.dir 0o755)) by decide +kernel) hne hn

theorem sameButKept_erase : SameButKept disk (disk.erase copy) src := by
  have hsp : Spells disk src (.ofString "src/a.sweeper-backup.cpp") copy :=
    spells ["a.sweeper-backup.cpp"] (by decide) (by decide)
  refine ⟨rfl, (alike_erase (by decide) (by decide)).bone, fun p l hp hne => ?_⟩
  have hl : l = copy := by
    by_contra hl
    exact hne (by rw [get?_erase (by decide), if_neg hl])
  rw [hp.path_unique hsp (.inl hl)]
  exact ⟨.ofString "src/a.cpp", by decide, .inl (by decide)⟩

/-- The temporary in the directory that must not be altered. -/
def stuck : Location := names "w/src/a/.sweeper-tmp-y.CPP.9q"

end Nested

/-- Every order of the walk gives the same list, with and without the backup. -/
theorem search_sorted_and_artefact_blind_nested :
    (∀ found order, Nested.disk.walk Nested.src = .ok found → order.Perm found →
      (Work.on (findAlong Nested.endings order) (World.start (.ofDisk Nested.disk))).1 = .ok Nested.files) ∧
    (Work.on (find Nested.src Nested.endings) (World.start (.ofDisk (Nested.disk.erase Nested.copy)))).1 =
      .ok Nested.files := by
  have hfind : (Work.on (find Nested.src Nested.endings) (World.start (.ofDisk Nested.disk))).1 =
      .ok Nested.files := by decide +kernel
  obtain ⟨-, horder, hblind⟩ :=
    search_sorted_and_artefact_blind (.ofDisk Nested.disk) Nested.tree Nested.src Nested.endings
  refine ⟨fun found order hw ho => ((horder found order hw ho).2 _).2 hfind, ?_⟩
  have hd' : Tree (Nested.disk.erase Nested.copy) :=
    tree_of_entries (by decide +kernel)
  refine (hblind (.ofDisk (Nested.disk.erase Nested.copy)) (names "w/src") 0o755 _ hd'
    (by decide +kernel) Nested.sameButKept_erase hfind).resolve_right fun hbad => ?_
  -- without the backup the search does not fail either
  obtain ⟨hs, -⟩ :=
    search_sorted_and_artefact_blind (.ofDisk (Nested.disk.erase Nested.copy)) hd' Nested.src Nested.endings
  obtain ⟨problem, hp⟩ := hs.fails_iff.2 (.inr hbad)
  have hok : (Work.on (find Nested.src Nested.endings)
      (World.start (.ofDisk (Nested.disk.erase Nested.copy)))).1.isOk = true := by decide +kernel
  rw [hp] at hok
  cases hok

/-- A search that comes to its end leaves a temporary in a directory that must not be altered. -/
theorem temporary_stays_in_closed_directory :
    (Work.on (find Nested.src Nested.endings) (World.start (.ofDisk Nested.disk))).1 = .ok Nested.files ∧
    Spells Nested.disk Nested.src (.ofString "src/a/.sweeper-tmp-y.CPP.9q") Nested.stuck ∧
    isTemporary (.ofString "src/a/.sweeper-tmp-y.CPP.9q") = true ∧
    (Work.on (find Nested.src Nested.endings) (World.start (.ofDisk Nested.disk))).2.disk.get? Nested.stuck =
      some (.file 0o600 []) :=
  ⟨by decide +kernel,
    Nested.spells ["a", ".sweeper-tmp-y.CPP.9q"] (by decide) (by decide),
    by decide, by decide +kernel⟩

end Prune
