import Mathlib.Data.List.Nodup
import Mathlib.Data.List.Perm.Subperm
import Mathlib.Logic.Function.Basic
import Prune.Disk.Replace
import Prune.Proofs.Marks
import Prune.Proofs.Twins

/-!
# What the changes of a sweep do to a disk

`Turned d v d'` says that `d'` is `d` with the view `v`: the same directories and links, and what is
at a location may have changed. Replacing a file and removing one turn a disk at one location, copying
one at all the names of the file that is copied to, and they leave it as it is when they fail. Whether a
file can be replaced or removed depends on directories and links only (`Writable`, `Removable`), so it
stays the same all through a sweep.
-/

namespace Prune.Disk

open Artefact Function

variable {d d' d'' : Disk} {p : Path} {l dir : Location} {n t : Bytes}

/-- What stands at each location. -/
abbrev View := Location → Option Entry

/-- `d'` is what became of `d`, and its view is `v`. -/
structure Turned (d : Disk) (v : View) (d' : Disk) : Prop where
  view : d'.get? = v
  tree : Tree d'
  alike : Alike d d'
  sharing : Sharing d d'
  tied : Tied d → Tied d'

theorem Turned.refl (hd : Tree d) : Turned d d.get? d := ⟨rfl, hd, .refl d, .of_eq rfl, id⟩

theorem Turned.trans {v v' : View} (h : Turned d v d') (h' : Turned d' v' d'') : Turned d v' d'' :=
  ⟨h'.view, h'.tree, h.alike.trans h'.alike, h.sharing.trans h'.sharing, h'.tied ∘ h.tied⟩

theorem turned_of_entries (hd : Tree d) (he : d'.entries = d.entries) (hc : d'.cwd = d.cwd)
    (hs : Sharing d d') : Turned d d.get? d' := by
  have hview : d'.get? = d.get? := by funext k; simp [get?, he]
  exact ⟨hview, hd.congr he hc, .of_get? hc fun k => by rw [hview], hs, fun ht =>
    ht.of_sharing hs fun x _ => .inl (by rw [hview])⟩

/-- A file that came to a place where one can be. -/
theorem turned_put (hd : Tree d) (hs : Site d l) {mode : Nat} {content : Bytes}
    (hent : d'.entries = (d.put l (.file mode content)).entries) (hcwd : d'.cwd = d.cwd) (hsh : Sharing d d') :
    Turned d (update d.get? l (some (.file mode content))) d' := by
  obtain ⟨dir, n, rfl, hdir, hn, hb⟩ := hs
  have hl : dir ++ [n] ≠ [] := by simp
  have hput : d'.get? = (d.put (dir ++ [n]) (.file mode content)).get? := by funext k; simp [get?, hent]
  have hview : d'.get? = update d.get? (dir ++ [n]) (some (.file mode content)) := by
    funext k
    rw [hput, get?_put hl, update_apply]
  refine ⟨hview, (hd.put hdir hn (fun h => bone_ne_none_of_isDir h hb) _).congr hent hcwd, ?_, hsh, fun ht =>
    ht.of_sharing hsh fun x _ => ?_⟩
  · exact (alike_put hl hb rfl).trans (.of_get? hcwd fun k => by rw [hput])
  · rw [hview, update_apply]
    split
    · exact .inr ⟨mode, content, rfl⟩
    · exact .inl rfl

theorem turned_erase (hd : Tree d) (hl : l ≠ []) (hb : bone (d.get? l) = none)
    (hent : d'.entries = (d.erase l).entries) (hcwd : d'.cwd = d.cwd) (hsh : d'.shared = (d.erase l).shared) :
    Turned d (update d.get? l none) d' := by
  have hs : Sharing d d' := (sharing_erase d l).trans (.of_eq hsh)
  have herase : d'.get? = (d.erase l).get? := by funext k; simp [get?, hent]
  have hview : d'.get? = update d.get? l none := by
    funext k
    rw [herase, get?_erase hl, update_apply]
  refine ⟨hview, (hd.erase hl fun h => bone_ne_none_of_isDir h hb).congr hent hcwd, ?_, hs, fun ht =>
    ht.of_sharing hs fun x hx => .inl ?_⟩
  · exact (alike_erase hl hb).trans (.of_get? hcwd fun k => by rw [herase])
  · rw [hsh] at hx
    rw [hview, update_of_ne (by simpa [erase] using (List.mem_filter.1 hx).2)]

/-! ### Names beside a name -/

theorem checkText_eq_ok_iff {text : Bytes} :
    checkText text = .ok () ↔ 0 ∉ text ∧ text ≠ [] ∧ text.length < maxPath := by
  by_cases h0 : 0 ∈ text
  · simp [checkText, h0]
  by_cases he : text = []
  · simp [checkText, he]
  by_cases hl : maxPath ≤ text.length
  · simp [checkText, h0, he, hl]
  · simp [checkText, h0, he, hl, Nat.not_le.1 hl]

theorem head?_ne_slash (hn : IsName n) : n.head? ≠ some Path.slash := fun h => hn.slash (List.mem_of_mem_head? h)

theorem names_of_isName (hn : IsName n) : names n = [n] := names_of_notMem hn.slash hn.ne_nil

theorem endsInSlash_join (q : Path) (hn : IsName n) : endsInSlash (q.join n) = false := by
  simp only [endsInSlash, beq_eq_false_iff_ne, ne_eq]
  rw [Path.getLast?_join q hn.ne_nil (head?_ne_slash hn)]
  exact fun h => hn.slash (List.mem_of_getLast? h)

theorem Leads.parent (h : Leads d p dir n) :
    ∃ q, p.parent? = some q ∧ Path.Trim q ∧ (q.text = [] → d.cwd = dir) ∧
      ∃ k, Walks d maxLinks (origin d.cwd q.text) (names q.text) k dir := by
  obtain ⟨xs, k, hx, hw⟩ := h.walks
  obtain ⟨-, q, dots, hq, ht, rfl, hdots, ho⟩ := Path.exists_parent hx h.name
  rw [← ho] at hw
  obtain ⟨j, m, hm, hw⟩ := hw.split
  obtain ⟨-, rfl⟩ := hw.eq_of_dots hdots
  refine ⟨q, hq, ht, fun h0 => ?_, j, hm⟩
  rw [h0, names_nil] at hm
  cases hm
  simp [origin]

theorem Leads.names_beside (h : Leads d p dir n) (ht : IsName t) {q : Path} (hq : p.parent? = some q) :
    Names d (q.join t) dir t := by
  obtain ⟨q', hq', -, -, k, hw⟩ := h.parent
  obtain rfl : q = q' := Option.some.inj (hq.symm.trans hq')
  have hh := head?_ne_slash ht
  exact ⟨names q.text, k, by rw [Path.names_join q hh, names_of_isName ht], by rwa [Path.origin_join _ q hh]⟩

theorem Leads.names_directory (h : Leads d p dir n) (ht : IsName t) :
    Names d (p.directory.join t) dir t := by
  obtain ⟨q, hq, -, h0, k, hw⟩ := h.parent
  by_cases he : q.isEmpty = true
  · have hcwd := h0 (by simpa [Path.isEmpty] using he)
    have hh := head?_ne_slash ht
    simp only [Path.directory, hq, he, ↓reduceIte]
    refine ⟨[[Path.dot]], maxLinks, ?_, ?_⟩
    · rw [Path.names_join _ hh, names_of_isName ht]; rfl
    · rw [Path.origin_join _ _ hh]
      simp only [origin, List.head?_cons, Option.some.injEq, show Path.dot ≠ Path.slash by decide, ↓reduceIte, hcwd]
      exact .dot h.enter (.nil ..)
  · simp only [Path.directory, hq, he, Bool.false_eq_true, ↓reduceIte]
    exact h.names_beside ht hq

theorem Names.leads (h : Names d p dir n) (he : d.mayEnter dir = true) (hn : IsName n)
    (ht : checkText p.text = .ok ()) (hl : n.length ≤ maxName) : Leads d p dir n := ⟨ht, hn, hl, he, h⟩

theorem Names.of_resolve (h : Names d p dir n) (hn : IsName n) (hs : endsInSlash p = false) {place : Place}
    (hr : d.resolve false p = .ok place) :
    checkText p.text = .ok () ∧ n.length ≤ maxName ∧ place.location = dir ++ [n] := by
  obtain ⟨xs, k, hx, hw⟩ := h
  have hsteps : steps p.text = xs ++ [n] := by
    have : p.text.getLast? ≠ some Path.slash := by simpa [endsInSlash] using hs
    simp [steps, this, hx]
  cases ht : checkText p.text with
  | error f => simp [resolve, ht, bind, Except.bind] at hr
  | ok u =>
    simp only [resolve, ht, bind, Except.bind, hsteps] at hr
    rw [hw.walkSteps_append (.inr (by simp)), walkSteps_cons] at hr
    split at hr
    · cases hr
    rw [if_neg hn.ne_dot, if_neg hn.ne_dots] at hr
    split at hr
    · cases hr
    next hlen =>
    refine ⟨rfl, Nat.not_lt.1 hlen, ?_⟩
    split at hr
    · cases hr; rfl
    · rw [walkSteps_nil] at hr; cases hr; rfl
    · cases hr; rfl
    · cases hr; rfl

/-! ### A free name -/

theorem suffix_injective : Function.Injective suffix := by
  intro a b h
  have hlen := congrArg List.length h
  simp only [suffix, List.length_append, List.length_map, List.length_cons, List.length_nil,
    List.length_replicate] at hlen
  have hdig := (List.append_inj h (by simp)).1
  have digit : ∀ u : Nat, UInt8.ofNat (0x30 + a / u % 10) = UInt8.ofNat (0x30 + b / u % 10) →
      a / u % 10 = b / u % 10 := by
    intro u hu
    have := congrArg UInt8.toNat hu
    simp only [UInt8.toNat_ofNat'] at this
    omega
  simp only [List.map_cons, List.map_nil, List.cons.injEq, and_true] at hdig
  obtain ⟨h1, h2, h3, h4, h5, h6⟩ := hdig
  have := digit _ h1
  have := digit _ h2
  have := digit _ h3
  have := digit _ h4
  have := digit _ h5
  have := digit _ h6
  omega

/-- The search stops at a free name, or has seen that many taken ones. -/
theorem freeName_eq (d : Disk) (home : Location) (start : Bytes) (tries i : Nat) :
    ∃ j, i ≤ j ∧ d.freeName home start tries i = start ++ suffix j ∧
      (d.get? (home ++ [start ++ suffix j]) = none ∨ j = i + tries) ∧
      ∀ m, i ≤ m → m < j → d.get? (home ++ [start ++ suffix m]) ≠ none := by
  induction tries generalizing i with
  | zero => exact ⟨i, le_rfl, rfl, .inr rfl, fun m h1 h2 => absurd h1 (Nat.not_le.2 h2)⟩
  | succ tries ih =>
    rw [freeName]
    split
    · next h => exact ⟨i, le_rfl, rfl, .inl (by simpa using h), fun m h1 h2 => absurd h1 (Nat.not_le.2 h2)⟩
    · next h =>
      obtain ⟨j, hj, he, hfree, hm⟩ := ih (i + 1)
      refine ⟨j, by omega, he, hfree.imp_right fun h => by omega, fun m h1 h2 => ?_⟩
      rcases Nat.eq_or_lt_of_le h1 with rfl | h1
      · simpa using h
      · exact hm m h1 h2

theorem get?_freeName (d : Disk) (home : Location) (start : Bytes) :
    d.get? (home ++ [d.freeName home start d.entries.length 0]) = none := by
  obtain ⟨j, -, he, hfree, hm⟩ := freeName_eq d home start d.entries.length 0
  rw [he]
  rcases hfree with h | hj
  · exact h
  by_contra hne
  -- all the names up to this one are taken, by one entry each
  let taken := (List.range (j + 1)).map fun i => home ++ [start ++ suffix i]
  have hnodup : taken.Nodup := by
    refine List.Nodup.map (fun a b hab => ?_) List.nodup_range
    simp only [List.append_cancel_left_eq, List.cons.injEq, and_true] at hab
    exact suffix_injective hab
  have hsub : taken ⊆ d.entries.map (·.1) := by
    intro k hk
    obtain ⟨i, hi, rfl⟩ := List.mem_map.1 hk
    have htaken : d.get? (home ++ [start ++ suffix i]) ≠ none := by
      rcases Nat.eq_or_lt_of_le (Nat.lt_succ_iff.1 (List.mem_range.1 hi)) with rfl | h
      · exact hne
      · exact hm i (Nat.zero_le _) h
    by_contra hk
    exact htaken (by rw [get?, if_neg (by simp)]; exact find?_eq_none_iff.2 hk)
  have := (List.subperm_of_subset hnodup hsub).length_le
  simp [taken] at this
  omega

/-! ### Replacing -/

/-- No link stands where `p` leads. -/
def NoLink (d : Disk) (p : Path) : Prop :=
  ∀ dir n, Leads d p dir n → ∀ target, d.get? (dir ++ [n]) ≠ some (.link target)

theorem NoLink.alike (hd : Alike d d') (h : NoLink d p) : NoLink d' p := fun dir n hl target =>
  fun hg => h dir n (hl.alike hd.symm) target (hd.link_iff.1 hg)

/-- There are no links. -/
def LinkFree (d : Disk) : Prop := ∀ l target, d.get? l ≠ some (.link target)

theorem LinkFree.noLink (h : LinkFree d) (p : Path) : NoLink d p := fun dir n _ => h (dir ++ [n])

theorem LinkFree.turned {v : View} (h : LinkFree d) (ht : Turned d v d') : LinkFree d' :=
  fun l target hg => h l target (ht.alike.link_iff.1 hg)

/-- The name of a temporary before its end is chosen. -/
def template (p : Path) : Bytes := temporaryStart p ++ openSuffix

/-- What `p` leads to can be replaced by a file, if its bits can be told. -/
structure Replaceable (d : Disk) (p : Path) (dir : Location) (n : Bytes) : Prop where
  leads : Leads d p dir n
  slash : endsInSlash p = false
  leaf : ¬ d.IsDir (dir ++ [n])
  text : checkText (p.directory.join (template p)).text = .ok ()
  short : (template p).length ≤ maxName
  alter : d.mayAlter dir = true

/-- The file that `p` leads to can be replaced, or made if there is none. -/
structure Writable (d : Disk) (p : Path) (dir : Location) (n : Bytes) : Prop where
  leads : Leads d p dir n
  slash : endsInSlash p = false
  leaf : bone (d.get? (dir ++ [n])) = none
  text : checkText (p.directory.join (template p)).text = .ok ()
  short : (template p).length ≤ maxName
  alter : d.mayAlter dir = true

def inherit : Option Entry → Nat
  | some (.file mode _) => mode
  | _ => privateMode

theorem Writable.alike (hd : Alike d d') (h : Writable d p dir n) : Writable d' p dir n :=
  ⟨h.leads.alike hd, h.slash, (hd.bone _).trans h.leaf, h.text, h.short, (hd.mayAlter _).trans h.alter⟩

theorem Writable.site (h : Writable d p dir n) : Site d (dir ++ [n]) :=
  ⟨dir, n, rfl, h.leads.isDir, h.leads.name, h.leaf⟩

theorem Writable.replaceable (h : Writable d p dir n) : Replaceable d p dir n :=
  ⟨h.leads, h.slash, fun hdir => bone_ne_none_of_isDir hdir h.leaf, h.text, h.short, h.alter⟩

theorem isName_of_length {s : Bytes} (hs : Path.slash ∉ s) (hl : 2 < s.length) : IsName s := by
  refine ⟨?_, hs, ?_, ?_⟩ <;> (rintro rfl; simp at hl)

theorem isName_template (h : Leads d p dir n) : IsName (template p) := by
  refine isName_of_length ?_ ?_
  · simp only [template, temporaryStart, h.fileName?, Option.getD_some, List.mem_append, not_or]
    exact ⟨⟨⟨by decide, h.name.slash⟩, by decide⟩, by decide⟩
  · have : 2 < temporaryMark.length := by decide
    simp only [template, temporaryStart, List.length_append]
    omega

theorem temporaryStart_append_ne (h : Leads d p dir n) (s : Bytes) : temporaryStart p ++ s ≠ n := by
  intro he
  have := congrArg List.length he
  have : 2 < temporaryMark.length := by decide
  simp only [temporaryStart, h.fileName?, Option.getD_some, List.length_append] at *
  omega

theorem put_put_entries (d : Disk) (l : Location) (e e' : Entry) :
    ((d.put l e).put l e').entries = (d.put l e').entries := by
  simp [put, erase, List.filter_filter]

theorem erase_put_entries (hl : l ≠ []) (h : d.get? l = none) (e : Entry) :
    ((d.put l e).erase l).entries = d.entries := by
  rw [get?, if_neg hl, find?_eq_none_iff] at h
  have : d.entries.filter (fun x => !decide (x.1 = l)) = d.entries := by
    refine List.filter_eq_self.2 fun x hx => ?_
    simpa using fun hk => h (List.mem_map.2 ⟨x, hx, hk⟩)
  simp [put, erase, this]

/-- `ready` is `d` with a temporary at a free location. -/
structure Prepared (d : Disk) (loc : Location) (e : Entry) (ready : Disk) : Prop where
  get? : ∀ k, ready.get? k = if k = loc then some e else d.get? k
  alike : Alike d ready
  cwd : ready.cwd = d.cwd
  erased : (ready.erase loc).entries = d.entries
  shared : ready.shared = d.shared
  held : ready.held = d.held

theorem prepared_put {loc : Location} {e : Entry} {ready : Disk} (hne : loc ≠ []) (hfree : d.get? loc = none)
    (he : bone (some e) = none) (hent : ready.entries = (d.put loc e).entries) (hcwd : ready.cwd = d.cwd)
    (hshared : ready.shared = d.shared) (hheld : ready.held = d.held) : Prepared d loc e ready := by
  have hget : ∀ k, ready.get? k = (d.put loc e).get? k := fun k => by simp [get?, hent]
  refine ⟨fun k => (hget k).trans (get?_put hne e k), ?_, hcwd, ?_, hshared, hheld⟩
  · exact (alike_put hne (by rw [hfree]; rfl) he).trans (.of_get? hcwd hget)
  · rw [← erase_put_entries hne hfree e]
    simp [erase, hent]

/-- The temporary gets its content and its bits, and is renamed then. -/
theorem replace_eq {mode? : Option Nat} {loc : Location} (hm : d.inheritedMode p = .ok mode?)
    (ht : d.temporary p.directory (temporaryStart p) = .ok loc) (hne : loc ≠ []) (hfree : d.get? loc = none)
    (content : Bytes) :
    ∃ ready : Disk, Prepared d loc (.file (mode?.getD privateMode) content) ready ∧
      d.replace p content = match ready.renameOver loc p with
        | .ok done => (.ok (), done)
        | .error f => (.error f, ready.erase loc) := by
  unfold replace
  simp only [hm, ht]
  cases mode? with
  | none => exact ⟨_, prepared_put hne hfree rfl (put_put_entries ..) rfl rfl rfl, rfl⟩
  | some mode =>
    exact ⟨_, prepared_put hne hfree rfl ((put_put_entries ..).trans (put_put_entries ..)) rfl rfl rfl, rfl⟩

theorem temporary_ok {dir' : Path} {start : Bytes} {loc : Location} (h : d.temporary dir' start = .ok loc) :
    ∃ place, d.resolve false (dir'.join (start ++ openSuffix)) = .ok place ∧
      d.mayAlter place.location.dropLast = true ∧ d.get? loc = none ∧
      ∃ s, loc = place.location.dropLast ++ [start ++ s] := by
  simp only [temporary] at h
  split at h
  · cases h
  next place hr =>
  split at h
  · next ha =>
    cases h
    obtain ⟨j, -, he, -⟩ := freeName_eq d place.location.dropLast start d.entries.length 0
    exact ⟨place, hr, ha, get?_freeName .., suffix j, by rw [he]⟩
  · cases h

theorem temporary_of_replaceable (h : Replaceable d p dir n) :
    d.temporary p.directory (temporaryStart p) =
      .ok (dir ++ [d.freeName dir (temporaryStart p) d.entries.length 0]) := by
  have hn := isName_template h.leads
  have hl : Leads d (p.directory.join (template p)) dir (template p) :=
    (h.leads.names_directory hn).leads h.leads.enter hn h.text h.short
  have hs := endsInSlash_join p.directory hn
  obtain ⟨place, hr⟩ : ∃ place, d.resolve false (p.directory.join (template p)) = .ok place := by
    cases hg : d.get? (dir ++ [template p]) with
    | none => exact ⟨_, hl.resolve_vacant hs hg⟩
    | some e =>
      by_cases he : ∃ target, e = .link target
      · obtain ⟨target, rfl⟩ := he
        obtain ⟨k, hk⟩ := hl.resolve_eq hs false
        refine ⟨.entry (dir ++ [template p]) (.link target), ?_⟩
        rw [hk, walkSteps_cons]
        simp [hl.enter, hl.name.ne_dot, hl.name.ne_dots, Nat.not_lt.2 hl.short, hg]
      · exact ⟨_, hl.resolve_entry hs hg fun target ht => he ⟨target, ht⟩⟩
  have hloc := (h.leads.names_directory hn).of_resolve hn hs hr
  have hhome : place.location.dropLast = dir := by rw [hloc.2.2, List.dropLast_concat]
  unfold template at hr
  simp only [temporary, hr, hhome, h.alter, ↓reduceIte]

theorem inheritedMode_eq (h : Leads d p dir n) (hs : endsInSlash p = false)
    (hb : bone (d.get? (dir ++ [n])) = none) :
    ∃ mode?, d.inheritedMode p = .ok mode? ∧ mode?.getD privateMode = inherit (d.get? (dir ++ [n])) := by
  unfold inheritedMode
  cases hg : d.get? (dir ++ [n]) with
  | none => exact ⟨none, by rw [h.stat_none hs hg], rfl⟩
  | some e =>
    rw [hg] at hb
    cases e with
    | file mode content => exact ⟨some mode, by rw [h.stat_some hs hg (by simp)], rfl⟩
    | special what => exact ⟨none, by rw [h.stat_some hs hg (by simp)], rfl⟩
    | dir mode | link target => cases hb

/-- `d'` is `d` with a file that came to `l` by a rename. -/
structure Wrote (d : Disk) (l : Location) (e : Entry) (d' : Disk) : Prop where
  entries : d'.entries = (d.put l e).entries
  cwd : d'.cwd = d.cwd
  sharing : Sharing d d'

/-- What can be replaced is replaced, also a link, and nothing else changes. -/
theorem replace_of_replaceable (h : Replaceable d p dir n) {mode? : Option Nat} (hm : d.inheritedMode p = .ok mode?)
    (content : Bytes) : ∃ d', d.replace p content = (.ok (), d') ∧
      Wrote d (dir ++ [n]) (.file (mode?.getD privateMode) content) d' := by
  have ht := temporary_of_replaceable h
  have hfree := get?_freeName d dir (temporaryStart p)
  obtain ⟨j, -, hj, -⟩ := freeName_eq d dir (temporaryStart p) d.entries.length 0
  rw [hj] at ht hfree
  set loc := dir ++ [temporaryStart p ++ suffix j] with hloc
  have hne : loc ≠ [] := by simp [hloc]
  obtain ⟨ready, hready, hrep⟩ := replace_eq hm ht hne hfree content
  set e : Entry := .file (mode?.getD privateMode) content
  have hnew : dir ++ [n] ≠ loc := by simpa [hloc] using (temporaryStart_append_ne h.leads (suffix j)).symm
  -- the rename
  have hdone : ready.renameOver loc p =
      .ok ((((ready.release (dir ++ [n])).erase loc).put (dir ++ [n]) e).noteNew (dir ++ [n])) := by
    unfold renameOver
    rw [(h.leads.alike hready.alike).locate]
    simp only [bind, Except.bind, h.slash, Bool.false_eq_true, ↓reduceIte, hready.get?, hnew]
    cases hg : d.get? (dir ++ [n]) with
    | none => rfl
    | some e' =>
      cases e' with
      | dir mode => exact absurd ⟨mode, hg⟩ h.leaf
      | file | link | special => rfl
  refine ⟨(((ready.release (dir ++ [n])).erase loc).put (dir ++ [n]) e).noteNew (dir ++ [n]),
    by rw [hrep, hdone], ?_, hready.cwd, ?_⟩
  · change (dir ++ [n], e) :: ((ready.erase loc).entries.filter _) = _
    rw [hready.erased]
    rfl
  · exact ((Sharing.of_eq hready.shared).trans (sharing_erase ready loc)).trans (sharing_noteNew _ _)

/-- A replacement fails and leaves everything as it is, or what it is for can be replaced. -/
theorem replace_cases (hd : Tree d) (p : Path) (content : Bytes) :
    (∃ f d', d.replace p content = (.error f, d') ∧ d'.entries = d.entries ∧ d'.cwd = d.cwd ∧ Sharing d d') ∨
    ∃ dir n mode?, Replaceable d p dir n ∧ d.inheritedMode p = .ok mode? := by
  cases hm : d.inheritedMode p with
  | error f => exact .inl ⟨f, d, by simp [replace, hm], rfl, rfl, .of_eq rfl⟩
  | ok mode? =>
    cases ht : d.temporary p.directory (temporaryStart p) with
    | error f => exact .inl ⟨f, d, by simp [replace, hm, ht], rfl, rfl, .of_eq rfl⟩
    | ok loc =>
      obtain ⟨place, hr, ha, hfree, s, hloc⟩ := temporary_ok ht
      obtain ⟨ready, hready, hrep⟩ := replace_eq hm ht (by simp [hloc]) hfree content
      cases hdone : ready.renameOver loc p with
      | error f =>
        exact .inl ⟨f, ready.erase loc, by rw [hrep, hdone], hready.erased, hready.cwd,
          (Sharing.of_eq hready.shared).trans (sharing_erase ready loc)⟩
      | ok done =>
        simp only [renameOver, bind, Except.bind] at hdone
        split at hdone
        · cases hdone
        next spot hspot =>
        split at hdone
        · cases hdone
        next dir n =>
        split at hdone
        · cases hdone
        next hs =>
        have hleads := Leads.of_locate hd hready.alike hspot
        have hn := isName_template hleads
        have hs' := endsInSlash_join p.directory hn
        obtain ⟨htext, hshort, hplace⟩ := (hleads.names_directory hn).of_resolve hn hs' hr
        rw [hplace, List.dropLast_concat] at ha hloc
        refine .inr ⟨dir, n, mode?, ⟨hleads, by simpa using hs, ?_, htext, hshort, ha⟩, rfl⟩
        rintro ⟨mode, hg⟩
        have : dir ++ [n] ≠ loc := by simpa [hloc] using (temporaryStart_append_ne hleads s).symm
        simp [hready.get?, this, hg] at hdone

theorem replace_ok (hd : Tree d) (h : Writable d p dir n) (content : Bytes) :
    ∃ d', d.replace p content = (.ok (), d') ∧
      Turned d (update d.get? (dir ++ [n]) (some (.file (inherit (d.get? (dir ++ [n]))) content))) d' := by
  obtain ⟨mode?, hm, hmode⟩ := inheritedMode_eq h.leads h.slash h.leaf
  obtain ⟨d', hrep, hw⟩ := replace_of_replaceable h.replaceable hm content
  rw [hmode] at hw
  exact ⟨d', hrep, turned_put hd h.site hw.entries hw.cwd hw.sharing⟩

theorem replace_error (hd : Tree d) (hp : NoLink d p) (h : ∀ dir n, ¬ Writable d p dir n) (content : Bytes) :
    ∃ f d', d.replace p content = (.error f, d') ∧ Turned d d.get? d' := by
  rcases replace_cases hd p content with ⟨f, d', hrep, he, hc, hs⟩ | ⟨dir, n, mode?, hr, -⟩
  · exact ⟨f, d', hrep, turned_of_entries hd he hc hs⟩
  · refine absurd ⟨hr.leads, hr.slash, ?_, hr.text, hr.short, hr.alter⟩ (h dir n)
    cases hg : d.get? (dir ++ [n]) with
    | none => rfl
    | some e =>
      cases e with
      | dir mode => exact absurd ⟨mode, hg⟩ hr.leaf
      | link target => exact absurd hg (hp dir n hr.leads target)
      | file | special => rfl

theorem LinkFree.replace_cases (h : LinkFree d) (hd : Tree d) (p : Path) (content : Bytes) :
    (∃ f d', d.replace p content = (.error f, d') ∧ Turned d d.get? d') ∨
    ∃ dir n d', d.replace p content = (.ok (), d') ∧ Writable d p dir n ∧
      Turned d (update d.get? (dir ++ [n]) (some (.file (inherit (d.get? (dir ++ [n]))) content))) d' := by
  by_cases hw : ∃ dir n, Writable d p dir n
  · obtain ⟨dir, n, hw⟩ := hw
    obtain ⟨d', hr, ht⟩ := replace_ok hd hw content
    exact .inr ⟨dir, n, d', hr, hw, ht⟩
  · exact .inl (replace_error hd (h.noLink p) (fun dir n hn => hw ⟨dir, n, hn⟩) content)

/-! ### Removing -/

/-- A file that `p` leads to can be taken away. -/
structure Removable (d : Disk) (p : Path) (dir : Location) (n : Bytes) : Prop where
  leads : Leads d p dir n
  slash : endsInSlash p = false
  alter : d.mayAlter dir = true

theorem Removable.alike (hd : Alike d d') (h : Removable d p dir n) : Removable d' p dir n :=
  ⟨h.leads.alike hd, h.slash, (hd.mayAlter _).trans h.alter⟩

theorem Writable.removable (h : Writable d p dir n) : Removable d p dir n := ⟨h.leads, h.slash, h.alter⟩

theorem remove_ok (hd : Tree d) (h : Removable d p dir n) {e : Entry} (hg : d.get? (dir ++ [n]) = some e)
    (he : bone (some e) = none) :
    ∃ d', d.remove p = .ok d' ∧ Turned d (update d.get? (dir ++ [n]) none) d' := by
  have hdir : e.isDir = false := by cases e <;> first | rfl | cases he
  refine ⟨((d.release (dir ++ [n])).erase (dir ++ [n])).noteGone (dir ++ [n]), ?_,
    turned_erase hd (by simp) (by rw [hg, he]) rfl rfl rfl⟩
  unfold remove
  rw [h.leads.locate]
  simp only [bind, Except.bind, hg, h.slash, h.alter, hdir, Bool.false_eq_true, ↓reduceIte,
    Bool.not_true, pure, Except.pure]

theorem remove_inv (hd : Tree d) (h : d.remove p = .ok d') :
    ∃ dir n e, Removable d p dir n ∧ d.get? (dir ++ [n]) = some e ∧ e.isDir = false ∧
      d' = ((d.release (dir ++ [n])).erase (dir ++ [n])).noteGone (dir ++ [n]) := by
  simp only [remove, bind, Except.bind] at h
  split at h
  · cases h
  next spot hspot =>
  split at h
  · cases h
  next dir n =>
  split at h
  · cases h
  next e hg =>
  split at h
  · cases h
  next hs =>
  split at h
  · cases h
  next ha =>
  split at h
  · cases h
  next he =>
  cases h
  exact ⟨dir, n, e, ⟨.of_locate hd (.refl d) hspot, by simpa using hs, by simpa using ha⟩, hg, by simpa using he, rfl⟩

theorem LinkFree.remove_cases (h : LinkFree d) (hd : Tree d) (p : Path) :
    (∃ f, d.remove p = .error f) ∨
    ∃ dir n d', d.remove p = .ok d' ∧ Leads d p dir n ∧ Turned d (update d.get? (dir ++ [n]) none) d' := by
  cases hr : d.remove p with
  | error f => exact .inl ⟨f, rfl⟩
  | ok d' =>
    obtain ⟨dir, n, e, hrm, hg, hdir, -⟩ := remove_inv hd hr
    have he : bone (some e) = none := by
      cases e with
      | dir mode => cases hdir
      | link target => exact absurd hg (h _ target)
      | _ => rfl
    obtain ⟨d'', hr', ht⟩ := remove_ok hd hrm hg he
    cases hr.symm.trans hr'
    exact .inr ⟨dir, n, d', rfl, hrm.leads, ht⟩

theorem Leads.remove_ne_notFound (h : Leads d p dir n) {e : Entry} (hg : d.get? (dir ++ [n]) = some e) :
    d.remove p ≠ .error .notFound := by
  simp only [remove, h.locate, bind, Except.bind, hg]
  split
  · split <;> simp
  split
  · simp
  split <;> simp [pure, Except.pure]

/-! ### Copying -/

/-- Only a regular file or a directory, if anything, stands where `p` leads. -/
def Plain (d : Disk) (p : Path) : Prop :=
  ∀ dir n, Leads d p dir n → ∀ e, d.get? (dir ++ [n]) = some e →
    (∃ mode content, e = .file mode content) ∨ ∃ mode, e = .dir mode

theorem Plain.noLink (h : Plain d p) : NoLink d p := fun dir n hl target hg => by
  rcases h dir n hl _ hg with ⟨_, _, h⟩ | ⟨_, h⟩ <;> cases h

/-- A file can be opened for writing at `n` in `dir`. -/
def Opens (d : Disk) (dir : Location) (n : Bytes) : Prop :=
  d.get? (dir ++ [n]) = none ∧ d.mayAlter dir = true ∨
    ∃ mode content, d.get? (dir ++ [n]) = some (.file mode content) ∧ allows mode writeBit = true

theorem checkSpelling_eq (h : Leads d p dir n) (hs : endsInSlash p = false)
    (hl : ∀ target, d.get? (dir ++ [n]) ≠ some (.link target)) (k : Nat) :
    d.checkSpelling (k + 1) d.cwd p = .ok () := by
  rw [checkSpelling]
  simp only [h.locate, bind, Except.bind, hs, Bool.false_eq_true, ↓reduceIte]
  rfl

/-- What was opened for writing: a file that is new, one that was there, or a device. -/
inductive WasOpened (d : Disk) (mode : Nat) (l : Location) : Opened → Prop
  | made (hs : Site d l) (hg : d.get? l = none) (ha : d.mayAlter l.dropLast = true) :
    WasOpened d mode l ⟨l, mode, [], false, (d.put l (.file mode [])).noteNew l⟩
  | file {mode' : Nat} {content : Bytes} (hg : d.get? l = some (.file mode' content)) (hw : allows mode' writeBit = true) :
    WasOpened d mode l ⟨l, mode', content, false, d⟩
  | device {what : Special} {mode' : Nat} {content : Bytes} (hg : d.get? l = some (.special what)) (hw : what ≠ .terminal) :
    WasOpened d mode l ⟨l, mode', content, true, d⟩

theorem openFile_cases (hd : Tree d) {mode : Nat} {o : Opened} (h : d.openFile p mode = .ok o) :
    ∃ place, d.resolve true p = .ok place ∧ WasOpened d mode place.location o := by
  simp only [openFile, bind, Except.bind] at h
  split at h
  · cases h
  split at h
  · cases h
  next place hr =>
  have hends := ends_of_resolve hd hr
  refine ⟨place, hr, ?_⟩
  split at h
  · split at h
    · next hw =>
      cases h
      exact .file hends hw
    · cases h
  · cases h
  · cases h
    exact .device hends (by simp)
  · next hno _ =>
    cases h
    exact .device hends fun heq => hno (by rw [heq])
  · cases h
  · split at h
    · next ha =>
      cases h
      exact .made hends.2 hends.1 ha
    · cases h

theorem NoLink.location_of_resolve (hp : NoLink d p) (hd : Tree d) {place : Place} (hr : d.resolve true p = .ok place)
    (hb : bone (d.get? place.location) = none) :
    endsInSlash p = false ∧ ∃ dir n, Leads d p dir n ∧ place.location = dir ++ [n] := by
  rcases resolve_cases hd hr with ⟨l, mode, rfl⟩ | ⟨hs, dir, n, hl⟩
  · exact absurd hb (bone_ne_none_of_isDir ⟨mode, ends_of_resolve hd hr⟩)
  refine ⟨hs, dir, n, hl, ?_⟩
  cases hg : d.get? (dir ++ [n]) with
  | none =>
    cases hr.symm.trans (hl.resolve_vacant hs hg)
    rfl
  | some e =>
    cases hr.symm.trans (hl.resolve_entry hs hg fun target he => hp dir n hl target (he ▸ hg))
    rfl

theorem WasOpened.bone {mode : Nat} {o : Opened} (h : WasOpened d mode l o) : bone (d.get? l) = none := by
  cases h with
  | made _ hg | file hg | device hg => rw [hg]; rfl

theorem WasOpened.site (hd : Tree d) {mode : Nat} {o : Opened} (h : WasOpened d mode l o) : Site d l := by
  cases h with
  | made hs => exact hs
  | file hg | device hg => exact hd.site hg rfl

theorem openFile_inv (hd : Tree d) (hp : Plain d p) {mode : Nat} {o : Opened} (h : d.openFile p mode = .ok o) :
    ∃ dir n, Leads d p dir n ∧ endsInSlash p = false ∧ Opens d dir n := by
  obtain ⟨place, hr, ho⟩ := openFile_cases hd h
  obtain ⟨hs, dir, n, hl, hloc⟩ := hp.noLink.location_of_resolve hd hr ho.bone
  refine ⟨dir, n, hl, hs, ?_⟩
  rw [hloc] at ho
  cases ho with
  | made _ hg ha => exact .inl ⟨hg, by simpa using ha⟩
  | file hg hw => exact .inr ⟨_, _, hg, hw⟩
  | device hg => rcases hp dir n hl _ hg with ⟨_, _, h⟩ | ⟨_, h⟩ <;> cases h

theorem openFile_ok (h : Leads d p dir n) (hs : endsInSlash p = false) (ho : Opens d dir n) (mode : Nat) :
    ∃ o, d.openFile p mode = .ok o ∧ o.device = false ∧ WasOpened d mode (dir ++ [n]) o := by
  rcases ho with ⟨hg, ha⟩ | ⟨mode', content, hg, hw⟩
  · refine ⟨_, ?_, rfl, .made ⟨dir, n, rfl, h.isDir, h.name, by rw [hg]; rfl⟩ hg (by simpa using ha)⟩
    rw [openFile, checkSpelling_eq h hs (by simp [hg]), h.resolve_vacant hs hg]
    simp [bind, Except.bind, ha, pure, Except.pure]
  · refine ⟨_, ?_, rfl, .file hg hw⟩
    rw [openFile, checkSpelling_eq h hs (by simp [hg]), h.resolve_entry hs hg (by simp)]
    simp [bind, Except.bind, hw, pure, Except.pure]

/-- The same entry at each of some places. -/
def spread (ks : List Location) (e : Entry) (v : View) : View := ks.foldl (fun v k => update v k (some e)) v

section
variable {ks : List Location} {e : Entry}

theorem spread_of_notMem (h : l ∉ ks) (v : View) : spread ks e v l = v l := by
  induction ks generalizing v with
  | nil => rfl
  | cons k ks ih =>
    rw [List.mem_cons, not_or] at h
    exact (ih h.2 _).trans (update_of_ne h.1 ..)

theorem spread_of_mem (h : l ∈ ks) (v : View) : spread ks e v l = some e := by
  induction ks generalizing v with
  | nil => cases h
  | cons k ks ih =>
    by_cases hl : l ∈ ks
    · exact ih hl _
    · obtain rfl := (List.mem_cons.1 h).resolve_right hl
      exact (spread_of_notMem hl _).trans (update_self ..)

theorem spread_congr {v v' : View} (h : ∀ k, k ∉ ks → v k = v' k) : spread ks e v = spread ks e v' := by
  funext k
  by_cases hk : k ∈ ks
  · rw [spread_of_mem hk, spread_of_mem hk]
  · rw [spread_of_notMem hk, spread_of_notMem hk, h k hk]

theorem spread_spread (v : View) : spread ks e (spread ks e v) = spread ks e v :=
  spread_congr fun _ hk => spread_of_notMem hk v

theorem turned_foldl_put (hd : Tree d) (hs : ∀ k ∈ ks, Site d k) {mode : Nat} {content : Bytes} :
    Turned d (spread ks (.file mode content) d.get?) (ks.foldl (fun d k => d.put k (.file mode content)) d) := by
  induction ks generalizing d with
  | nil => exact .refl hd
  | cons k ks ih =>
    have ht : Turned d _ (d.put k (.file mode content)) := turned_put hd (hs k (by simp)) rfl rfl (.of_eq rfl)
    have hrest := ih ht.tree fun j hj => (hs j (by simp [hj])).alike ht.alike
    rw [ht.view] at hrest
    exact ht.trans hrest

theorem shared_amend (d : Disk) (l : Location) (e : Entry) : (d.amend l e).shared = d.shared := by
  unfold amend
  generalize d.twins l = ks
  induction ks generalizing d with
  | nil => rfl
  | cons k ks ih => exact ih (d.put k e)

/-- There can be a file at `l`, with the names `ks`. -/
structure Named (d : Disk) (l : Location) (ks : List Location) : Prop where
  tree : Tree d
  site : ∀ k ∈ ks, Site d k
  twins : d.twins l = ks

/-- What is written under one name is found under all of them. -/
theorem Named.amend (h : Named d l ks) (d' : Disk) (mode : Nat) (content : Bytes)
    (hent : d'.entries = (d.amend l (.file mode content)).entries)
    (hcwd : d'.cwd = (d.amend l (.file mode content)).cwd)
    (hsh : d'.shared = (d.amend l (.file mode content)).shared) :
    Turned d (spread ks (.file mode content) d.get?) d' ∧ Named d' l ks := by
  have hamend : Turned d (spread ks (.file mode content) d.get?) (d.amend l (.file mode content)) :=
    h.twins ▸ turned_foldl_put h.tree (h.twins.symm ▸ h.site)
  have ht := hamend.trans (hamend.view ▸ turned_of_entries hamend.tree hent hcwd (.of_eq hsh))
  refine ⟨ht, ht.tree, fun k hk => (h.site k hk).alike ht.alike, ?_⟩
  rw [← h.twins, Disk.twins, Disk.twins, hsh, shared_amend]

/-- From `d` on a file is written again and again under the names `ks`, and in the end it is `e`. -/
inductive Rewritten (ks : List Location) : Disk → List Disk → Entry → Prop
  | last {d d' : Disk} {mode : Nat} {content : Bytes} (h : Turned d (spread ks (.file mode content) d.get?) d') :
    Rewritten ks d [d'] (.file mode content)
  | step {d d' : Disk} {ds : List Disk} {e : Entry} {mode : Nat} {content : Bytes}
    (h : Turned d (spread ks (.file mode content) d.get?) d') (hs : Rewritten ks d' ds e) : Rewritten ks d (d' :: ds) e

/-- When a file is opened, nothing changes but that it is there. -/
theorem WasOpened.turned (hd : Tree d) {mode : Nat} {o : Opened} (h : WasOpened d mode l o) :
    ∃ v, Turned d v o.disk ∧ ∀ k, k ≠ l → v k = d.get? k := by
  cases h with
  | made hs => exact ⟨_, turned_put hd hs rfl rfl (sharing_noteNew ..), fun k hk => update_of_ne hk ..⟩
  | file | device => exact ⟨_, .refl hd, fun _ _ => rfl⟩

/-- A file that was opened is emptied under all its names. -/
theorem WasOpened.truncate (hd : Tree d) (hn : SitedAt d l) {mode : Nat} {o : Opened} (h : WasOpened d mode l o)
    (hdev : o.device = false) : ∃ mode' cut ks, o.truncate = ⟨l, mode', [], false, cut⟩ ∧
      Turned d (spread ks (.file mode' []) d.get?) cut ∧ Named cut l ks := by
  obtain ⟨v, ht, hv⟩ := h.turned hd
  have hloc : o.location = l := by cases h <;> rfl
  have hopen : Named o.disk l (o.disk.twins l) := by
    refine ⟨ht.tree, fun k hk => ?_, rfl⟩
    by_cases hkl : k = l
    · exact hkl ▸ (h.site hd).alike ht.alike
    · exact hn.alike ht.alike ht.sharing k hk hkl
  obtain ⟨hcut, hnamed⟩ := hopen.amend ((o.disk.amend l (.file (writtenMode o.mode) [])).noteChange l)
    (writtenMode o.mode) [] rfl rfl rfl
  have hview : ∀ k ∉ o.disk.twins l, o.disk.get? k = d.get? k := fun k hk => by
    rw [ht.view, hv k fun hkl => hk (hkl ▸ self_mem_twins ..)]
  rw [spread_congr hview] at hcut
  exact ⟨_, _, _, by simp [Opened.truncate, hdev, hloc], ht.trans hcut, hnamed⟩

end

theorem allows_writtenMode (mode : Nat) : allows (writtenMode mode) writeBit = allows mode writeBit := by
  have drop : ∀ m bit : Nat, bit = 0o4000 ∨ bit = 0o2000 → allows m bit = true →
      allows (m - bit) writeBit = allows m writeBit := by
    intro m bit hb h
    rw [Bool.eq_iff_iff]
    simp only [allows, writeBit, beq_iff_eq] at h ⊢
    rcases hb with rfl | rfl <;> omega
  simp only [writtenMode]
  split
  · next h4 =>
    split
    · next h2 =>
      rw [Bool.and_eq_true] at h2
      rw [drop _ _ (.inr rfl) h2.1, drop _ _ (.inl rfl) h4]
    · exact drop _ _ (.inl rfl) h4
  · split
    · next h2 =>
      rw [Bool.and_eq_true] at h2
      exact drop _ _ (.inr rfl) h2.1
    · rfl

/-- What is copied to `l` is what `source` holds, if it is another file. -/
def Same (d : Disk) (source : Path) (l : Location) (content content' : Bytes) : Prop :=
  ∀ dir n mode, Leads d source dir n → endsInSlash source = false → dir ++ [n] ∉ d.twins l →
    d.get? (dir ++ [n]) = some (.file mode content) → content' = content

theorem copy_ok (hd : Tree d) (hn : SitedAt d (dir ++ [n])) {source : Path} {mode : Nat} {content : Bytes}
    (hstat : d.stat source = .ok (.file mode content)) (hr : allows mode readBit = true)
    (hl : Leads d p dir n) (hs : endsInSlash p = false) (ho : Opens d dir n) :
    ∃ disks ks mode' content', d.copy source p = .ok disks ∧ allows mode' writeBit = allows mode writeBit ∧
      Rewritten ks d disks (.file mode' content') ∧ dir ++ [n] ∈ ks ∧ (∀ k ∈ ks, k ∈ d.twins (dir ++ [n])) ∧
      Same d source (dir ++ [n]) content content' := by
  obtain ⟨o, hopen, hdev, hat⟩ := openFile_ok hl hs ho (masked mode 0o22)
  -- the file emptied, and then with the bits of the source
  obtain ⟨mode₁, cut, ks, htrunc, hcut, hnamed⟩ := hat.truncate hd hn hdev
  obtain ⟨hempty, hnamed'⟩ := hnamed.amend (cut.amend (dir ++ [n]) (.file mode [])) mode [] rfl rfl rfl
  have hks : ∀ k ∈ ks, k ∈ d.twins (dir ++ [n]) := fun k hk => hcut.sharing.twins (hnamed.twins ▸ hk)
  have hself : dir ++ [n] ∈ ks := hnamed.twins ▸ self_mem_twins ..
  have hsame : ∀ {dir₀ n₀ mode₀}, Leads d source dir₀ n₀ → endsInSlash source = false →
      dir₀ ++ [n₀] ∉ d.twins (dir ++ [n]) → d.get? (dir₀ ++ [n₀]) = some (.file mode₀ content) →
      (cut.amend (dir ++ [n]) (.file mode [])).stat source = .ok (.file mode₀ content) := by
    intro dir₀ n₀ mode₀ hl₀ hs₀ hne hg
    have hno : dir₀ ++ [n₀] ∉ ks := fun hk => hne (hks _ hk)
    refine (hl₀.alike (hcut.trans hempty).alike).stat_some hs₀ ?_ (by simp)
    rw [hempty.view, spread_of_notMem hno, hcut.view, spread_of_notMem hno, hg]
  simp only [copy, hstat, hr, hopen, bind, Except.bind, ↓reduceIte, htrunc, Bool.false_eq_true]
  split
  · next content' hstat' =>
    have hsame' : Same d source (dir ++ [n]) content content' := fun dir₀ n₀ mode₀ hl₀ hs₀ hne hg => by
      rw [hsame hl₀ hs₀ hne hg] at hstat'
      exact (Entry.file.inj (Except.ok.inj hstat')).2.symm
    by_cases hc : content' = []
    · subst hc
      have hagain := Turned.refl hnamed'.tree
      rw [hempty.view, ← spread_spread, ← hempty.view] at hagain
      exact ⟨_, ks, mode, [], rfl, rfl, .step hcut (.step hempty (.last hagain)), hself, hks, hsame'⟩
    · refine ⟨_, ks, writtenMode mode, content', rfl, allows_writtenMode mode, .step hcut (.step hempty (.last ?_)), hself,
        hks, hsame'⟩
      simp only [Opened.append, hc, List.isEmpty_iff, Bool.false_or, ↓reduceIte]
      refine (hnamed'.amend _ (writtenMode mode) content' ?_ ?_ ?_).1 <;> rfl
  · next hno =>
    exact ⟨_, ks, mode, [], rfl, rfl, .step hcut (.last hempty), hself, hks,
      fun _ _ _ hl₀ hs₀ hne hg => absurd (hsame hl₀ hs₀ hne hg) (hno _ _)⟩

theorem copy_inv (hd : Tree d) (hp : Plain d p) {source : Path} {disks : List Disk} (h : d.copy source p = .ok disks) :
    (∃ mode content, d.stat source = .ok (.file mode content) ∧ allows mode readBit = true) ∧
      ∃ dir n, Leads d p dir n ∧ endsInSlash p = false ∧ Opens d dir n := by
  simp only [copy, bind, Except.bind] at h
  split at h
  · cases h
  next e hstat =>
  split at h
  · next mode content =>
    split at h
    · next hr =>
      split at h
      · cases h
      next o hopen => exact ⟨⟨mode, content, hstat, hr⟩, openFile_inv hd hp hopen⟩
    · cases h
  all_goals cases h

end Prune.Disk
