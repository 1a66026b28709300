import Mathlib.Data.List.Nodup
import Prune.Proofs.PathOrder
import Prune.Proofs.Tree

/-!
# What a walk finds

`Spells d root p l` says that a walk from `root` writes the location `l` as the path `p`. That is
settled by directories and links, and a path and its location determine each other. The sources under
a root are then the regular files that are spelled with a listed extension, in the order of their
paths (`Listing`), so two disks with the same sources have the same list.
-/

namespace Prune.Disk

open Bytes Prune.Path

variable {d d' : Disk} {p q root : Path} {l l' base dir here : Location} {n : Bytes} {mode : Nat}
  {ns : List Bytes} {e : Entry}

theorem resolve_dir_iff (hd : Tree d) : d.resolve true p = .ok (.entry l (.dir mode)) ↔
    checkText p.text = .ok () ∧ (∃ k, Walks d maxLinks (origin d.cwd p.text) (names p.text) k l) ∧
      d.get? l = some (.dir mode) ∧ (endsInSlash p = true → d.mayEnter l = true) := by
  constructor
  · intro h
    cases ht : checkText p.text with
    | error f => simp [resolve, ht, bind, Except.bind] at h
    | ok u =>
      simp only [resolve, ht, bind, Except.bind, steps] at h
      obtain ⟨k, l', hw⟩ := exists_walks h (.inr ⟨rfl, _, _, rfl⟩)
      obtain ⟨mode', hl⟩ := hw.isDir hd (isDir_origin hd p.text)
      rw [hw.walkSteps_append (.inl rfl)] at h
      by_cases hs : p.text.getLast? = some slash
      · rw [if_pos hs, walkSteps_cons] at h
        split at h
        · cases h
        next hent =>
        rw [if_pos rfl, walkSteps_nil_of_isDir k hl] at h
        obtain ⟨rfl, rfl⟩ : l' = l ∧ mode' = mode := by simpa using h
        exact ⟨rfl, ⟨k, hw⟩, hl, fun _ => by simpa using hent⟩
      · rw [if_neg hs, walkSteps_nil_of_isDir k hl] at h
        obtain ⟨rfl, rfl⟩ : l' = l ∧ mode' = mode := by simpa using h
        exact ⟨rfl, ⟨k, hw⟩, hl, fun h => absurd (by simpa [endsInSlash] using h) hs⟩
  · rintro ⟨ht, ⟨k, hw⟩, hl, hs⟩
    simp only [resolve, ht, bind, Except.bind, steps]
    rw [hw.walkSteps_append (.inl rfl)]
    by_cases hsl : p.text.getLast? = some slash
    · have hent := hs (by simpa [endsInSlash] using hsl)
      rw [if_pos hsl, walkSteps_cons]
      simp [hent, walkSteps_nil_of_isDir k hl]
    · rw [if_neg hsl, walkSteps_nil_of_isDir k hl]

theorem Alike.resolve_dir (h : Alike d d') (hd : Tree d) (hd' : Tree d') :
    d'.resolve true p = .ok (.entry l (.dir mode)) ↔ d.resolve true p = .ok (.entry l (.dir mode)) := by
  rw [resolve_dir_iff hd, resolve_dir_iff hd', h.dir_iff, h.mayEnter, h.cwd]
  refine and_congr_right fun _ => and_congr_left fun _ => ?_
  exact ⟨fun ⟨k, hw⟩ => ⟨k, hw.alike h.symm⟩, fun ⟨k, hw⟩ => ⟨k, hw.alike h⟩⟩

/-- `p` is how a walk from `root` spells the location `l`. -/
inductive Spells (d : Disk) (root : Path) : Path → Location → Prop
  | below {base : Location} {mode : Nat} {ns : List Bytes}
      (hb : d.resolve true root = .ok (.entry base (.dir mode))) (hne : ns ≠ []) (hn : ∀ n ∈ ns, IsName n) :
      Spells d root (root.join (joinWith slash ns)) (base ++ ns)
  | self {dir : Location} {n : Bytes} (hb : ∀ base mode, d.resolve true root ≠ .ok (.entry base (.dir mode)))
      (hs : endsInSlash root = false) (hl : Leads d root dir n) : Spells d root root (dir ++ [n])

theorem head?_joinWith_ne (hn : ∀ n ∈ ns, IsName n) : (joinWith slash ns).head? ≠ some slash := by
  cases ns with
  | nil => simp [joinWith]
  | cons n ns =>
    have hname := hn n (by simp)
    cases n with
    | nil => exact absurd rfl hname.ne_nil
    | cons b n =>
      have hb : slash ≠ b := fun h => hname.slash (by simp [h])
      cases ns <;> simp [joinWith, hb.symm]

theorem names_join_joinWith (root : Path) (hn : ∀ n ∈ ns, IsName n) :
    names (root.join (joinWith slash ns)).text = names root.text ++ ns := by
  rw [names_join root (head?_joinWith_ne hn), names_joinWith hn]

namespace Spells

theorem alike (h : Alike d d') (hd : Tree d) (hd' : Tree d') (hp : Spells d root p l) : Spells d' root p l := by
  cases hp with
  | below hb hne hn => exact .below ((h.resolve_dir hd hd').2 hb) hne hn
  | self hb hs hl => exact .self (fun base mode h' => hb base mode ((h.resolve_dir hd hd').1 h')) hs (hl.alike h)

theorem location_unique (h : Spells d root p l) (h' : Spells d root q l') (hpq : p = q) : l = l' := by
  cases h with
  | below hb hne hn =>
    cases h' with
    | below hb' hne' hn' =>
      have := congrArg (fun r : Path => names r.text) hpq
      simp only [names_join_joinWith root hn, names_join_joinWith root hn', List.append_cancel_left_eq] at this
      rw [hb] at hb'
      cases hb'
      rw [this]
    | self hb' => exact absurd hb (hb' _ _)
  | self hb hs hl =>
    cases h' with
    | below hb' => exact absurd hb' (hb _ _)
    | self _ _ hl' =>
      obtain ⟨rfl, rfl⟩ := hl.unique hl'
      rfl

/-- One location has one spelling, and even its components are its own. -/
theorem path_unique (h : Spells d root p l) (h' : Spells d root q l') (hk : l = l' ∨ p.key = q.key) : p = q := by
  cases h with
  | below hb hne hn =>
    cases h' with
    | below hb' hne' hn' =>
      rw [hb] at hb'
      cases hb'
      rcases hk with hk | hk
      · rw [List.append_cancel_left hk]
      · have hc := congrArg (List.filterMap Component.piece?) (components_eq_of_key_eq hk)
        have hfilter : ∀ {ms : List Bytes}, (∀ m ∈ ms, IsName m) → ms.filter (· ≠ [dot]) = ms := fun hms =>
          List.filter_eq_self.2 fun m hm => by simpa using (hms m hm).ne_dot
        rw [filterMap_piece?_components, filterMap_piece?_components, names_join_joinWith root hn,
          names_join_joinWith root hn', List.filter_append, List.filter_append, hfilter hn, hfilter hn'] at hc
        rw [List.append_cancel_left hc]
    | self hb' => exact absurd hb (hb' _ _)
  | self hb hs hl =>
    cases h' with
    | below hb' => exact absurd hb' (hb _ _)
    | self => rfl

theorem exists_names (h : Spells d root p l) : ∃ xs n, names p.text = xs ++ [n] ∧ IsName n := by
  cases h with
  | @below base mode ns hb hne hn =>
    rcases List.eq_nil_or_concat ns with h | ⟨ms, m, rfl⟩
    · exact absurd h hne
    · refine ⟨names root.text ++ ms, m, ?_, hn m (by simp)⟩
      rw [names_join_joinWith root hn, List.concat_eq_append, List.append_assoc]
  | self _ _ hl =>
    obtain ⟨xs, k, hx, -⟩ := hl.walks
    exact ⟨xs, _, hx, hl.name⟩

theorem exists_fileName (h : Spells d root p l) : ∃ dir n, l = dir ++ [n] ∧ p.fileName? = some n := by
  cases h with
  | @below base mode ns hb hne hn =>
    rcases List.eq_nil_or_concat ns with h | ⟨ms, m, rfl⟩
    · exact absurd h hne
    · rw [List.concat_eq_append] at hn ⊢
      have hx : names (root.join (joinWith slash (ms ++ [m]))).text = (names root.text ++ ms) ++ [m] := by
        rw [names_join_joinWith root hn, List.append_assoc]
      exact ⟨base ++ ms, m, by simp, (Path.exists_parent hx (hn m (by simp))).1⟩
  | self _ _ hl => exact ⟨_, _, rfl, hl.fileName?⟩

end Spells

theorem Walks.eq_append {k k' : Nat} {xs : List Bytes} (h : Walks d k here xs k' l) (hn : ∀ x ∈ xs, IsName x)
    (hdir : ∀ ys, ys ≠ [] → ys <+: xs → d.IsDir (here ++ ys)) : l = here ++ xs := by
  induction h with
  | nil => simp
  | dot => exact absurd rfl (hn [Path.dot] (by simp)).ne_dot
  | up => exact absurd rfl (hn [Path.dot, Path.dot] (by simp)).ne_dots
  | @dir k k' mode here l s xs _ _ _ _ _ _ ih =>
    rw [ih (fun x hx => hn x (by simp [hx])) fun ys hy hp => ?_, List.append_assoc, List.singleton_append]
    rw [List.append_assoc, List.singleton_append]
    exact hdir (s :: ys) (by simp) (List.cons_prefix_cons.2 ⟨rfl, hp⟩)
  | @link k k' here l s target xs _ _ _ _ hg =>
    obtain ⟨mode, hm⟩ := hdir [s] (by simp) (List.cons_prefix_cons.2 ⟨rfl, by simp⟩)
    rw [hg] at hm
    cases hm

theorem Spells.eq_of_names (hd : Tree d) (h : Spells d root p l) (hg : d.get? l = some e)
    (hp : Names d p dir n) : l = dir ++ [n] := by
  cases h with
  | self _ _ hl =>
    obtain ⟨rfl, rfl⟩ := hp.unique hd hl.walks
    rfl
  | @below base mode ns hb hne hn =>
    obtain ⟨xs, k, hx, hw⟩ := hp
    rw [names_join_joinWith root hn] at hx
    rw [origin_join _ root (head?_joinWith_ne hn)] at hw
    obtain ⟨ms, m, rfl⟩ : ∃ ms m, ns = ms ++ [m] := by
      rcases List.eq_nil_or_concat ns with h | ⟨ms, m, h⟩
      · exact absurd h hne
      · exact ⟨ms, m, by simpa using h⟩
    rw [← List.append_assoc] at hx
    obtain ⟨rfl, hm⟩ := List.append_inj' hx rfl
    obtain rfl : m = n := by simpa using hm
    obtain ⟨j, base', hbase, hw⟩ := hw.split
    -- the first part of the walk is the way to the root
    obtain rfl : base' = base := by
      obtain ⟨-, ⟨j', hw'⟩, -⟩ := (resolve_dir_iff hd).1 hb
      exact hw'.unique hd (isDir_origin hd root.text) hbase
    have := hw.eq_append (fun x hx => hn x (by simp [hx])) fun ys _ hp => ?_
    · rw [this, List.append_assoc]
    · obtain ⟨zs, rfl⟩ := hp
      have hg' : d.get? ((base' ++ ys) ++ (zs ++ [m])) = some e := by simpa using hg
      exact hd.isDir_append hg' (by simp)

/-! ### What is met -/

theorem mem_below_iff (hd : Tree d) : (ns, e) ∈ d.below base ↔ ns ≠ [] ∧ d.get? (base ++ ns) = some e := by
  simp only [below, List.mem_filterMap, Prod.exists, Option.ite_none_right_eq_some, Bool.and_eq_true,
    List.isPrefixOf_iff_prefix, bne_iff_ne, ne_eq, Option.some.injEq, Prod.mk.injEq]
  constructor
  · rintro ⟨k, e', hm, ⟨⟨ms, rfl⟩, hlen⟩, rfl, rfl⟩
    have hne : ms ≠ [] := by rintro rfl; simp at hlen
    rw [List.drop_left]
    exact ⟨hne, get?_of_mem hd.nodup hm (by simp [hne])⟩
  · rintro ⟨hne, hg⟩
    refine ⟨base ++ ns, e, mem_of_get? hg (by simp [hne]), ⟨List.prefix_append .., ?_⟩, List.drop_left, rfl⟩
    simpa using hne

theorem nodup_below (hd : Tree d) (base : Location) : (d.below base).Nodup := by
  have h : ((d.below base).map fun x => base ++ x.1).Sublist (d.entries.map (·.1)) := by
    unfold below
    generalize d.entries = es
    induction es with
    | nil => simp
    | cons x es ih =>
      rw [List.filterMap_cons]
      split
      · exact (List.Sublist.cons _ ih)
      · next y hy =>
        simp only [Option.ite_none_right_eq_some, Bool.and_eq_true, List.isPrefixOf_iff_prefix,
          Option.some.injEq] at hy
        obtain ⟨⟨⟨ms, hms⟩, -⟩, rfl⟩ := hy
        rw [List.map_cons, List.map_cons, ← hms, List.drop_left]
        exact ih.cons_cons _
  exact List.Nodup.of_map _ (h.nodup hd.nodup)

/-- The path of what is below a root. -/
abbrev spelled (root : Path) (ns : List Bytes) : Path := root.join (joinWith slash ns)

theorem mem_meetings {f : Found} {closed : Bool} : f ∈ meetings p e closed ↔ f.path = p ∧
    (f.kind = .file ∧ e.isFile = true ∨ f.kind = .other ∧ e.isFile = false ∨
      f.kind = .closed ∧ e.isFile = false ∧ closed = true) := by
  obtain ⟨path, kind⟩ := f
  cases he : e.isFile <;> cases closed <;> simp [meetings, he, ← and_or_left]

theorem isClosed_iff : d.isClosed base ns = true ↔ ∃ mode, d.get? (base ++ ns) = some (.dir mode) ∧
    (allows mode readBit = false ∨ ∃ n < ns.length, d.mayEnter (base ++ ns.take n) = false) := by
  unfold isClosed
  split <;> simp_all

theorem isClosed_alike (ha : Alike d d') (base : Location) (ns : List Bytes) :
    d'.isClosed base ns = d.isClosed base ns := by
  rw [Bool.eq_iff_iff, isClosed_iff, isClosed_iff]
  simp only [ha.dir_iff, ha.mayEnter]

/-- What is below a directory that cannot be listed is not met. -/
def Hidden (d : Disk) (base : Location) (ns : List Bytes) : Prop := ∃ n < ns.length, d.isClosed base (ns.take n) = true

theorem mem_foundBelow_iff {f : Found} : f ∈ d.foundBelow root base ↔
    ∃ ns e, (ns, e) ∈ d.below base ∧ ¬ Hidden d base ns ∧ f ∈ meetings (spelled root ns) e (d.isClosed base ns) := by
  have hhid : ∀ ns : List Bytes, (List.range ns.length).any (fun n => d.isClosed base (ns.take n)) = true ↔
      Hidden d base ns := by
    intro ns
    simp [Hidden]
  simp only [foundBelow, (sortBy_perm _).mem_iff, List.mem_flatMap, List.mem_filter, Prod.exists,
    Bool.not_eq_true', ← Bool.not_eq_true, hhid, and_assoc]

/-- If there is a directory that cannot be listed, one is met. -/
theorem exists_closed (hd : Tree d) (hb : d.isClosed base [] = false) (hc : d.isClosed base ns = true) :
    ∃ f ∈ d.foundBelow root base, f.kind = .closed := by
  -- one with a shortest way to it
  induction hk : ns.length using Nat.strong_induction_on generalizing ns with
  | _ k ih =>
    by_cases hhid : Hidden d base ns
    · obtain ⟨n, hn, hc'⟩ := hhid
      exact ih (ns.take n).length (by rw [List.length_take]; omega) hc' rfl
    · obtain ⟨mode, hg, -⟩ := isClosed_iff.1 hc
      have hne : ns ≠ [] := by
        rintro rfl
        rw [hb] at hc
        cases hc
      exact ⟨⟨spelled root ns, .closed⟩, mem_foundBelow_iff.2 ⟨ns, _, (mem_below_iff hd).2 ⟨hne, hg⟩, hhid,
        mem_meetings.2 ⟨rfl, .inr (.inr ⟨rfl, rfl, hc⟩)⟩⟩, rfl⟩

theorem isClosed_base (hd : Tree d) (hb : d.resolve true p = .ok (.entry base (.dir mode)))
    (hr : allows mode readBit = true) : d.isClosed base [] = false := by
  have hg : d.get? base = some (.dir mode) := ends_of_resolve hd hb
  simp [isClosed, hg, hr]

/-- A directory is found whether links are followed or not, unless the path ends in one. -/
theorem resolve_false_of_dir (hd : Tree d) (hb : d.resolve true p = .ok (.entry l (.dir mode))) :
    d.resolve false p = .ok (.entry l (.dir mode)) ∨
      ∃ k target, d.resolve false p = .ok (.entry k (.link target)) := by
  obtain ⟨ht, ⟨k, hw⟩, hl, hs⟩ := (resolve_dir_iff hd).1 hb
  simp only [resolve, ht, bind, Except.bind, steps]
  by_cases hsl : p.text.getLast? = some slash
  · left
    have hent := hs (by simpa [endsInSlash] using hsl)
    rw [if_pos hsl, hw.walkSteps_append (.inr (by simp)), walkSteps_cons]
    simp [hent, walkSteps_nil_of_isDir k hl]
  rw [if_neg hsl, List.append_nil]
  rcases List.eq_nil_or_concat (names p.text) with hn | ⟨xs, s, hx⟩
  · rw [hn] at hw ⊢
    cases hw
    exact .inl (walkSteps_nil_of_isDir _ hl)
  rw [List.concat_eq_append] at hx
  rw [hx] at hw ⊢
  obtain ⟨j, m, hm, hw⟩ := hw.split
  rw [hm.walkSteps_append (.inr (by simp)), walkSteps_cons]
  cases hw with
  | dot he h =>
    cases h
    exact .inl (by simp [he, walkSteps_nil_of_isDir _ hl])
  | up he h =>
    cases h
    exact .inl (by simp [he, walkSteps_nil_of_isDir _ hl])
  | dir he hd' hu hlen hg h =>
    cases h
    exact .inl (by simp [he, hd', hu, Nat.not_lt.2 hlen, hg, walkSteps_nil_of_isDir _ hl])
  | @link _ _ _ _ _ target _ he hd' hu hlen hg h =>
    exact .inr ⟨m ++ [s], target, by simp [he, hd', hu, Nat.not_lt.2 hlen, hg]⟩

theorem resolve_dir_of_false (h : d.resolve false p = .ok (.entry l (.dir mode))) :
    d.resolve true p = .ok (.entry l (.dir mode)) := by
  cases ht : checkText p.text with
  | error f => simp [resolve, ht, bind, Except.bind] at h
  | ok u =>
    simp only [resolve, ht, bind, Except.bind] at h ⊢
    rcases List.eq_nil_or_concat (steps p.text) with hn | ⟨xs, s, hx⟩
    · rw [hn, walkSteps_nil] at h ⊢
      exact h
    rw [List.concat_eq_append] at hx
    rw [hx] at h ⊢
    obtain ⟨k, m, hw⟩ := exists_walks h (.inl (by simp))
    rw [hw.walkSteps_append (.inr (by simp)), walkSteps_cons] at h ⊢
    -- only a link at the end makes a difference, and that is no directory
    cases hg : d.get? (m ++ [s]) with
    | none => simpa [hg, walkSteps_nil] using h
    | some e =>
      cases e with
      | link target =>
        simp only [hg, List.isEmpty_nil, Bool.not_false, Bool.and_self, ↓reduceIte, walkSteps_nil] at h ⊢
        split at h
        · cases h
        · split at h
          · next hent hs => simpa [hent, hs] using h
          · split at h
            · next hent hs hs' => simpa [hent, hs, hs'] using h
            · split at h <;> cases h
      | dir m' | file | special => simpa [hg, walkSteps_nil] using h

/-- What a walk meets is told from what stands at each location. -/
theorem walk_congr (hd : Tree d) (hd' : Tree d') (hv : d'.get? = d.get?) (hc : d'.cwd = d.cwd) {found : List Found}
    (h : d.walk root = .ok found) : ∃ found', d'.walk root = .ok found' ∧ ∀ f, f ∈ found' ↔ f ∈ found := by
  have hbelow : ∀ base x, x ∈ d'.below base ↔ x ∈ d.below base := fun base ⟨ns, e⟩ => by
    rw [mem_below_iff hd, mem_below_iff hd', hv]
  have hat : ∀ base mode f, f ∈ d'.foundAt root base mode ↔ f ∈ d.foundAt root base mode := by
    intro base mode f
    simp only [foundAt]
    split
    · simp only [List.mem_cons, mem_foundBelow_iff, Hidden, hbelow,
        isClosed_alike (.of_get? hc fun l => congrFun hv l)]
    · rfl
  simp only [walk, resolve_congr hv hc, bind, Except.bind] at h ⊢
  split at h
  · cases h
  split at h
  · cases h
  · cases h
    exact ⟨_, rfl, hat _ _⟩
  · split at h
    · cases h
    split at h
    · cases h
    · cases h
      exact ⟨_, rfl, hat _ _⟩
    · exact ⟨_, rfl, by cases h; simp⟩
  · exact ⟨_, rfl, by cases h; simp⟩

theorem walk_dir (hd : Tree d) (hb : d.resolve true root = .ok (.entry base (.dir mode))) :
    d.walk root = .ok (d.foundAt root base mode) := by
  rcases resolve_false_of_dir hd hb with h | ⟨k, target, h⟩
  · simp [walk, h, bind, Except.bind, pure, Except.pure]
  · simp [walk, h, hb, bind, Except.bind, pure, Except.pure]

theorem Leads.walk (hl : Leads d root dir n) (hs : endsInSlash root = false) (hg : d.get? (dir ++ [n]) = some e)
    (hdir : ∀ mode, e ≠ .dir mode) (hlink : ∀ target, e ≠ .link target) :
    d.walk root = .ok [⟨root, if e.isFile then .file else .other⟩] := by
  have hr : d.resolve false root = .ok (.entry (dir ++ [n]) e) := hl.resolve_entry hs hg hlink
  cases e with
  | dir mode => exact absurd rfl (hdir mode)
  | link target => exact absurd rfl (hlink target)
  | file | special => simp [Disk.walk, hr, bind, Except.bind, pure, Except.pure]

theorem leads_of_walk (hd : Tree d) (hb : ∀ base mode, d.resolve true root ≠ .ok (.entry base (.dir mode)))
    {found : List Found} (h : d.walk root = .ok found) :
    ∃ dir n, Leads d root dir n ∧ endsInSlash root = false ∧ d.get? (dir ++ [n]) ≠ none := by
  simp only [walk, bind, Except.bind] at h
  split at h
  · cases h
  next place hr =>
  rcases resolve_cases hd hr with ⟨l, mode, rfl⟩ | ⟨hs, dir, n, hl⟩
  · exact absurd (resolve_dir_of_false hr) (hb _ _)
  refine ⟨dir, n, hl, hs, fun hg => ?_⟩
  rw [hl.resolve_vacant hs hg] at hr
  cases hr
  cases h

theorem walk_self (hd : Tree d) (hb : ∀ base mode, d.resolve true root ≠ .ok (.entry base (.dir mode)))
    {found : List Found} (h : d.walk root = .ok found) :
    ∃ kind, found = [⟨root, kind⟩] ∧ kind ≠ .closed ∧
      (kind = .file → ∃ l e, Spells d root root l ∧ d.get? l = some e ∧ e.isFile = true) := by
  simp only [walk, bind, Except.bind] at h
  split at h
  · cases h
  next place hr =>
  split at h
  · cases h
  · exact absurd (resolve_dir_of_false hr) (hb _ _)
  · split at h
    · cases h
    next place' hr' =>
    split at h
    · cases h
    · exact absurd hr' (hb _ _)
    · cases h
      exact ⟨.other, rfl, by simp, by simp⟩
  · next l e hdir hlink =>
    cases h
    refine ⟨_, rfl, by split <;> simp, fun hk => ?_⟩
    rcases resolve_cases hd hr with ⟨_, mode, heq⟩ | ⟨hs, dir, n, hl⟩
    · cases heq
      exact absurd rfl (hdir _)
    refine ⟨dir ++ [n], e, .self hb hs hl, ?_, by by_contra hf; simp [hf] at hk⟩
    cases hg : d.get? (dir ++ [n]) with
    | none => rw [hl.resolve_vacant hs hg] at hr; cases hr
    | some e' =>
      by_cases hl' : ∃ target, e' = .link target
      · obtain ⟨target, rfl⟩ := hl'
        obtain ⟨k, hk'⟩ := hl.resolve_eq hs false
        rw [hk', walkSteps_cons] at hr
        simp only [hl.enter, hl.name.ne_dot, hl.name.ne_dots, Nat.not_lt.2 hl.short, hg, Bool.not_true,
          Bool.false_eq_true, ↓reduceIte, List.isEmpty_nil, Bool.not_false, Bool.and_self] at hr
        cases hr
        exact absurd rfl (hlink target)
      · rw [hl.resolve_entry hs hg fun target ht => hl' ⟨target, ht⟩] at hr
        cases hr
        rfl

end Prune.Disk

namespace Prune.Sources

open Disk

variable {d d' : Disk} {root p : Path} {extensions : List Bytes} {l : Location} {e : Entry}
  {files : List Path} {found : List Found}

/-- What a sift returns, whatever becomes of the temporaries. -/
def sifted (extensions : List Bytes) : List Found → Except Problem (List Path)
  | [] => .ok []
  | f :: rest =>
    if f.kind = .closed then .error (.walk f.path .denied)
    else if f.kind = .other then sifted extensions rest
    else if !Utf8.isValid f.path.text then .error (.notText f.path)
    else if Artefact.isTemporary f.path then sifted extensions rest
    else (sifted extensions rest).map fun files => if isSource extensions f.path then f.path :: files else files

/-- The sources under a root as a disk stands. -/
def listed (d : Disk) (root : Path) (extensions : List Bytes) : Except Problem (List Path) :=
  match d.walk root with
  | .error f => .error (.walk root f)
  | .ok found => (sifted extensions found).map (sortBy Path.le)

def filePaths (found : List Found) : List Path := (found.filter (·.kind = .file)).map (·.path)

theorem mem_filePaths : p ∈ filePaths found ↔ ⟨p, .file⟩ ∈ found := by
  simp only [filePaths, List.mem_map, List.mem_filter, decide_eq_true_eq]
  constructor
  · rintro ⟨⟨q, kind⟩, ⟨hm, rfl⟩, rfl⟩
    exact hm
  · exact fun h => ⟨⟨p, .file⟩, ⟨h, rfl⟩, rfl⟩

/-- Nothing met keeps the sources from being told. -/
def Clear (found : List Found) : Prop :=
  ∀ f ∈ found, f.kind ≠ .closed ∧ (f.kind = .file → Utf8.isValid f.path.text = true)

def isListed (extensions : List Bytes) (p : Path) : Bool := !Artefact.isTemporary p && isSource extensions p

theorem sifted_of_clear (h : Clear found) :
    sifted extensions found = .ok ((filePaths found).filter (isListed extensions)) := by
  induction found with
  | nil => rfl
  | cons f found ih =>
    have ih := ih fun g hg => h g (by simp [hg])
    obtain ⟨hc, hv⟩ := h f (by simp)
    rw [sifted, if_neg hc]
    split
    · next ho => simp [ih, filePaths, ho]
    next ho =>
    have hf : f.kind = .file := by cases hk : f.kind <;> simp_all
    simp only [hv hf, Bool.not_true, Bool.false_eq_true, ↓reduceIte]
    split
    · next ht => simp [ih, filePaths, hf, isListed, ht]
    · next ht =>
      rw [ih]
      by_cases hs : isSource extensions f.path = true <;> simp [Except.map, filePaths, hf, isListed, ht, hs]

theorem clear_of_sifted {files : List Path} (h : sifted extensions found = .ok files) : Clear found := by
  induction found generalizing files with
  | nil => exact fun f hf => absurd hf (by simp)
  | cons f found ih =>
    rw [sifted] at h
    split at h
    · cases h
    next hc =>
    have tail : ∀ {fs}, sifted extensions found = .ok fs → (f.kind = .file → Utf8.isValid f.path.text = true) →
        Clear (f :: found) := by
      intro fs hfs hv g hg
      rcases List.mem_cons.1 hg with rfl | hg
      · exact ⟨hc, hv⟩
      · exact ih hfs g hg
    split at h
    · next ho => exact tail h fun hf => by simp [hf] at ho
    next ho =>
    split at h
    · cases h
    next hv =>
    have hv : Utf8.isValid f.path.text = true := by simpa using hv
    split at h
    · exact tail h fun _ => hv
    · cases hs : sifted extensions found with
      | error e => rw [hs] at h; cases h
      | ok fs => exact tail hs fun _ => hv

theorem spells_of_met (hd : Tree d) (hw : d.walk root = .ok found) (h : ⟨p, .file⟩ ∈ found) :
    ∃ l e, Spells d root p l ∧ d.get? l = some e ∧ e.isFile = true := by
  by_cases hb : ∃ base mode, d.resolve true root = .ok (.entry base (.dir mode))
  · obtain ⟨base, mode, hb⟩ := hb
    rw [walk_dir hd hb] at hw
    cases hw
    rw [foundAt] at h
    split at h
    · have h := (List.mem_cons.1 h).resolve_left (by simp)
      obtain ⟨ns, e, hm, -, hf⟩ := mem_foundBelow_iff.1 h
      obtain ⟨hne, hg⟩ := (mem_below_iff hd).1 hm
      obtain ⟨rfl, hf⟩ := mem_meetings.1 hf
      exact ⟨base ++ ns, e, .below hb hne fun n hn => hd.name hg n (by simp [hn]), hg, by simpa using hf⟩
    · simp at h
  · simp only [not_exists] at hb
    obtain ⟨kind, rfl, -, hk⟩ := walk_self hd hb hw
    obtain ⟨rfl, rfl⟩ : p = root ∧ kind = .file := by simpa [eq_comm] using h
    exact hk rfl

/-- Where nothing is hidden, every file is met. -/
theorem met_of_spells (hd : Tree d) (hw : d.walk root = .ok found) (hc : Clear found) (h : Spells d root p l)
    (hg : d.get? l = some e) (he : e.isFile = true) : ⟨p, .file⟩ ∈ found := by
  cases h with
  | @below base mode ns hb hne hn =>
    rw [walk_dir hd hb] at hw
    cases hw
    rw [foundAt] at hc ⊢
    split at hc
    · next hr =>
      rw [if_pos hr]
      refine List.mem_cons_of_mem _ (mem_foundBelow_iff.2 ⟨ns, e, (mem_below_iff hd).2 ⟨hne, hg⟩, ?_,
        mem_meetings.2 ⟨rfl, .inl ⟨rfl, he⟩⟩⟩)
      rintro ⟨n, -, hcl⟩
      obtain ⟨f, hf, hk⟩ := exists_closed hd (isClosed_base hd hb hr) hcl
      exact (hc f (.tail _ hf)).1 hk
    · exact absurd rfl (hc ⟨root, .closed⟩ (by simp)).1
  | self hb hs hl =>
    rw [hl.walk hs hg (by rintro mode rfl; cases he) (by rintro target rfl; cases he)] at hw
    cases hw
    simp [he]

theorem filePaths_flatMap (root : Path) (closed : List Bytes → Bool) (xs : List (List Bytes × Entry)) :
    filePaths (xs.flatMap fun x => meetings (spelled root x.1) x.2 (closed x.1)) =
      (xs.filter (·.2.isFile)).map fun x => spelled root x.1 := by
  induction xs with
  | nil => rfl
  | cons x xs ih =>
    simp only [filePaths, List.flatMap_cons, List.filter_append, List.map_append] at ih ⊢
    rw [ih]
    by_cases he : x.2.isFile = true
    · simp [meetings, he]
    · cases closed x.1 <;> simp [meetings, he]

theorem nodup_filePaths (hd : Tree d) (hw : d.walk root = .ok found) : (filePaths found).Nodup := by
  by_cases hb : ∃ base mode, d.resolve true root = .ok (.entry base (.dir mode))
  · obtain ⟨base, mode, hb⟩ := hb
    rw [walk_dir hd hb] at hw
    cases hw
    rw [foundAt]
    split
    · have hperm : ∀ xs : List Found, (filePaths (sortBy (fun a b => a.path.le b.path) xs)).Perm (filePaths xs) :=
        fun xs => ((sortBy_perm xs).filter _).map _
      rw [show filePaths (⟨root, .other⟩ :: d.foundBelow root base) = filePaths (d.foundBelow root base) from rfl,
        foundBelow, (hperm _).nodup_iff, filePaths_flatMap]
      refine List.Nodup.map_on (fun x hx y hy hxy => ?_) (((nodup_below hd base).filter _).filter _)
      have hx := (mem_below_iff hd).1 (List.mem_of_mem_filter (List.mem_of_mem_filter hx))
      have hy := (mem_below_iff hd).1 (List.mem_of_mem_filter (List.mem_of_mem_filter hy))
      have sx : Spells d root (spelled root x.1) (base ++ x.1) :=
        .below hb hx.1 fun n hn => hd.name hx.2 n (by simp [hn])
      have sy : Spells d root (spelled root y.1) (base ++ y.1) :=
        .below hb hy.1 fun n hn => hd.name hy.2 n (by simp [hn])
      have h1 : x.1 = y.1 := List.append_cancel_left (sx.location_unique sy hxy)
      rw [h1, hy.2] at hx
      exact Prod.ext h1 (Option.some.inj hx.2).symm
    · simp [filePaths]
  · simp only [not_exists] at hb
    obtain ⟨kind, rfl, -⟩ := walk_self hd hb hw
    cases kind <;> simp [filePaths]

/-- The sources under a root: each once, in the order of their paths. -/
structure Listing (d : Disk) (root : Path) (extensions : List Bytes) (files : List Path) : Prop where
  sorted : files.Pairwise fun p q => p.lt q = true
  mem_iff : ∀ p, p ∈ files ↔ isListed extensions p = true ∧
    ∃ l e, Spells d root p l ∧ d.get? l = some e ∧ e.isFile = true

theorem listing_of_clear (hd : Tree d) (hw : d.walk root = .ok found) (hc : Clear found) {order : List Found}
    (ho : order.Perm found) :
    Listing d root extensions (sortBy Path.le ((filePaths order).filter (isListed extensions))) := by
  have hpaths : (filePaths order).Perm (filePaths found) := (ho.filter _).map _
  have hmem : ∀ p, p ∈ sortBy Path.le ((filePaths order).filter (isListed extensions)) ↔
      isListed extensions p = true ∧ ∃ l e, Spells d root p l ∧ d.get? l = some e ∧ e.isFile = true := by
    intro p
    rw [(sortBy_perm _).mem_iff, List.mem_filter, hpaths.mem_iff, mem_filePaths, and_comm]
    refine and_congr_right fun _ => ⟨spells_of_met hd hw, ?_⟩
    rintro ⟨l, e, hsp, hg, he⟩
    exact met_of_spells hd hw hc hsp hg he
  refine ⟨?_, hmem⟩
  have hle := pairwise_sortBy Path.le_trans Path.le_total ((filePaths order).filter (isListed extensions))
  have hnodup : (sortBy Path.le ((filePaths order).filter (isListed extensions))).Nodup :=
    (sortBy_perm _).nodup_iff.2 ((hpaths.nodup_iff.2 (nodup_filePaths hd hw)).filter _)
  refine (hle.and hnodup).imp_of_mem fun {p q} hp hq ⟨hpq, hne⟩ => ?_
  obtain ⟨-, l, e, hsp, -⟩ := (hmem p).1 hp
  obtain ⟨-, l', e', hsq, -⟩ := (hmem q).1 hq
  refine Path.lt_iff.2 (lt_of_le_of_ne (Path.le_iff.1 hpq) fun hk => hne ?_)
  exact hsp.path_unique hsq (.inr hk)

theorem listed_ok_iff : listed d root extensions = .ok files ↔ ∃ found, d.walk root = .ok found ∧ Clear found ∧
    files = sortBy Path.le ((filePaths found).filter (isListed extensions)) := by
  constructor
  · intro h
    unfold listed at h
    split at h
    · cases h
    next found hw =>
    cases hs : sifted extensions found with
    | error e => rw [hs] at h; cases h
    | ok fs =>
      have hc := clear_of_sifted hs
      rw [sifted_of_clear hc] at h
      cases h
      exact ⟨found, hw, hc, rfl⟩
  · rintro ⟨found, hw, hc, rfl⟩
    simp only [listed, hw, sifted_of_clear hc]
    rfl

theorem listing_of_listed (hd : Tree d) (h : listed d root extensions = .ok files) :
    Listing d root extensions files ∧
      ∀ p l e, Spells d root p l → d.get? l = some e → e.isFile = true → Utf8.isValid p.text = true := by
  obtain ⟨found, hw, hc, rfl⟩ := listed_ok_iff.1 h
  exact ⟨listing_of_clear hd hw hc (.refl found),
    fun p l e hsp hg he => (hc _ (met_of_spells hd hw hc hsp hg he)).2 rfl⟩

theorem Listing.unique {files' : List Path} (h : Listing d root extensions files)
    (h' : Listing d' root extensions files')
    (hsame : ∀ p, isListed extensions p = true →
      ((∃ l e, Spells d root p l ∧ d.get? l = some e ∧ e.isFile = true) ↔
        ∃ l e, Spells d' root p l ∧ d'.get? l = some e ∧ e.isFile = true)) : files = files' := by
  refine eq_of_pairwise_lt h.sorted h'.sorted fun p => ?_
  rw [h.mem_iff, h'.mem_iff]
  exact and_congr_right (hsame p)

theorem listed_congr (hd : Tree d) (hd' : Tree d') (hv : d'.get? = d.get?) (hc : d'.cwd = d.cwd)
    (h : listed d root extensions = .ok files) : listed d' root extensions = .ok files := by
  obtain ⟨files', h'⟩ : ∃ files', listed d' root extensions = .ok files' := by
    obtain ⟨found, hw, hclear, -⟩ := listed_ok_iff.1 h
    obtain ⟨found', hw', hmem⟩ := walk_congr hd hd' hv hc hw
    exact ⟨_, listed_ok_iff.2 ⟨found', hw', fun f hf => hclear f ((hmem f).1 hf), rfl⟩⟩
  have ha : Alike d d' := .of_get? hc fun l => by rw [hv]
  obtain ⟨hl, -⟩ := listing_of_listed hd h
  obtain ⟨hl', -⟩ := listing_of_listed hd' h'
  rw [h', hl.unique hl' fun p _ => ⟨?_, ?_⟩]
  · rintro ⟨l, e, hsp, hg, he⟩
    exact ⟨l, e, hsp.alike ha hd hd', by rw [hv, hg], he⟩
  · rintro ⟨l, e, hsp, hg, he⟩
    exact ⟨l, e, hsp.alike ha.symm hd' hd, by rw [← hv, hg], he⟩

/-- A walk from `root` comes to its end. -/
def Walkable (d : Disk) (root : Path) : Prop := ∃ found, d.walk root = .ok found ∧ ∀ f ∈ found, f.kind ≠ .closed

theorem Walkable.alike (hd : Tree d) (hd' : Tree d') (ha : Alike d d') {base : Location} {mode : Nat}
    (hb : d.resolve true root = .ok (.entry base (.dir mode))) (h : Walkable d root) : Walkable d' root := by
  obtain ⟨found, hw, hc⟩ := h
  rw [walk_dir hd hb] at hw
  cases hw
  refine ⟨_, walk_dir hd' ((ha.resolve_dir hd hd').2 hb), ?_⟩
  rw [foundAt] at hc ⊢
  split at hc
  · next hr =>
    rw [if_pos hr]
    intro f hf hk
    rcases List.mem_cons.1 hf with rfl | hf
    · cases hk
    obtain ⟨ns, e, hm, -, hf⟩ := mem_foundBelow_iff.1 hf
    obtain ⟨-, hf⟩ := mem_meetings.1 hf
    -- a directory that cannot be listed was there before
    have hcl : d.isClosed base ns = true := isClosed_alike ha base ns ▸ (by simpa [hk] using hf : _ ∧ _).2
    obtain ⟨g, hg', hk'⟩ := exists_closed hd (isClosed_base hd hb hr) hcl
    exact hc g (.tail _ hg') hk'
  · exact absurd rfl (hc ⟨root, .closed⟩ (by simp))

theorem Walkable.clear (hd : Tree d) (h : Walkable d root)
    (hvalid : ∀ p l e, Spells d root p l → d.get? l = some e → e.isFile = true → Utf8.isValid p.text = true) :
    ∃ found, d.walk root = .ok found ∧ Clear found := by
  obtain ⟨found, hw, hc⟩ := h
  refine ⟨found, hw, fun f hf => ⟨hc f hf, fun hk => ?_⟩⟩
  obtain ⟨path, kind⟩ := f
  obtain rfl : kind = .file := hk
  obtain ⟨l, e, hsp, hg, he⟩ := spells_of_met hd hw hf
  exact hvalid path l e hsp hg he

/-- The sources can still be told while the directories stay, if a root that is a file stays too and
all files are spelled in UTF-8. -/
theorem exists_listed (hd : Tree d) (hd' : Tree d') (ha : Alike d d') (h : listed d root extensions = .ok files)
    (hlink : ∀ dir n, Leads d root dir n → ∀ target, d.get? (dir ++ [n]) ≠ some (.link target))
    (hroot : ∀ l, Spells d root root l → d.get? l ≠ none → d'.get? l ≠ none)
    (hvalid : ∀ p l e, Spells d' root p l → d'.get? l = some e → e.isFile = true → Utf8.isValid p.text = true) :
    ∃ files', listed d' root extensions = .ok files' := by
  suffices Walkable d' root by
    obtain ⟨found, hw, hc⟩ := this.clear hd' hvalid
    exact ⟨_, listed_ok_iff.2 ⟨found, hw, hc, rfl⟩⟩
  obtain ⟨found, hw, hc, -⟩ := listed_ok_iff.1 h
  by_cases hb : ∃ base mode, d.resolve true root = .ok (.entry base (.dir mode))
  · obtain ⟨base, mode, hb⟩ := hb
    exact Walkable.alike hd hd' ha hb ⟨found, hw, fun f hf => (hc f hf).1⟩
  · simp only [not_exists] at hb
    obtain ⟨dir, n, hl, hs, hne⟩ := leads_of_walk hd hb hw
    obtain ⟨e, hg⟩ := Option.ne_none_iff_exists'.1 (hroot _ (.self hb hs hl) hne)
    have hw' := (hl.alike ha).walk hs hg
      (by
        rintro mode rfl
        have hg := ha.dir_iff.1 hg
        refine hb (dir ++ [n]) mode (hl.resolve_entry hs hg (by simp)))
      (by
        rintro target rfl
        exact hlink dir n hl target (ha.link_iff.1 hg))
    refine ⟨_, hw', fun f hf => ?_⟩
    rw [List.mem_singleton.1 hf]
    dsimp only
    split <;> simp

end Prune.Sources
