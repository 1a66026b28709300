import Prune.Disk.Access
import Prune.Proofs.Spelling

/-!
# Where paths lead

Only directories and links decide where the directory part of a path leads. `Walks` is that walk as
a relation, and `Alike` disks, which have the same directories and links, agree on it. A path that
`Leads` to a name in a directory keeps doing so while files come and go; what is found at its end is
what the view of the disk says about that one location.
-/

namespace Prune.Disk

variable {d d' d'' : Disk} {p : Path} {l dir here : Location} {n : Bytes} {k k' : Nat}
  {xs ys : List Bytes} {follow : Bool}
variable {e : Entry}

/-- What of the entry at a location decides where paths go. -/
def bone : Option Entry → Option Entry
  | some (.dir mode) => some (.dir mode)
  | some (.link target) => some (.link target)
  | _ => none

@[simp] theorem bone_none : bone none = none := rfl

@[simp] theorem bone_file (mode : Nat) (content : Bytes) : bone (some (.file mode content)) = none := rfl

theorem bone_eq_dir_iff {e : Option Entry} {mode : Nat} :
    bone e = some (.dir mode) ↔ e = some (.dir mode) := by
  rcases e with _ | (_ | _ | _ | _) <;> simp [bone]

theorem bone_eq_link_iff {e : Option Entry} {target : Bytes} :
    bone e = some (.link target) ↔ e = some (.link target) := by
  rcases e with _ | (_ | _ | _ | _) <;> simp [bone]

def IsDir (d : Disk) (l : Location) : Prop := ∃ mode, d.get? l = some (.dir mode)

theorem isDir_root (d : Disk) : d.IsDir [] := ⟨_, get?_root d⟩

theorem bone_ne_none_of_isDir (h : d.IsDir l) : bone (d.get? l) ≠ none := by
  obtain ⟨mode, hm⟩ := h
  simp [hm, bone]

theorem mayEnter_iff : d.mayEnter l = true ↔ ∃ mode, d.get? l = some (.dir mode) ∧ allows mode runBit = true := by
  unfold mayEnter
  split
  · next mode h => simp [h]
  · next h => simpa using fun mode hm => absurd hm (h mode)

theorem mayAlter_iff : d.mayAlter l = true ↔
    ∃ mode, d.get? l = some (.dir mode) ∧ allows mode runBit = true ∧ allows mode writeBit = true := by
  unfold mayAlter
  split
  · next mode h => simp [h]
  · next h => simpa using fun mode hm => absurd hm (h mode)

theorem isDir_of_mayEnter (h : d.mayEnter l = true) : d.IsDir l :=
  let ⟨mode, hm, _⟩ := mayEnter_iff.1 h
  ⟨mode, hm⟩

/-- Each location has one entry, which stands in a directory and is called what an entry can be
called. -/
structure Tree (d : Disk) : Prop where
  nodup : (d.entries.map (·.1)).Nodup
  parent : ∀ {l e}, d.get? l = some e → d.IsDir l.dropLast
  name : ∀ {l e}, d.get? l = some e → ∀ n ∈ l, IsName n
  cwd : d.IsDir d.cwd

theorem find?_eq_none_iff {l : Location} {es : List (Location × Entry)} :
    find? l es = none ↔ l ∉ es.map (·.1) := by
  induction es with
  | nil => simp [find?]
  | cons x es ih =>
    by_cases hx : x.1 = l
    · simp [find?, hx]
    · simp [find?, hx, ih, Ne.symm hx]

theorem get?_of_mem (h : (d.entries.map (·.1)).Nodup) (hm : (l, e) ∈ d.entries)
    (hl : l ≠ []) : d.get? l = some e := by
  rw [get?, if_neg hl]
  generalize d.entries = es at h hm
  induction es with
  | nil => simp at hm
  | cons x es ih =>
    simp only [List.map_cons, List.nodup_cons] at h
    rcases List.mem_cons.1 hm with rfl | hm
    · simp [find?]
    · have : x.1 ≠ l := fun hx => h.1 (hx ▸ List.mem_map_of_mem (f := (·.1)) hm)
      simp [find?, this, ih h.2 hm]

theorem mem_of_get? (h : d.get? l = some e) (hl : l ≠ []) : (l, e) ∈ d.entries := by
  rw [get?, if_neg hl] at h
  generalize d.entries = es at h
  induction es with
  | nil => simp [find?] at h
  | cons x es ih =>
    by_cases hx : x.1 = l
    · simp only [find?, hx, ↓reduceIte, Option.some.injEq] at h
      simp [← hx, ← h]
    · simp only [find?, hx, ↓reduceIte] at h
      exact List.mem_cons_of_mem _ (ih h)

namespace Tree

theorem congr (hd : Tree d) (he : d'.entries = d.entries) (hc : d'.cwd = d.cwd) : Tree d' := by
  have hg : d'.get? = d.get? := by funext l; simp [get?, he]
  refine ⟨he ▸ hd.nodup, ?_, ?_, ?_⟩
  · intro l e h
    rw [hg] at h
    simpa [IsDir, hg] using hd.parent h
  · intro l e h
    exact hd.name (hg ▸ h)
  · simpa [IsDir, hg, hc] using hd.cwd

theorem isDir_dropLast (hd : Tree d) (h : d.IsDir l) : d.IsDir l.dropLast := hd.parent h.choose_spec

theorem isDir_append (hd : Tree d) {ns : Location} (h : d.get? (l ++ ns) = some e)
    (hne : ns ≠ []) : d.IsDir l := by
  induction ns using List.reverseRecOn generalizing e with
  | nil => exact absurd rfl hne
  | append_singleton ns n ih =>
    obtain ⟨mode, h⟩ := hd.parent h
    rw [← List.append_assoc, List.dropLast_concat] at h
    by_cases hns : ns = []
    · exact ⟨mode, by simpa [hns] using h⟩
    · exact ih h hns

theorem erase (hd : Tree d) (hl : l ≠ []) (hb : ¬ d.IsDir l) : Tree (d.erase l) := by
  have hdir : ∀ {k}, d.IsDir k → (d.erase l).IsDir k := by
    rintro k ⟨mode, hk⟩
    have : k ≠ l := fun h => hb ⟨mode, h ▸ hk⟩
    exact ⟨mode, by rw [get?_erase hl, if_neg this, hk]⟩
  have hget : ∀ {k e}, (d.erase l).get? k = some e → d.get? k = some e := by
    intro k e h
    rw [get?_erase hl] at h
    split at h
    · cases h
    · exact h
  exact ⟨(List.filter_sublist.map _).nodup hd.nodup, fun h => hdir (hd.parent (hget h)),
    fun h => hd.name (hget h), hdir hd.cwd⟩

theorem put (hd : Tree d) (hdir : d.IsDir dir) (hn : IsName n) (hb : ¬ d.IsDir (dir ++ [n])) (e : Entry) :
    Tree (d.put (dir ++ [n]) e) := by
  have hl : dir ++ [n] ≠ [] := by simp
  have he := hd.erase hl hb
  have keep : ∀ {k}, d.IsDir k → (d.put (dir ++ [n]) e).IsDir k := by
    rintro k ⟨mode, hk⟩
    have : k ≠ dir ++ [n] := fun h => hb ⟨mode, h ▸ hk⟩
    exact ⟨mode, by rw [get?_put hl, if_neg this, hk]⟩
  refine ⟨?_, ?_, ?_, keep hd.cwd⟩
  · refine List.nodup_cons.2 ⟨?_, he.nodup⟩
    simp [Disk.erase]
  · intro k e' h
    rw [get?_put hl] at h
    split at h
    · next hk => exact keep (by rw [hk, List.dropLast_concat]; exact hdir)
    · exact keep (hd.parent h)
  · intro k e' h
    rw [get?_put hl] at h
    split at h
    · next hk =>
      obtain ⟨mode, hm⟩ := hdir
      intro m hmem
      rcases List.mem_append.1 (hk ▸ hmem) with h' | h'
      · exact hd.name hm m h'
      · rwa [List.mem_singleton.1 h']
    · exact hd.name h

end Tree

/-- The same directories and links, and the same place to start from. -/
structure Alike (d d' : Disk) : Prop where
  cwd : d'.cwd = d.cwd
  bone : ∀ l, bone (d'.get? l) = bone (d.get? l)

namespace Alike

theorem refl (d : Disk) : Alike d d := ⟨rfl, fun _ => rfl⟩

theorem symm (h : Alike d d') : Alike d' d := ⟨h.cwd.symm, fun l => (h.bone l).symm⟩

theorem trans (h : Alike d d') (h' : Alike d' d'') : Alike d d'' :=
  ⟨h'.cwd.trans h.cwd, fun l => (h'.bone l).trans (h.bone l)⟩

theorem dir_iff (h : Alike d d') {mode : Nat} : d'.get? l = some (.dir mode) ↔ d.get? l = some (.dir mode) := by
  rw [← bone_eq_dir_iff, h.bone, bone_eq_dir_iff]

theorem link_iff (h : Alike d d') {target : Bytes} :
    d'.get? l = some (.link target) ↔ d.get? l = some (.link target) := by
  rw [← bone_eq_link_iff, h.bone, bone_eq_link_iff]

theorem mayEnter (h : Alike d d') (l : Location) : d'.mayEnter l = d.mayEnter l := by
  rw [Bool.eq_iff_iff]
  simp only [mayEnter_iff, h.dir_iff]

theorem mayAlter (h : Alike d d') (l : Location) : d'.mayAlter l = d.mayAlter l := by
  rw [Bool.eq_iff_iff]
  simp only [mayAlter_iff, h.dir_iff]

theorem of_get? (hc : d'.cwd = d.cwd) (h : ∀ l, d'.get? l = d.get? l) : Alike d d' := ⟨hc, fun l => by rw [h]⟩

end Alike

theorem alike_put (hl : l ≠ []) (hb : bone (d.get? l) = none) (he : bone (some e) = none) :
    Alike d (d.put l e) := by
  refine ⟨rfl, fun k => ?_⟩
  rw [get?_put hl]
  split
  · next hk => rw [he, hk, hb]
  · rfl

theorem alike_erase (hl : l ≠ []) (hb : bone (d.get? l) = none) : Alike d (d.erase l) := by
  refine ⟨rfl, fun k => ?_⟩
  rw [get?_erase hl]
  split
  · next hk => rw [bone_none, hk, hb]
  · rfl

/-! ### Walking -/

theorem isDir_origin_of (hh : d.IsDir here) (text : Bytes) : d.IsDir (origin here text) := by
  unfold origin
  split
  · exact isDir_root d
  · exact hh

/-- The steps `xs` lead from the directory `here` to the directory `l`, and of `k` links that may be
followed `k'` are left. -/
inductive Walks (d : Disk) : Nat → Location → List Bytes → Nat → Location → Prop
  | nil (k : Nat) (here : Location) : Walks d k here [] k here
  | dot {k k' : Nat} {here l : Location} {xs : List Bytes} (he : d.mayEnter here = true)
      (h : Walks d k here xs k' l) : Walks d k here ([Path.dot] :: xs) k' l
  | up {k k' : Nat} {here l : Location} {xs : List Bytes} (he : d.mayEnter here = true)
      (h : Walks d k here.dropLast xs k' l) : Walks d k here ([Path.dot, Path.dot] :: xs) k' l
  | dir {k k' mode : Nat} {here l : Location} {s : Bytes} {xs : List Bytes}
      (he : d.mayEnter here = true) (hd : s ≠ [Path.dot]) (hu : s ≠ [Path.dot, Path.dot])
      (hs : s.length ≤ maxName) (hg : d.get? (here ++ [s]) = some (.dir mode))
      (h : Walks d k (here ++ [s]) xs k' l) : Walks d k here (s :: xs) k' l
  | link {k k' : Nat} {here l : Location} {s target : Bytes} {xs : List Bytes}
      (he : d.mayEnter here = true) (hd : s ≠ [Path.dot]) (hu : s ≠ [Path.dot, Path.dot])
      (hs : s.length ≤ maxName) (hg : d.get? (here ++ [s]) = some (.link target))
      (h : Walks d k (origin here target) (steps target ++ xs) k' l) : Walks d (k + 1) here (s :: xs) k' l

/-- Goes on behind a link. -/
def afterLink (d : Disk) (follow : Bool) : Nat → Location → List Bytes → Except Fault Place
  | 0 => fun _ _ => .error .tooManyLinks
  | k + 1 => walkSteps d follow k

theorem walkSteps_eq (k : Nat) : walkSteps d follow k = descend d follow (afterLink d follow k) := by
  cases k <;> rfl

theorem walkSteps_nil (k : Nat) (here : Location) :
    walkSteps d follow k here [] = .ok (.entry here ((d.get? here).getD (.dir plainDirMode))) := by
  rw [walkSteps_eq, descend]

theorem walkSteps_nil_of_isDir (k : Nat) {mode : Nat} (h : d.get? here = some (.dir mode)) :
    walkSteps d follow k here [] = .ok (.entry here (.dir mode)) := by
  rw [walkSteps_nil, h, Option.getD_some]

theorem walkSteps_cons (k : Nat) (here : Location) (s : Bytes) (rest : List Bytes) :
    walkSteps d follow k here (s :: rest) =
      if !d.mayEnter here then .error .denied
      else if s = [Path.dot] then walkSteps d follow k here rest
      else if s = [Path.dot, Path.dot] then walkSteps d follow k here.dropLast rest
      else if maxName < s.length then .error .nameTooLong
      else
        match d.get? (here ++ [s]) with
        | none => if rest.isEmpty then .ok (.vacant (here ++ [s])) else .error .notFound
        | some (.dir _) => walkSteps d follow k (here ++ [s]) rest
        | some (.link target) =>
          if rest.isEmpty && !follow then .ok (.entry (here ++ [s]) (.link target))
          else afterLink d follow k (origin here target) (steps target ++ rest)
        | some e => if rest.isEmpty then .ok (.entry (here ++ [s]) e) else .error .notDirectory := by
  cases k <;> rfl

/-- The steps of a path are told from what stands at each location. -/
theorem walkSteps_congr {d d' : Disk} (hv : d'.get? = d.get?) (follow : Bool) (k : Nat) (here : Location)
    (xs : List Bytes) : d'.walkSteps follow k here xs = d.walkSteps follow k here xs := by
  have henter : ∀ l, d'.mayEnter l = d.mayEnter l := fun l => by simp [mayEnter, hv]
  have step : ∀ {k}, afterLink d' follow k = afterLink d follow k → ∀ here xs,
      d'.walkSteps follow k here xs = d.walkSteps follow k here xs := by
    intro k hlink here xs
    induction xs generalizing here with
    | nil => rw [walkSteps_nil, walkSteps_nil, hv]
    | cons x xs ih => simp only [walkSteps_cons, henter, hv, ih, hlink]
  induction k generalizing here xs with
  | zero => exact step rfl here xs
  | succ k ih =>
    have hlink : afterLink d' follow (k + 1) = afterLink d follow (k + 1) := funext fun here => funext fun xs => ih here xs
    exact step hlink here xs

theorem resolve_congr {d d' : Disk} (hv : d'.get? = d.get?) (hc : d'.cwd = d.cwd) (follow : Bool) (p : Path) :
    d'.resolve follow p = d.resolve follow p := by
  simp only [resolve, hc, walkSteps_congr hv]

namespace Walks

theorem alike (hd : Alike d d') (h : Walks d k here xs k' l) : Walks d' k here xs k' l := by
  induction h with
  | nil k here => exact .nil k here
  | dot he _ ih => exact .dot (hd.mayEnter _ ▸ he) ih
  | up he _ ih => exact .up (hd.mayEnter _ ▸ he) ih
  | dir he hn hu hs hg _ ih => exact .dir (hd.mayEnter _ ▸ he) hn hu hs (hd.dir_iff.2 hg) ih
  | link he hn hu hs hg _ ih => exact .link (hd.mayEnter _ ▸ he) hn hu hs (hd.link_iff.2 hg) ih

/-- What is left to do behind a walk. The last link of a path is only followed when that is asked
for, so without it there must be something left. -/
theorem walkSteps_append (h : Walks d k here xs k' l) (hf : follow = true ∨ ys ≠ []) :
    walkSteps d follow k here (xs ++ ys) = walkSteps d follow k' l ys := by
  induction h with
  | nil => rfl
  | dot he _ ih | up he _ ih => rw [List.cons_append, walkSteps_cons]; simp [he, ih]
  | dir he hn hu hs hg _ ih =>
    rw [List.cons_append, walkSteps_cons]
    simp [he, hn, hu, Nat.not_lt.2 hs, hg, ih]
  | @link k k' here l s target xs he hn hu hs hg _ ih =>
    have : ((xs ++ ys).isEmpty && !follow) = false := by
      rcases hf with rfl | hf
      · simp
      · simp [hf]
    rw [List.cons_append, walkSteps_cons]
    simp only [he, hn, hu, Nat.not_lt.2 hs, hg, this, Bool.not_true, Bool.false_eq_true, ↓reduceIte,
      afterLink, ← List.append_assoc, ih]

theorem walkSteps_eq {mode : Nat} (h : Walks d k here xs k' l) (hl : d.get? l = some (.dir mode)) :
    walkSteps d true k here xs = .ok (.entry l (.dir mode)) := by
  rw [← List.append_nil xs, h.walkSteps_append (.inl rfl), walkSteps_nil_of_isDir k' hl]

theorem isDir (hd : Tree d) (h : Walks d k here xs k' l) (hh : d.IsDir here) : d.IsDir l := by
  induction h with
  | nil => exact hh
  | dot _ _ ih => exact ih hh
  | up _ _ ih => exact ih (hd.isDir_dropLast hh)
  | dir _ _ _ _ hg _ ih => exact ih ⟨_, hg⟩
  | @link _ _ _ _ _ target _ _ _ _ _ _ _ ih => exact ih (isDir_origin_of hh target)

theorem unique (hd : Tree d) (hh : d.IsDir here) {j : Nat} {l' : Location} (h : Walks d k here xs k' l)
    (h' : Walks d k here xs j l') : l' = l := by
  obtain ⟨mode, hl⟩ := h.isDir hd hh
  obtain ⟨mode', hl'⟩ := h'.isDir hd hh
  have := (h.walkSteps_eq hl).symm.trans (h'.walkSteps_eq hl')
  cases this
  rfl

theorem append {k'' : Nat} {l' : Location} (h : Walks d k here xs k' l) (h' : Walks d k' l ys k'' l') :
    Walks d k here (xs ++ ys) k'' l' := by
  induction h with
  | nil => exact h'
  | dot he _ ih => exact .dot he (ih h')
  | up he _ ih => exact .up he (ih h')
  | dir he hn hu hs hg _ ih => exact .dir he hn hu hs hg (ih h')
  | link he hn hu hs hg _ ih => exact .link he hn hu hs hg (List.append_assoc .. ▸ ih h')

theorem split (h : Walks d k here (xs ++ ys) k' l) :
    ∃ j m, Walks d k here xs j m ∧ Walks d j m ys k' l := by
  generalize hz : xs ++ ys = zs at h
  induction h generalizing xs with
  | nil k here =>
    obtain ⟨rfl, rfl⟩ := List.append_eq_nil_iff.1 hz
    exact ⟨k, here, .nil k here, .nil k here⟩
  | @dot k k' here l zs he h ih =>
    rcases List.append_eq_cons_iff.1 hz with ⟨rfl, rfl⟩ | ⟨xs, rfl, rfl⟩
    · exact ⟨k, here, .nil k here, .dot he h⟩
    · obtain ⟨j, m, h1, h2⟩ := ih rfl
      exact ⟨j, m, .dot he h1, h2⟩
  | @up k k' here l zs he h ih =>
    rcases List.append_eq_cons_iff.1 hz with ⟨rfl, rfl⟩ | ⟨xs, rfl, rfl⟩
    · exact ⟨k, here, .nil k here, .up he h⟩
    · obtain ⟨j, m, h1, h2⟩ := ih rfl
      exact ⟨j, m, .up he h1, h2⟩
  | @dir k k' mode here l s zs he hn hu hs hg h ih =>
    rcases List.append_eq_cons_iff.1 hz with ⟨rfl, rfl⟩ | ⟨xs, rfl, rfl⟩
    · exact ⟨k, here, .nil k here, .dir he hn hu hs hg h⟩
    · obtain ⟨j, m, h1, h2⟩ := ih rfl
      exact ⟨j, m, .dir he hn hu hs hg h1, h2⟩
  | @link k k' here l s target zs he hn hu hs hg h ih =>
    rcases List.append_eq_cons_iff.1 hz with ⟨rfl, rfl⟩ | ⟨xs, rfl, rfl⟩
    · exact ⟨k + 1, here, .nil _ here, .link he hn hu hs hg h⟩
    · obtain ⟨j, m, h1, h2⟩ := ih (List.append_assoc ..)
      exact ⟨j, m, .link he hn hu hs hg h1, h2⟩

theorem dots (he : d.mayEnter here = true) (hx : ∀ x ∈ xs, x = [Path.dot]) : Walks d k here xs k here := by
  induction xs with
  | nil => exact .nil k here
  | cons x xs ih =>
    obtain rfl := hx x (by simp)
    exact .dot he (ih fun y hy => hx y (by simp [hy]))

theorem eq_of_dots (h : Walks d k here xs k' l) (hx : ∀ x ∈ xs, x = [Path.dot]) : k' = k ∧ l = here := by
  induction h with
  | nil => exact ⟨rfl, rfl⟩
  | dot _ _ ih => exact ih fun x h => hx x (by simp [h])
  | up => exact absurd (hx [Path.dot, Path.dot] (by simp)) (by decide)
  | dir _ hd | link _ hd => exact absurd (hx _ (by simp)) hd

end Walks

theorem exists_walks_of_afterLink {place : Place}
    (hy : ys ≠ [] ∨ follow = true ∧ ∃ l mode, place = .entry l (.dir mode))
    (hlink : ∀ {here xs}, afterLink d follow k here (xs ++ ys) = .ok place →
      ∃ j k' l, k = j + 1 ∧ Walks d j here xs k' l)
    (h : walkSteps d follow k here (xs ++ ys) = .ok place) : ∃ k' l, Walks d k here xs k' l := by
  induction xs generalizing here with
  | nil => exact ⟨k, here, .nil k here⟩
  | cons s xs ih =>
    have hemp : (xs ++ ys).isEmpty = true → follow = true ∧ ∃ l mode, place = .entry l (.dir mode) := by
      intro he
      exact hy.resolve_left fun hne => hne (List.append_eq_nil_iff.1 (List.isEmpty_iff.1 he)).2
    rw [List.cons_append, walkSteps_cons] at h
    split at h
    · cases h
    next hent =>
    have hent : d.mayEnter here = true := by simpa using hent
    split at h
    · next hs =>
      obtain ⟨k', l, hw⟩ := ih h
      exact ⟨k', l, hs ▸ .dot hent hw⟩
    next hsd =>
    split at h
    · next hs =>
      obtain ⟨k', l, hw⟩ := ih h
      exact ⟨k', l, hs ▸ .up hent hw⟩
    next hsu =>
    split at h
    · cases h
    next hlen =>
    have hlen : s.length ≤ maxName := Nat.not_lt.1 hlen
    split at h
    · split at h
      · next he =>
        obtain ⟨-, l, mode, rfl⟩ := hemp he
        cases h
      · cases h
    · next mode hg =>
      obtain ⟨k', l, hw⟩ := ih h
      exact ⟨k', l, .dir hent hsd hsu hlen hg hw⟩
    · next target hg =>
      split at h
      · next he =>
        simp only [Bool.and_eq_true, Bool.not_eq_true'] at he
        exact absurd (hemp he.1).1 (by simp [he.2])
      · rw [← List.append_assoc] at h
        obtain ⟨j, k', l, rfl, hw⟩ := hlink h
        exact ⟨k', l, .link hent hsd hsu hlen hg hw⟩
    · next e hnd _ hg =>
      split at h
      · next he =>
        obtain ⟨-, l, mode, rfl⟩ := hemp he
        cases h
        exact absurd rfl (hnd mode)
      · cases h

/-- A walk that ends well has got through its first part, unless that is all of it and it does not
end at a directory. -/
theorem exists_walks {place : Place} (h : walkSteps d follow k here (xs ++ ys) = .ok place)
    (hy : ys ≠ [] ∨ follow = true ∧ ∃ l mode, place = .entry l (.dir mode)) :
    ∃ k' l, Walks d k here xs k' l := by
  induction k generalizing here xs with
  | zero => exact exists_walks_of_afterLink hy (fun h => nomatch h) h
  | succ k ih =>
    refine exists_walks_of_afterLink hy (fun h => ?_) h
    obtain ⟨k', l, hw⟩ := ih h
    exact ⟨k, k', l, rfl, hw⟩

/-! ### The end of a path -/

/-- `p` names `n` in the directory `dir`, if such a name can be looked up at all. -/
def Names (d : Disk) (p : Path) (dir : Location) (n : Bytes) : Prop :=
  ∃ xs k, names p.text = xs ++ [n] ∧ Walks d maxLinks (origin d.cwd p.text) xs k dir

/-- `p` leads to the name `n` in the directory `dir`, whatever stands there. -/
structure Leads (d : Disk) (p : Path) (dir : Location) (n : Bytes) : Prop where
  text : checkText p.text = .ok ()
  name : IsName n
  short : n.length ≤ maxName
  enter : d.mayEnter dir = true
  walks : Names d p dir n

theorem isDir_origin (hd : Tree d) (text : Bytes) : d.IsDir (origin d.cwd text) := isDir_origin_of hd.cwd text

theorem Names.unique (hd : Tree d) {dir' : Location} {n' : Bytes} (h : Names d p dir n) (h' : Names d p dir' n') :
    dir' = dir ∧ n' = n := by
  obtain ⟨xs, k, hx, hw⟩ := h
  obtain ⟨xs', k', hx', hw'⟩ := h'
  obtain ⟨rfl, hn⟩ := List.append_inj' (hx.symm.trans hx') rfl
  exact ⟨hw.unique hd (isDir_origin hd p.text) hw', by simpa [eq_comm] using hn⟩

theorem isName_of_mem_names {text n : Bytes} (h : n ∈ names text) (hd : n ≠ [Path.dot])
    (hu : n ≠ [Path.dot, Path.dot]) : IsName n :=
  ⟨ne_nil_of_mem_names h, slash_notMem_of_mem_names h, hd, hu⟩

namespace Leads

theorem alike (hd : Alike d d') (h : Leads d p dir n) : Leads d' p dir n := by
  obtain ⟨xs, k, hx, hw⟩ := h.walks
  exact ⟨h.text, h.name, h.short, hd.mayEnter _ ▸ h.enter, xs, k, hx, hd.cwd ▸ hw.alike hd⟩

theorem isDir (h : Leads d p dir n) : d.IsDir dir := isDir_of_mayEnter h.enter

theorem locate (h : Leads d p dir n) : d.locate p = .ok (.named dir n) := by
  obtain ⟨xs, k, hx, hw⟩ := h.walks
  obtain ⟨mode, hm, hr⟩ := mayEnter_iff.1 h.enter
  simp only [Disk.locate, h.text, hx, List.getLast?_concat, List.dropLast_concat, hw.walkSteps_eq hm]
  simp [bind, Except.bind, hr, h.name.ne_dot, h.name.ne_dots, Nat.not_lt.2 h.short, pure, Except.pure]

theorem of_locate (hd : Tree d) (ha : Alike d d') (h : d'.locate p = .ok (.named dir n)) :
    Leads d p dir n := by
  refine alike ha.symm ?_
  unfold Disk.locate at h
  cases ht : checkText p.text with
  | error f => simp [ht, bind, Except.bind] at h
  | ok u =>
    simp only [ht, bind, Except.bind] at h
    split at h
    · simp [pure, Except.pure] at h
    next last hlast =>
    obtain ⟨xs, hx⟩ := List.getLast?_eq_some_iff.1 hlast
    rw [hx, List.dropLast_concat] at h
    split at h
    · cases h
    next place hwalk =>
    split at h
    · cases h
    · next dir' mode =>
      have hw' := hwalk
      rw [← List.append_nil xs] at hw'
      obtain ⟨k, l, hw⟩ := exists_walks hw' (.inr ⟨rfl, _, _, rfl⟩)
      obtain ⟨mode', hl⟩ := (hw.alike ha.symm).isDir hd (ha.cwd ▸ isDir_origin hd p.text)
      rw [← ha.dir_iff] at hl
      rw [hw.walkSteps_append (.inl rfl), walkSteps_nil_of_isDir k hl] at hw'
      obtain ⟨rfl, rfl⟩ : l = dir' ∧ mode' = mode := by simpa using hw'
      have hmem : last ∈ names p.text := by simp [hx]
      split at h
      · cases h
      next hr =>
      split at h
      · simp [pure, Except.pure] at h
      next hdots =>
      split at h
      · cases h
      next hlen =>
      obtain ⟨rfl, rfl⟩ : l = dir ∧ last = n := by simpa [pure, Except.pure] using h
      simp only [Bool.or_eq_true, decide_eq_true_eq, not_or] at hdots
      exact ⟨ht, isName_of_mem_names hmem hdots.1 hdots.2, Nat.not_lt.1 hlen,
        mayEnter_iff.2 ⟨mode', hl, by simpa using hr⟩, xs, k, hx, hw⟩
    · cases h

theorem unique {dir' : Location} {n' : Bytes} (h : Leads d p dir n) (h' : Leads d p dir' n') :
    dir' = dir ∧ n' = n := by
  have := h.locate.symm.trans h'.locate
  simpa [eq_comm] using this

theorem fileName? (h : Leads d p dir n) : p.fileName? = some n := by
  obtain ⟨xs, k, hx, hw⟩ := h.walks
  exact (Path.exists_parent hx h.name).1

variable (h : Leads d p dir n) (hs : endsInSlash p = false)
include h hs

theorem resolve_eq (follow : Bool) : ∃ k, d.resolve follow p = walkSteps d follow k dir [n] := by
  obtain ⟨xs, k, hx, hw⟩ := h.walks
  have hsteps : steps p.text = xs ++ [n] := by
    have : p.text.getLast? ≠ some Path.slash := by simpa [endsInSlash] using hs
    simp [steps, this, hx]
  refine ⟨k, ?_⟩
  rw [resolve, h.text, hsteps, ← hw.walkSteps_append (.inr (by simp))]
  rfl

theorem resolve_vacant (hg : d.get? (dir ++ [n]) = none) :
    d.resolve follow p = .ok (.vacant (dir ++ [n])) := by
  obtain ⟨k, hk⟩ := h.resolve_eq hs follow
  rw [hk, walkSteps_cons]
  simp [h.enter, h.name.ne_dot, h.name.ne_dots, Nat.not_lt.2 h.short, hg]

theorem resolve_entry (hg : d.get? (dir ++ [n]) = some e) (he : ∀ target, e ≠ .link target) :
    d.resolve follow p = .ok (.entry (dir ++ [n]) e) := by
  obtain ⟨k, hk⟩ := h.resolve_eq hs follow
  rw [hk, walkSteps_cons]
  simp only [h.enter, h.name.ne_dot, h.name.ne_dots, Nat.not_lt.2 h.short, hg, Bool.not_true,
    Bool.false_eq_true, ↓reduceIte, List.isEmpty_nil]
  cases e with
  | dir mode => simp [walkSteps_nil, hg]
  | link target => exact absurd rfl (he target)
  | file | special => rfl

theorem stat_none (hg : d.get? (dir ++ [n]) = none) : d.stat p = .error .notFound := by
  rw [stat, h.resolve_vacant hs hg]
  rfl

theorem stat_some (hg : d.get? (dir ++ [n]) = some e) (he : ∀ target, e ≠ .link target) :
    d.stat p = .ok e := by
  rw [stat, h.resolve_entry hs hg he]
  rfl

end Leads

/-- What a path resolves to: a directory, or what stands at the location it leads to. -/
theorem resolve_cases (hd : Tree d) {place : Place} (h : d.resolve follow p = .ok place) :
    (∃ l mode, place = .entry l (.dir mode)) ∨ endsInSlash p = false ∧ ∃ dir n, Leads d p dir n := by
  cases ht : checkText p.text with
  | error f => simp [resolve, ht, bind, Except.bind] at h
  | ok u =>
    simp only [resolve, ht, bind, Except.bind] at h
    have ho := isDir_origin hd p.text
    by_cases hs : p.text.getLast? = some Path.slash
    · left
      rw [steps, if_pos hs] at h
      obtain ⟨k, l, hw⟩ := exists_walks h (.inl (by simp))
      obtain ⟨mode, hl⟩ := hw.isDir hd ho
      rw [hw.walkSteps_append (.inr (by simp)), walkSteps_cons] at h
      split at h
      · cases h
      · rw [if_pos rfl, walkSteps_nil_of_isDir k hl] at h
        exact ⟨l, mode, by simpa using h.symm⟩
    · rw [steps, if_neg hs, List.append_nil] at h
      rcases List.eq_nil_or_concat (names p.text) with hn | ⟨xs, n, hx⟩
      · left
        obtain ⟨mode, hl⟩ := ho
        rw [hn, walkSteps_nil_of_isDir maxLinks hl] at h
        exact ⟨_, mode, by simpa using h.symm⟩
      · rw [List.concat_eq_append] at hx
        rw [hx] at h
        obtain ⟨k, l, hw⟩ := exists_walks h (.inl (by simp))
        obtain ⟨mode, hl⟩ := hw.isDir hd ho
        rw [hw.walkSteps_append (.inr (by simp)), walkSteps_cons] at h
        split at h
        · cases h
        next hent =>
        split at h
        · rw [walkSteps_nil_of_isDir k hl] at h
          exact .inl ⟨l, mode, by simpa using h.symm⟩
        next hnd =>
        split at h
        · obtain ⟨mode', hl'⟩ := hd.isDir_dropLast ⟨mode, hl⟩
          rw [walkSteps_nil_of_isDir k hl'] at h
          exact .inl ⟨_, mode', by simpa using h.symm⟩
        next hnu =>
        split at h
        · cases h
        next hlen =>
        have hmem : n ∈ names p.text := by simp [hx]
        exact .inr ⟨by simpa [endsInSlash] using hs, l, n, ht, isName_of_mem_names hmem hnd hnu,
          Nat.not_lt.1 hlen, by simpa using hent, xs, k, hx, hw⟩

/-! ### Places for files -/

/-- A file can stand at `l`, and nothing else does. -/
def Site (d : Disk) (l : Location) : Prop := ∃ dir n, l = dir ++ [n] ∧ d.IsDir dir ∧ IsName n ∧ bone (d.get? l) = none

theorem Site.alike (ha : Alike d d') (h : Site d l) : Site d' l := by
  obtain ⟨dir, n, rfl, ⟨mode, hdir⟩, hn, hb⟩ := h
  exact ⟨dir, n, rfl, ⟨mode, ha.dir_iff.2 hdir⟩, hn, (ha.bone _).trans hb⟩

theorem Tree.site (hd : Tree d) {e : Entry} (hg : d.get? l = some e) (he : bone (some e) = none) : Site d l := by
  have hne : l ≠ [] := by
    rintro rfl
    cases hg
    cases he
  exact ⟨l.dropLast, l.getLast hne, (List.dropLast_append_getLast hne).symm, hd.parent hg,
    hd.name hg _ (List.getLast_mem hne), hg ▸ he⟩

/-- What a path leads to with all links followed: something that is there, or a place for a file. -/
def Ends (d : Disk) : Place → Prop
  | .entry l e => d.get? l = some e
  | .vacant l => d.get? l = none ∧ Site d l

theorem ne_nil_of_mem_steps {text x : Bytes} (hx : x ∈ steps text) : x ≠ [] ∧ Path.slash ∉ x := by
  rcases List.mem_append.1 hx with hx | hx
  · exact ⟨ne_nil_of_mem_names hx, slash_notMem_of_mem_names hx⟩
  · split at hx
    · rw [List.mem_singleton.1 hx]
      decide
    · cases hx

theorem ends_of_afterLink (hd : Tree d) {place : Place} (hh : d.IsDir here) (hx : ∀ x ∈ xs, x ≠ [] ∧ Path.slash ∉ x)
    (hlink : ∀ {here xs}, d.IsDir here → (∀ x ∈ xs, x ≠ [] ∧ Path.slash ∉ x) →
      afterLink d true k here xs = .ok place → Ends d place)
    (h : walkSteps d true k here xs = .ok place) : Ends d place := by
  induction xs generalizing here with
  | nil =>
    obtain ⟨mode, hm⟩ := hh
    rw [walkSteps_nil_of_isDir k hm] at h
    cases h
    exact hm
  | cons s xs ih =>
    have hxs : ∀ x ∈ xs, x ≠ [] ∧ Path.slash ∉ x := fun x hm => hx x (by simp [hm])
    rw [walkSteps_cons] at h
    split at h
    · cases h
    split at h
    · exact ih hh hxs h
    next hsd =>
    split at h
    · exact ih (hd.isDir_dropLast hh) hxs h
    next hsu =>
    split at h
    · cases h
    split at h
    · next hg =>
      split at h
      · cases h
        obtain ⟨hne, hs⟩ := hx s (by simp)
        exact ⟨hg, here, s, rfl, hh, ⟨hne, hs, hsd, hsu⟩, by rw [hg]; rfl⟩
      · cases h
    · next mode hg => exact ih ⟨mode, hg⟩ hxs h
    · next target hg =>
      rw [if_neg (by simp)] at h
      refine hlink (isDir_origin_of hh target) (fun x hm => ?_) h
      exact (List.mem_append.1 hm).elim ne_nil_of_mem_steps (hxs x)
    · next hg =>
      split at h
      · cases h
        exact hg
      · cases h

theorem ends_of_walkSteps (hd : Tree d) {place : Place} (hh : d.IsDir here) (hx : ∀ x ∈ xs, x ≠ [] ∧ Path.slash ∉ x)
    (h : walkSteps d true k here xs = .ok place) : Ends d place := by
  induction k generalizing here xs with
  | zero => exact ends_of_afterLink hd hh hx (fun _ _ h => by cases h) h
  | succ k ih => exact ends_of_afterLink hd hh hx ih h

theorem ends_of_resolve (hd : Tree d) {place : Place} (h : d.resolve true p = .ok place) : Ends d place := by
  simp only [resolve, bind, Except.bind] at h
  split at h
  · cases h
  · exact ends_of_walkSteps hd (isDir_origin hd p.text) (fun x hx => ne_nil_of_mem_steps hx) h

end Prune.Disk
