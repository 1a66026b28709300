import Mathlib.Data.List.DropRight
import Prune.Disk.Resolve

/-!
# Texts of paths and the names in them

A path is resolved by the names between its slashes (`Disk.names`), while its last component and its
parent are read off its pieces. This file ties the two together: `names_join` for a path put
together from a directory and a name, `fileName?_eq` and `parent?_eq` for taking it apart again.
-/

namespace Prune

variable {n : Bytes} {rest : List Bytes}

namespace Bytes
variable {sep : UInt8}

theorem splitOn_append (sep : UInt8) (a b : Bytes) :
    splitOn sep (a ++ sep :: b) = splitOn sep a ++ splitOn sep b := by
  induction a with
  | nil => simp [splitOn]
  | cons x a ih =>
    by_cases hx : x = sep
    · simp [splitOn, hx, ih]
    · cases hs : splitOn sep a with
      | nil => exact absurd hs (splitOn_ne_nil _ _)
      | cons p ps => simp [splitOn, hx, ih, hs]

theorem splitOn_of_notMem {a : Bytes} (h : sep ∉ a) : splitOn sep a = [a] := by
  induction a with
  | nil => rfl
  | cons x a ih =>
    simp only [List.mem_cons, not_or] at h
    simp [splitOn, Ne.symm h.1, ih h.2]

theorem notMem_of_mem_splitOn {a p : Bytes} (h : p ∈ splitOn sep a) : sep ∉ p := by
  induction a generalizing p with
  | nil => simp [splitOn] at h; simp [h]
  | cons x a ih =>
    simp only [splitOn] at h
    split at h
    · rcases List.mem_cons.1 h with rfl | h
      · simp
      · exact ih h
    · next hx =>
      cases hs : splitOn sep a with
      | nil => exact absurd hs (splitOn_ne_nil _ _)
      | cons q qs =>
        rw [hs] at h ih
        rcases List.mem_cons.1 h with rfl | h
        · simpa [Ne.symm hx] using ih (by simp)
        · exact ih (by simp [h])

theorem mem_of_mem_splitOn {a p : Bytes} (h : p ∈ splitOn sep a) {b : UInt8} (hb : b ∈ p) : b ∈ a := by
  induction a generalizing p with
  | nil =>
    simp only [splitOn, List.mem_singleton] at h
    rwa [h] at hb
  | cons x a ih =>
    simp only [splitOn] at h
    split at h
    · rcases List.mem_cons.1 h with rfl | h
      · simp at hb
      · exact List.mem_cons_of_mem _ (ih h hb)
    · cases hs : splitOn sep a with
      | nil => exact absurd hs (splitOn_ne_nil _ _)
      | cons q qs =>
        rw [hs] at h ih
        rcases List.mem_cons.1 h with rfl | h
        · rcases List.mem_cons.1 hb with rfl | hb
          · exact List.mem_cons_self
          · exact List.mem_cons_of_mem _ (ih List.mem_cons_self hb)
        · exact List.mem_cons_of_mem _ (ih (.tail _ h) hb)

theorem splitOn_joinWith {ps : List Bytes} (hne : ps ≠ []) (h : ∀ p ∈ ps, sep ∉ p) :
    splitOn sep (joinWith sep ps) = ps := by
  induction ps with
  | nil => exact absurd rfl hne
  | cons p ps ih =>
    cases ps with
    | nil => exact splitOn_of_notMem (h p (by simp))
    | cons q qs =>
      rw [joinWith_cons _ _ (by simp), splitOn_append, splitOn_of_notMem (h p (by simp)),
        ih (by simp) fun r hr => h r (by simp [hr])]
      rfl

end Bytes

namespace Disk
open Bytes Prune.Path

/-- What an entry can be called. -/
structure IsName (n : Bytes) : Prop where
  ne_nil : n ≠ []
  slash : Path.slash ∉ n
  ne_dot : n ≠ [dot]
  ne_dots : n ≠ [dot, dot]

theorem names_append (a b : Bytes) : names (a ++ slash :: b) = names a ++ names b := by simp [names, splitOn_append]

theorem names_nil : names [] = [] := rfl

theorem names_of_notMem (h : slash ∉ n) (hne : n ≠ []) : names n = [n] := by
  cases n with
  | nil => exact absurd rfl hne
  | cons b n => simp [names, splitOn_of_notMem h]

theorem slash_notMem_of_mem_names {text n : Bytes} (h : n ∈ names text) : slash ∉ n :=
  notMem_of_mem_splitOn (List.mem_of_mem_filter h)

theorem ne_nil_of_mem_names {text n : Bytes} (h : n ∈ names text) : n ≠ [] := by
  have := List.of_mem_filter h
  simpa using this

theorem getLast?_of_names {t n : Bytes} {xs : List Bytes} (h : names t = xs ++ [n]) (hs : t.getLast? ≠ some slash) :
    t.getLast? = n.getLast? := by
  by_cases hm : slash ∈ t
  · obtain ⟨as, bs, hr, ha⟩ := List.eq_append_cons_of_mem (List.mem_reverse.2 hm)
    obtain rfl : t = bs.reverse ++ slash :: as.reverse := by simpa using congrArg List.reverse hr
    have hne : as.reverse ≠ [] := fun h0 => hs (by simp [h0])
    rw [names_append, names_of_notMem (by simpa using ha) hne] at h
    obtain rfl : as.reverse = n := by simpa using (List.append_inj' h rfl).2
    rw [List.getLast?_append_of_ne_nil _ (by simp), List.getLast?_cons_of_ne_nil hne]
  · have hne : t ≠ [] := fun h0 => by simp [h0, names_nil] at h
    rw [names_of_notMem hm hne] at h
    obtain rfl : t = n := by simpa using congrArg List.getLast? h
    rfl

theorem names_joinWith {ns : List Bytes} (h : ∀ n ∈ ns, IsName n) : names (joinWith slash ns) = ns := by
  cases ns with
  | nil => rfl
  | cons n ns =>
    rw [names, splitOn_joinWith (by simp) fun n hn => (h n hn).slash]
    refine List.filter_eq_self.2 fun m hm => ?_
    simpa using (h m hm).ne_nil

end Disk

namespace Path
open Bytes Disk
variable {p q : Path} {t : Bytes}

/-- The text of `q.join t`, where `t` does not start at the root: `t` behind a slash, unless `q` is
empty. -/
theorem join_text (q : Path) (ht : t.head? ≠ some slash) :
    (q.text = [] ∧ (q.join t).text = t) ∨
      (∃ a, q.text = a ++ [slash] ∧ (q.join t).text = a ++ slash :: t) ∨
      (q.text ≠ [] ∧ (q.join t).text = q.text ++ slash :: t) := by
  unfold join
  rw [if_neg ht]
  by_cases h0 : q.text = []
  · exact .inl ⟨h0, by simp [h0]⟩
  by_cases h1 : q.text.getLast? = some slash
  · obtain ⟨a, ha⟩ := List.getLast?_eq_some_iff.1 h1
    exact .inr (.inl ⟨a, ha, by simp [ha]⟩)
  · exact .inr (.inr ⟨h0, by simp [h0, h1]⟩)

theorem names_join (q : Path) (ht : t.head? ≠ some slash) :
    names (q.join t).text = names q.text ++ names t := by
  rcases join_text q ht with ⟨h0, h⟩ | ⟨a, ha, h⟩ | ⟨_, h⟩
  · rw [h, h0, names_nil, List.nil_append]
  · rw [h, names_append, ha, show a ++ [slash] = a ++ slash :: [] from rfl, names_append, names_nil, List.append_nil]
  · rw [h, names_append]

theorem origin_join (here : Location) (q : Path) (ht : t.head? ≠ some slash) :
    origin here (q.join t).text = origin here q.text := by
  rcases join_text q ht with ⟨h0, h⟩ | ⟨a, ha, h⟩ | ⟨h0, h⟩
  · simp [origin, h, h0, ht]
  · cases a <;> simp [origin, h, ha]
  · cases hq : q.text with
    | nil => exact absurd hq h0
    | cons b bs => simp [origin, h, hq]

theorem getLast?_join (q : Path) (hne : t ≠ []) (ht : t.head? ≠ some slash) :
    (q.join t).text.getLast? = t.getLast? := by
  rcases join_text q ht with ⟨h0, h⟩ | ⟨a, ha, h⟩ | ⟨h0, h⟩
  · rw [h]
  · rw [h, List.getLast?_append, List.getLast?_cons]
    cases hl : t.getLast? with
    | none => exact absurd (List.getLast?_eq_none_iff.1 hl) hne
    | some b => rfl
  · rw [h, List.getLast?_append, List.getLast?_cons]
    cases hl : t.getLast? with
    | none => exact absurd (List.getLast?_eq_none_iff.1 hl) hne
    | some b => rfl

/-! ### Taking a path apart -/

theorem isIdle_iff {piece : Bytes} : isIdle piece = true ↔ piece = [] ∨ piece = [dot] := by simp [isIdle]

theorem isIdle_of_isName (h : IsName n) : isIdle n = false := by simp [isIdle, h.ne_nil, h.ne_dot]

theorem trimIdle_append (hn : isIdle n = false) (as : List Bytes) {bs : List Bytes}
    (hb : ∀ b ∈ bs, isIdle b = true) : trimIdle (as ++ n :: bs) = as ++ [n] := by
  have hb' : ∀ b ∈ bs.reverse, isIdle b = true := fun b h => hb b (List.mem_reverse.1 h)
  simp [trimIdle, List.dropWhile_append_of_pos hb', hn]

theorem trimIdle_of_idle {bs : List Bytes} (hb : ∀ b ∈ bs, isIdle b = true) : trimIdle bs = [] := by
  simpa [trimIdle, List.dropWhile_eq_nil_iff] using hb

theorem exists_eq_trimIdle_append (as : List Bytes) :
    ∃ bs, as = trimIdle as ++ bs ∧ ∀ b ∈ bs, isIdle b = true := by
  refine ⟨(as.reverse.takeWhile isIdle).reverse, ?_, fun b hb => ?_⟩
  · rw [trimIdle, ← List.reverse_append, List.takeWhile_append_dropWhile, List.reverse_reverse]
  · exact List.mem_takeWhile_imp (List.mem_reverse.1 hb)

theorem trimIdle_trimIdle (as : List Bytes) : trimIdle (trimIdle as) = trimIdle as := by
  simp [trimIdle, List.dropWhile_idempotent]

theorem exists_pieces {xs : List Bytes} (h : names p.text = xs ++ [n]) :
    ∃ as bs, splitOn slash p.text = as ++ n :: bs ∧ as.filter (!·.isEmpty) = xs ∧ ∀ b ∈ bs, isIdle b = true := by
  obtain ⟨as, cs, hp, ha, hc⟩ := List.filter_eq_append_iff.1 h
  obtain ⟨ds, bs, rfl, hd, _, hb⟩ := List.filter_eq_cons_iff.1 hc
  refine ⟨as ++ ds, bs, by simpa using hp, ?_, fun b hb' => ?_⟩
  · rw [List.filter_append, ha, List.filter_eq_nil_iff.2 hd, List.append_nil]
  · have := List.filter_eq_nil_iff.1 hb b hb'
    simp only [Bool.not_eq_true, Bool.not_eq_false', List.isEmpty_iff] at this
    simp [isIdle, this]

theorem isAbsolute_iff_head (p : Path) : p.isAbsolute = true ↔ p.text.head? = some slash := by simp [isAbsolute]

theorem front_eq_nil_iff (p : Path) : p.front = [] ↔ p.isAbsolute = true ∨ p.text = [] := by
  cases hp : p.text with
  | nil => simp [front, isAbsolute, hp, splitOn]
  | cons b bs =>
    by_cases hb : b = slash
    · simp [front, isAbsolute, hp, splitOn, hb]
    · cases hs : splitOn slash bs with
      | nil => exact absurd hs (splitOn_ne_nil _ _)
      | cons q qs => simp [front, isAbsolute, hp, splitOn, hb, hs]

/-- A path spelled without idle pieces at its end: what `parent?` gives. -/
inductive Trim : Path → Prop
  | empty : Trim ⟨[]⟩
  | pieces {absolute : Bool} {front : Bytes} {rest : List Bytes} (hf : front = [] ↔ absolute = true)
      (hs : ∀ r ∈ front :: rest, slash ∉ r) (ht : trimIdle rest = rest) :
      Trim (ofPieces absolute front rest)

theorem ne_nil_of_mem_getLast? (ht : trimIdle rest = rest) {r : Bytes}
    (hr : rest.getLast? = some r) : isIdle r = false := by
  obtain ⟨as, rfl⟩ := List.getLast?_eq_some_iff.1 hr
  by_contra hi
  have : trimIdle (as ++ [r]) = trimIdle as := by simp [trimIdle, (Bool.not_eq_false _).mp hi]
  obtain ⟨bs, hbs, -⟩ := exists_eq_trimIdle_append as
  have hl := congrArg List.length (ht.symm.trans this)
  have hl' := congrArg List.length hbs
  simp only [List.length_append, List.length_cons, List.length_nil] at hl hl'
  omega

theorem getLast?_joinWith {ps : List Bytes} {r : Bytes} (hr : ps.getLast? = some r) (hne : r ≠ []) :
    (joinWith slash ps).getLast? = r.getLast? := by
  induction ps with
  | nil => simp at hr
  | cons p ps ih =>
    cases ps with
    | nil => simp at hr; simp [joinWith, hr]
    | cons q qs =>
      rw [List.getLast?_cons_cons] at hr
      rw [joinWith_cons _ _ (by simp), List.getLast?_append, List.getLast?_cons, ih hr]
      cases hl : r.getLast? with
      | none => exact absurd (List.getLast?_eq_none_iff.1 hl) hne
      | some b => rfl

namespace Trim

theorem splitOn_join {absolute : Bool} {front : Bytes}
    (hf : front = [] ↔ absolute = true) (hs : ∀ r ∈ front :: rest, slash ∉ r)
    (ht : trimIdle rest = rest) (hn : IsName n) :
    splitOn slash ((ofPieces absolute front rest).join n).text = front :: rest ++ [n] := by
  have hn' : n.head? ≠ some slash := fun h => hn.slash (List.mem_of_mem_head? h)
  have hfs : slash ∉ front := hs front (by simp)
  cases rest with
  | nil =>
    cases absolute with
    | true =>
      rw [hf.2 rfl]
      simp [ofPieces, join, hn', splitOn, splitOn_of_notMem hn.slash]
    | false =>
      have hne : front ≠ [] := fun h => by simpa using hf.1 h
      have hl : front.getLast? ≠ some slash := fun h => hfs (List.mem_of_getLast? h)
      simp [ofPieces, join, hn', hne, hl, splitOn_append, splitOn_of_notMem hfs, splitOn_of_notMem hn.slash]
  | cons r rest =>
    obtain ⟨k, hk⟩ : ∃ k, (r :: rest).getLast? = some k := ⟨_, List.getLast?_cons⟩
    have hkn := ne_nil_of_mem_getLast? ht hk
    have hkne : k ≠ [] := fun h => by simp [isIdle, h] at hkn
    have hks : slash ∉ k := hs k (by simp [List.mem_of_getLast? hk])
    have hlast : (joinWith slash (front :: r :: rest)).getLast? = k.getLast? :=
      getLast?_joinWith (by rw [List.getLast?_cons_cons]; exact hk) hkne
    have hl : (joinWith slash (front :: r :: rest)).getLast? ≠ some slash := fun h =>
      hks (List.mem_of_getLast? (hlast ▸ h))
    have h0 : joinWith slash (front :: r :: rest) ≠ [] := by rw [joinWith_cons _ _ (by simp)]; simp
    simp only [ofPieces, join, hn', h0, hl, ↓reduceIte, decide_false, Bool.or_self, Bool.false_eq_true]
    rw [splitOn_append, splitOn_joinWith (by simp) hs, splitOn_of_notMem hn.slash]

theorem names_ofPieces {absolute : Bool} {front : Bytes}
    (hf : front = [] ↔ absolute = true) (hs : ∀ r ∈ front :: rest, slash ∉ r) :
    names (ofPieces absolute front rest).text = (front :: rest).filter (!·.isEmpty) := by
  cases rest with
  | nil =>
    cases absolute with
    | true => rw [hf.2 rfl]; rfl
    | false => simp [ofPieces, names, splitOn_of_notMem (hs front (by simp))]
  | cons r rest => simp only [ofPieces, names]; rw [splitOn_joinWith (by simp) hs]

theorem head?_ofPieces {absolute : Bool} {front : Bytes}
    (hf : front = [] ↔ absolute = true) (hs : ∀ r ∈ front :: rest, slash ∉ r) :
    (ofPieces absolute front rest).text.head? = some slash ↔ absolute = true := by
  cases absolute with
  | true =>
    rw [hf.2 rfl]
    cases rest <;> simp [ofPieces, joinWith]
  | false =>
    cases front with
    | nil => exact absurd (hf.1 rfl) (by simp)
    | cons b front =>
      have hb : slash ≠ b := fun h => hs (b :: front) (by simp) (by simp [h])
      cases rest <;> simp [ofPieces, joinWith, hb.symm]

end Trim

theorem origin_eq (here : Location) (p : Path) :
    origin here p.text = if p.isAbsolute = true then [] else here := by
  simp [origin, isAbsolute]

/-- A path that ends in a name: its last component, and its parent, which walks to the same directory
but for `.` steps at the end. -/
theorem exists_parent {xs : List Bytes} (h : names p.text = xs ++ [n]) (hn : IsName n) :
    p.fileName? = some n ∧ ∃ q dots, p.parent? = some q ∧ Trim q ∧ xs = names q.text ++ dots ∧
      (∀ x ∈ dots, x = [dot]) ∧ ∀ here, origin here q.text = origin here p.text := by
  obtain ⟨as, bs, hp, hx, hb⟩ := exists_pieces h
  have hni := isIdle_of_isName hn
  have hne : p.text ≠ [] := fun h0 => by rw [h0] at h; simp [names_nil] at h
  have hfr := front_eq_nil_iff p
  simp only [hne, or_false] at hfr
  cases as with
  | nil =>
    -- the name is the first piece
    have hf : p.front = n := by simp [front, hp]
    have hr : p.rest = [] := by simp [rest, hp, trimIdle_of_idle hb]
    have ha : p.isAbsolute = false := by
      rw [Bool.eq_false_iff]; exact fun h => hn.ne_nil (hf ▸ hfr.2 h)
    refine ⟨?_, ⟨[]⟩, [], ?_, .empty, by simpa [names_nil] using hx.symm, by simp, fun here => ?_⟩
    · simp [fileName?, components, frontComponents, hf, hr, ha, hn.ne_nil, hn.ne_dot, Component.ofPiece, hn.ne_dots]
    · simp [parent?, hr, ha, isEmpty, hne]
    · rw [origin_eq here p, ha]; rfl
  | cons f as =>
    have hf : p.front = f := by simp [front, hp]
    have hr : p.rest = as ++ [n] := by simp [rest, hp, trimIdle_append hni as hb]
    obtain ⟨cs, hcs, hc⟩ := exists_eq_trimIdle_append as
    have hfa : f = [] ↔ p.isAbsolute = true := hf ▸ hfr
    have hsl : ∀ r ∈ f :: as, slash ∉ r := fun r hr =>
      notMem_of_mem_splitOn (by rw [hp]; simp only [List.mem_append]; exact .inl hr)
    have hs : ∀ r ∈ f :: trimIdle as, slash ∉ r := by
      intro r hr
      refine hsl r ?_
      rcases List.mem_cons.1 hr with rfl | hr
      · simp
      · rw [hcs]; simp [hr]
    refine ⟨?_, ofPieces p.isAbsolute f (trimIdle as), cs.filter (!·.isEmpty), ?_,
      .pieces hfa hs (trimIdle_trimIdle as), ?_, fun x hx' => ?_, fun here => ?_⟩
    · simp [fileName?, components, hr, hni, Component.ofPiece, hn.ne_dots]
    · simp [parent?, hr, hf]
    · rw [Trim.names_ofPieces hfa hs, ← List.filter_append, List.cons_append, ← hcs, hx]
    · obtain ⟨hxc, hxe⟩ := List.mem_filter.1 hx'
      rcases isIdle_iff.1 (hc x hxc) with rfl | rfl
      · simp at hxe
      · rfl
    · simp only [origin, Trim.head?_ofPieces hfa hs, isAbsolute_iff_head]

theorem Trim.parent?_join (hq : Trim q) (hn : IsName n) :
    (q.join n).parent? = some q := by
  have hni := isIdle_of_isName hn
  have hn' : n.head? ≠ some slash := fun h => hn.slash (List.mem_of_mem_head? h)
  cases hq with
  | empty =>
    have ht : (Path.join ⟨[]⟩ n).text = n := by simp [join, hn']
    have hr : (Path.join ⟨[]⟩ n).rest = [] := by simp [rest, ht, splitOn_of_notMem hn.slash, trimIdle]
    have ha : (Path.join ⟨[]⟩ n).isAbsolute = false := by simpa [isAbsolute, ht] using hn'
    simp [parent?, hr, ha, isEmpty, ht, hn.ne_nil]
  | @pieces absolute front rest hf hs ht =>
    have hp := Trim.splitOn_join hf hs ht hn
    have hfr : (join (ofPieces absolute front rest) n).front = front := by simp [Path.front, hp]
    have hr : (join (ofPieces absolute front rest) n).rest = rest ++ [n] := by
      simp [Path.rest, hp, trimIdle_append hni rest (List.forall_mem_nil _)]
    have hne : (join (ofPieces absolute front rest) n).text ≠ [] := fun h => by
      rw [h] at hp; simp [splitOn] at hp
    have ha : (join (ofPieces absolute front rest) n).isAbsolute = absolute := by
      have := front_eq_nil_iff (join (ofPieces absolute front rest) n)
      rw [hfr, or_iff_left hne, hf] at this
      exact (Bool.eq_iff_iff.2 this).symm
    simp [parent?, hr, hfr, ha, ht]

end Path

end Prune
