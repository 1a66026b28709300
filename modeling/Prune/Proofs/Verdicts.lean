import Mathlib.Data.Set.Basic
import Prune.Proofs.Thinning

/-!
# Verdicts that are settled by the lines that are left

A build may look at nothing but the candidate lines that are still there (`Oracle.Judges`): a line that is
blank counts as one that is dropped, and it does not matter which project is built. What the passes make of
the sources is then a function of the verdicts alone: each candidate in its turn goes if the build does
without it (`greedy`, `settled`). A run that comes to its end leaves just that (`Files.settles`), and if the
build passed in the beginning it passes then (`verdict_settled`).
-/

namespace Prune

open Disk Artefact Lines Function

variable {d d' : Disk} {p q : Path} {v u : View} {ds es : List Deed} {x y : Lot} {l prog : Location} {s : Settings}
  {files : List Path} {m : Directive.Matcher} {call : BuildCall} {todo todo₀ : List (Path × Option Lot)}
  {c : Bytes} {mode : Nat} {o : Oracle} {h : Host} {w : World} {sts : Path → List State}
  {V : Set (Path × Nat) → Bool}
variable {W : List State → Bool}

/-! ### What a disk shows -/

/-- The sources hold what they held on `d`, with the lines in the given states. -/
def Shows (d : Disk) (s : Settings) (files : List Path) (sts : Path → List State) (d' : Disk) : Prop :=
  ∀ p ∈ files, ∀ c, d.content? p = some c →
    List.Forall₂ (fun st line => st = .present ∨ s.matcher.accepts (body line) = true) (sts p) (split c) ∧
      d'.content? p = some (render (split c) (sts p))

/-- The candidate lines that are left, each by its source and its place among the lines. -/
def survivors (d : Disk) (s : Settings) (files : List Path) (sts : Path → List State) : Set (Path × Nat) :=
  {e | e.1 ∈ files ∧ (sts e.1)[e.2]? = some .present ∧
    ∃ c line, d.content? e.1 = some c ∧ (split c)[e.2]? = some line ∧ s.matcher.accepts (body line) = true}

/-- The verdict of every build is settled by the candidate lines of `d` that are left. -/
def Oracle.Judges (o : Oracle) (d : Disk) (s : Settings) (files : List Path) (V : Set (Path × Nat) → Bool) : Prop :=
  ∀ n call (h : Host) sts, Shows d s files sts h.disk → (o n call h).verdict = some (V (survivors d s files sts))

/-- The same if a build may also be the end of the run. -/
def Oracle.JudgesOrCuts (o : Oracle) (d : Disk) (s : Settings) (files : List Path)
    (V : Set (Path × Nat) → Bool) : Prop :=
  ∀ n call (h : Host) sts, Shows d s files sts h.disk →
    ∀ b, (o n call h).verdict = some b → b = V (survivors d s files sts)

theorem Oracle.Judges.judgesOrCuts (hj : o.Judges d s files V) : o.JudgesOrCuts d s files V := by
  intro n call h sts hs b hb
  rw [hj n call h sts hs] at hb
  exact (Option.some.inj hb).symm

theorem Oracle.JudgesOrCuts.cutAt (hj : o.JudgesOrCuts d s files V) (k : Nat) :
    (o.cutAt k).JudgesOrCuts d s files V := by
  intro n call h sts hs b hb
  unfold Oracle.cutAt at hb
  split at hb
  · cases hb
  · exact hj n call h sts hs b hb

/-- What is left does not depend on whether the other lines are blank or dropped. -/
theorem survivors_settle (p : Path) (st : List State) :
    survivors d s files (update sts p (st.map State.settle)) = survivors d s files (update sts p st) := by
  have hsettle : ∀ st' : State, st'.settle = .present ↔ st' = .present := by
    intro st'
    cases st' <;> simp [State.settle]
  ext ⟨q, i⟩
  by_cases hq : q = p
  · subst hq
    simp only [survivors, Set.mem_ofPred_eq, update_self, List.getElem?_map, Option.map_eq_some_iff, hsettle,
      exists_eq_right]
  · simp only [survivors, Set.mem_ofPred_eq, update_of_ne hq]

/-! ### One pass -/

/-- Each candidate in its turn goes if the verdict `W` allows it. -/
def greedy (W : List State → Bool) : List Pass.Candidate → List State → List State
  | [], states => states
  | c :: cs, states => greedy W cs (if W (states.set c.index .blanked) then states.set c.index .blanked else states)

theorem verdict_greedy (cs : List Pass.Candidate) {states : List State}
    (h : W states = true) : W (greedy W cs states) = true := by
  induction cs generalizing states with
  | nil => exact h
  | cons c cs ih =>
    refine ih ?_
    split
    · assumption
    · exact h

/-- Every build came to what `P` allows for what it saw. -/
def Asked (P : View → Option Bool → Prop) (v : View) (ds : List Deed) : Prop :=
  ∀ pre call b, pre ++ [.build call b] <+: ds → P (after v pre) b

namespace Asked

variable {P : View → Option Bool → Prop} {e : Deed} {b : Option Bool}

theorem tail (h : Asked P v (e :: ds)) : Asked P (e.apply v) ds := fun pre call b hpre =>
  h (e :: pre) call b (List.cons_prefix_cons.2 ⟨rfl, hpre⟩)

theorem head (h : Asked P v (.build call b :: ds)) : P v b := h [] call b (by simp)

theorem left (h : Asked P v (ds ++ es)) : Asked P v ds := fun pre call b hpre =>
  h pre call b (hpre.trans (List.prefix_append ..))

theorem right (h : Asked P v (ds ++ es)) : Asked P (after v ds) es := fun pre call b hpre => by
  rw [← after_append]
  exact h (ds ++ pre) call b (by rw [List.append_assoc]; exact List.prefix_append_right_inj ds |>.2 hpre)

end Asked

/-- Every build that gave a verdict gave one that `P` allows for what it saw. -/
def Answered (P : View → Bool → Prop) : View → List Deed → Prop := Asked fun u b => ∀ b' ∈ b, P u b'

namespace Answered

variable {P : View → Bool → Prop} {e : Deed} {b : Bool}

theorem tail (h : Answered P v (e :: ds)) : Answered P (e.apply v) ds := Asked.tail h

theorem head (h : Answered P v (.build call (some b) :: ds)) : P v b := Asked.head h b rfl

theorem left (h : Answered P v (ds ++ es)) : Answered P v ds := Asked.left h

theorem right (h : Answered P v (ds ++ es)) : Answered P (after v ds) es := Asked.right h

end Answered

theorem Tries.eq_greedy {P : View → Bool → Prop} {lines : List Bytes}
    {cs : List Pass.Candidate} {states : List State} {r : Pass.Result}
    (ht : Tries call l lines cs states ds r)
    (hcs : ∀ c ∈ cs, ∃ line, lines[c.index]? = some line ∧ m.accepts (body line) = true)
    (hst : List.Forall₂ (Allowed m .blanked) states lines) (hv : ∃ c, v l = some (.file mode c))
    (hans : Answered P v ds)
    (hP : ∀ u st b, List.Forall₂ (Allowed m .blanked) st lines → u l = some (.file mode (render lines st)) →
      (∀ k, k ≠ l → u k = v k) → P u b → b = W st) :
    ∀ out, r = some out → out.2 = greedy W cs states := by
  induction ht generalizing v with
  | nil states =>
    rintro _ ⟨⟩
    rfl
  | cut | cutLater => simp
  | @step c cs states passed ds findings final ht ih =>
    rintro _ ⟨⟩
    obtain ⟨line, hi, hm⟩ := hcs c (by simp)
    have hst' := forall₂_set hst hi hm
    obtain ⟨c₀, hv⟩ := hv
    have hwrite : Deed.apply (.write l (render lines (states.set c.index .blanked))) v l =
        some (.file mode (render lines (states.set c.index .blanked))) := apply_write_file hv
    have hne : ∀ k, k ≠ l → Deed.apply (.write l (render lines (states.set c.index .blanked))) v k = v k :=
      fun k hk => update_of_ne hk _ _
    obtain rfl : passed = W (states.set c.index .blanked) := hP _ _ _ hst' hwrite hne hans.tail.head
    exact ih (fun c' hc' => hcs c' (by simp [hc'])) (by split <;> assumption) ⟨_, hwrite⟩ hans.tail.tail
      (fun u st b hst hu hk => hP u st b hst hu fun k hkl => (hk k hkl).trans (hne k hkl)) (findings, final) rfl

theorem Passes.eq_greedy {P : View → Bool → Prop} {out : List Pass.Finding × List State}
    (hp : Passes m call x ds (some out)) (hx : x.In d v) (hans : Answered P v ds)
    (hP : ∀ u st b, List.Forall₂ (Allowed m .blanked) st x.lines → u x.live = some (.file x.mode (render x.lines st)) →
      (∀ k, ¬ x.At k → u k = v k) → P u b → b = W st) :
    out.2 = greedy W (Pass.candidates m x.lines) x.untouched := by
  cases hp with
  | @done ds findings final ht =>
    have hlive : Deed.apply (.write x.copy x.content) v x.live = some (.file x.mode x.content) := by
      rw [Deed.apply, update_of_ne hx.fits.live_ne_copy, hx.live]
    refine ht.eq_greedy (fun c hc => Pass.mem_candidates hc) (x.forall₂_untouched m) ⟨_, hlive⟩
      hans.tail.left.left (fun u st b hst hu hk => hP u st b hst hu fun k hkx => ?_) _ rfl
    rw [hk k fun h => hkx (.inl h)]
    exact update_of_ne (fun h => hkx (.inr h)) _ _

/-! ### All passes -/

/-- The lots of a list show their lines in the given states, and the other sources have all of them. -/
structure Showing (d : Disk) (m : Directive.Matcher) (todo : List (Path × Option Lot)) (sts : Path → List State)
    (u : View) : Prop where
  lot : ∀ p x, (p, some x) ∈ todo →
    List.Forall₂ (fun st line => st = .present ∨ m.accepts (body line) = true) (sts p) x.lines ∧
      u x.live = some (.file x.mode (render x.lines (sts p)))
  no_lot : ∀ p, (p, none) ∈ todo → ∀ c, d.content? p = some c → sts p = List.replicate (split c).length .present

theorem Spread.lot_unique {e : Option Lot} (hs : Spread prog todo) (hx : (p, some x) ∈ todo) (he : (p, e) ∈ todo) :
    e = some x :=
  congrArg Prod.snd (List.inj_on_of_nodup_map hs.nodup he hx rfl)

theorem Spread.sublist (hs : Spread prog todo₀) (hsub : todo.Sublist todo₀) : Spread prog todo where
  nodup := hs.nodup.sublist (hsub.map _)
  path p x hx := hs.path p x (hsub.subset hx)
  own p x hx := hs.own p x (hsub.subset hx)
  progress p x hx := hs.progress p x (hsub.subset hx)
  apart p x q y l hx hy := hs.apart p x q y l (hsub.subset hx) (hsub.subset hy)

namespace Showing

theorem congr (hv : Showing d m todo sts v) (h : ∀ p x, (p, some x) ∈ todo → u x.live = v x.live) :
    Showing d m todo sts u :=
  ⟨fun p x hx => ⟨(hv.lot p x hx).1, (h p x hx).trans (hv.lot p x hx).2⟩, hv.no_lot⟩

theorem update {st : List State} {out : State} (hs : Spread prog todo) (hv : Showing d m todo sts v)
    (hx : (p, some x) ∈ todo) (hst : List.Forall₂ (Allowed m out) st x.lines)
    (hlive : u x.live = some (.file x.mode (render x.lines st))) (hne : ∀ k, ¬ x.At k → k ≠ prog → u k = v k) :
    Showing d m todo (update sts p st) u := by
  refine ⟨fun q y hy => ?_, fun q hq c hc => ?_⟩
  · by_cases heq : q = p
    · subst heq
      obtain rfl := Option.some.inj (hs.lot_unique hx hy)
      rw [update_self]
      exact ⟨hst.imp fun st line h => h.imp_right And.right, hlive⟩
    · rw [update_of_ne heq, hne y.live (fun hat => heq ?_) fun h => hs.progress q y hy (.inl h.symm)]
      · exact hv.lot q y hy
      · exact hs.apart q y p x _ hy hx (.inl rfl) hat
  · have heq : q ≠ p := by
      rintro rfl
      cases hs.lot_unique hx hq
    rw [update_of_ne heq]
    exact hv.no_lot q hq c hc

end Showing

/-- The states of all lines when the sources of a list have been taken. -/
def settled (d : Disk) (s : Settings) (files : List Path) (V : Set (Path × Nat) → Bool) :
    List (Path × Option Lot) → (Path → List State) → Path → List State
  | [], sts => sts
  | (_, none) :: todo, sts => settled d s files V todo sts
  | (p, some x) :: todo, sts => settled d s files V todo (update sts p
      ((greedy (fun st => V (survivors d s files (update sts p st))) (Pass.candidates s.matcher x.lines)
        x.untouched).map State.settle))

theorem settled_append (d : Disk) (s : Settings) (files : List Path) (V : Set (Path × Nat) → Bool)
    (a b : List (Path × Option Lot)) (sts : Path → List State) :
    settled d s files V (a ++ b) sts = settled d s files V b (settled d s files V a sts) := by
  induction a generalizing sts with
  | nil => rfl
  | cons e a ih =>
    obtain ⟨p, _ | x⟩ := e
    · exact ih sts
    · exact ih _

theorem settled_of_notMem (hp : p ∉ todo.map (·.1)) : settled d s files V todo sts p = sts p := by
  induction todo generalizing sts with
  | nil => rfl
  | cons e todo ih =>
    obtain ⟨q, lot⟩ := e
    rw [List.map_cons, List.mem_cons, not_or] at hp
    cases lot with
    | none => exact ih hp.2
    | some x =>
      rw [settled, ih hp.2]
      exact update_of_ne hp.1 _ _

theorem verdict_settled (hnodup : (todo.map (·.1)).Nodup) (hnew : ∀ p x, (p, some x) ∈ todo → sts p = x.untouched)
    (hV : V (survivors d s files sts) = true) : V (survivors d s files (settled d s files V todo sts)) = true := by
  induction todo generalizing sts with
  | nil => exact hV
  | cons e todo ih =>
    obtain ⟨p, _ | x⟩ := e <;> obtain ⟨hp, hnodup⟩ := List.nodup_cons.1 hnodup
    · exact ih hnodup (fun q y hy => hnew q y (.tail _ hy)) hV
    · refine ih hnodup (fun q y hy => ?_) ?_
      · rw [update_of_ne (by rintro rfl; exact hp (List.mem_map.2 ⟨_, hy, rfl⟩))]
        exact hnew q y (.tail _ hy)
      · rw [survivors_settle]
        refine verdict_greedy (W := fun st => V (survivors d s files (update sts p st))) _ ?_
        rw [← hnew p x (.head _), update_eq_self]
        exact hV

/-- When all sources of a list have been taken, they show their lines in the settled states. -/
theorem Files.settles {summary : Sweep.Summary} {r : Option Sweep.Summary}
    (hf : Files prog call s.matcher todo summary ds r) (hr : r ≠ none) (hs : Spread prog todo₀)
    (hsub : todo.Sublist todo₀) (hv : ∀ p x, (p, some x) ∈ todo → x.In d' v)
    (hnew : ∀ p x, (p, some x) ∈ todo → sts p = x.untouched) (hshow : Showing d s.matcher todo₀ sts v)
    (hans : Answered (fun u b => ∀ sts, Showing d s.matcher todo₀ sts u → b = V (survivors d s files sts)) v ds) :
    Showing d s.matcher todo₀ (settled d s files V todo sts) (after v ds) := by
  have hmark : ∀ {sts v} (c : Bytes), Showing d s.matcher todo₀ sts v →
      Showing d s.matcher todo₀ sts (Deed.apply (.write prog c) v) := fun c h =>
    h.congr fun q y hy => update_of_ne (fun h => hs.progress q y hy (.inl h.symm)) _ _
  induction hf generalizing v sts with
  | nil => exact hshow
  | cut => exact absurd rfl hr
  | @done p x todo summary ds es out r hp hf ih =>
    have hspread := hs.sublist hsub
    have hx : (p, some x) ∈ todo₀ := hsub.subset (.head _)
    have hin : x.In d' (Deed.apply (.write prog p.text) v) := (hv p x (.head _)).congr_at fun l hl =>
      update_of_ne (by rintro rfl; exact hs.progress p x hx hl) _ _
    have hshow₁ := hmark p.text hshow
    have hfinal := hp.eq_greedy (W := fun st => V (survivors d s files (update sts p st))) hin hans.tail.left
      fun u st b hst hu hk hb => hb _ (hshow₁.update hs hx hst hu fun k hk' _ => hk k hk')
    obtain ⟨hst, -, hlive⟩ := hp.last hin
    have hshow₂ := hmark [] (hshow₁.update hs hx (forall₂_settle hst) hlive fun k hk _ =>
      after_of_forall (fun e he hloc => hk (hp.location_eq e he k hloc)) _)
    rw [hfinal] at hshow₂
    rw [after_cons, after_append, after_cons]
    refine ih hr ((List.sublist_cons_self ..).trans hsub) (fun q y hy => ?_) (fun q y hy => ?_) hshow₂ hans.tail.right.tail
    · exact (hv q y (.tail _ hy)).congr_at fun l hl => hspread.after_done hp hy hl v
    · have hne : q ≠ p := by
        rintro rfl
        exact (List.nodup_cons.1 hspread.nodup).1 (List.mem_map.2 ⟨_, hy, rfl⟩)
      rw [update_of_ne hne]
      exact hnew q y (.tail _ hy)
  | @skip p todo summary es r e hf ih =>
    have hspread := hs.sublist hsub
    rw [after_cons, after_cons]
    refine ih hr ((List.sublist_cons_self ..).trans hsub) (fun q y hy => ?_)
      (fun q y hy => hnew q y (.tail _ hy)) (hmark _ (hmark _ hshow)) hans.tail.tail
    exact (hv q y (.tail _ hy)).congr_at fun l hl => by
      rw [hspread.after_mark hy hl, hspread.after_mark hy hl]

end Prune
