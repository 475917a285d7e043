import TensorProgram.Proofs.FreshIds
import TensorProgram.Proofs.Hollow
import TensorProgram.Proofs.NestEnds
import TensorProgram.Proofs.Relocation

/-!
Grids in scripts. A script with a grid around a part of it ends its sessions as the script does that
has a nest of loops there, up to the identities and the names of variables. A grid of no extents can
be left out of a script that succeeds.
-/

namespace TensorProgram

open Masked

namespace Script

def Term.ofList {t : Ty} : List (Term [] (.value t)) → Term [] (.value (.list t))
  | [] => .data (.nil t)
  | e :: es => .app (.app (.data (.cons t)) e) (ofList es)

def Step.grid (t : ThreadId) (es : List (Term [] (.value .expr))) : Step :=
  .openScope t (.app (.opening .grid) (.ofList es))

/-- Opens the loop over `[0, e)`. -/
def Step.serial (t : ThreadId) (e : Term [] (.value .expr)) : Step :=
  .openScope t (.app (.app (.app (.opening (.loop .serial)) (.data (.int 0 (.int 32)))) e)
    (.data (.none .annotations)))

/-- Closes the scopes of `n` calls from the `p`th on, the last one first. -/
def closes (p : Nat) : Nat → List Step
  | 0 => []
  | n + 1 => .close (p + n) :: closes p n

/-- The script with a grid around `body`. -/
def gridScript (pre : List Step) (t : ThreadId) (es : List (Term [] (.value .expr)))
    (body post : List Step) : List Step :=
  pre ++ .grid t es :: (body ++ .close pre.length :: post)

/-- Where calls go when others take the place of the grid around `body`. -/
def Relocation.around (pre body : List Step) (n : Nat) : Relocation where
  opening := pre.length
  closing := pre.length + 1 + body.length
  width := n
  ordered := by omega

/-- The script with a loop around `body` for each of the extents, outermost first. -/
def nestScript (pre : List Step) (t : ThreadId) (es : List (Term [] (.value .expr)))
    (body post : List Step) : List Step :=
  let move := Step.relocate (.around pre body es.length)
  pre ++ (es.map (.serial t) ++ (body.map move ++ (closes pre.length es.length ++ post.map move)))

/-- The output with which the script ends session `k`, if it does so well. -/
def output (k : SessionId) (script : List Step) (w : World) : Option Output :=
  (Run.outcome k ⟨w, []⟩ script).bind Answer.output?

/-! The openings. -/

theorem Term.eval_ofList {t : Ty} (es : List (Term [] (.value t))) (as : List Answer) :
    (ofList es).eval as = es.mapM fun e => e.eval as := by
  induction es with
  | nil => rfl
  | cons e es ih =>
      rw [ofList, eval, eval, ih, List.mapM_cons]
      cases e.eval as with
      | none => rfl
      | some x => cases es.mapM fun e => e.eval as <;> rfl

theorem mapM_mono {α β : Type} {f g : α → Option β} (h : ∀ a b, f a = some b → g a = some b)
    {l : List α} {bs : List β} (hl : l.mapM f = some bs) : l.mapM g = some bs := by
  induction l generalizing bs with
  | nil => exact hl
  | cons a l ih =>
      rw [List.mapM_cons] at hl ⊢
      obtain ⟨b, hb, hl⟩ := Option.bind_eq_some_iff.1 hl
      obtain ⟨cs, hcs, hl⟩ := Option.bind_eq_some_iff.1 hl
      rw [h a b hb, ih hcs]
      exact hl

theorem length_of_mapM {α β : Type} {f : α → Option β} {l : List α} {bs : List β}
    (h : l.mapM f = some bs) : bs.length = l.length := by
  induction l generalizing bs with
  | nil =>
      cases h
      rfl
  | cons a l ih =>
      rw [List.mapM_cons] at h
      obtain ⟨b, -, h⟩ := Option.bind_eq_some_iff.1 h
      obtain ⟨cs, hcs, h⟩ := Option.bind_eq_some_iff.1 h
      cases h
      exact congrArg (· + 1) (ih hcs)

theorem Term.eval_append {as : List Answer} (bs : List Answer) {ts : List Ty} {k : Kind}
    {e : Term ts k} {f : Fn ts k} (h : e.eval as = some f) : e.eval (as ++ bs) = some f := by
  induction e with
  | result n t =>
      obtain ⟨a, ha, ht⟩ := Option.bind_eq_some_iff.1 h
      have hn : (as ++ bs)[n]? = some a := by
        rw [List.getElem?_append_left (List.getElem?_eq_some_iff.1 ha).1, ha]
      rw [eval, hn]
      exact ht
  | item t l n ih =>
      obtain ⟨xs, hx, hn⟩ := Option.bind_eq_some_iff.1 h
      rw [eval, ih hx]
      exact hn
  | app f a ihf iha =>
      obtain ⟨g, hg, ha⟩ := Option.bind_eq_some_iff.1 h
      obtain ⟨x, hx, hf⟩ := Option.map_eq_some_iff.1 ha
      rw [eval, ihf hg, iha hx]
      exact congrArg some hf
  | given v | data p | node p | opening p | call p => exact h

section

variable {x : Run} {t : ThreadId} {k : SessionId} {es : List (Term [] (.value .expr))}
  {xs : List Expr}

/-- The run with a builder for that of session `k`. -/
def Run.worked (x : Run) (k : SessionId) (n : Nat) (b : Builder) (as : List Answer) : Run where
  world := { x.world with
    supply := x.world.supply.skip n
    builder := update x.world.builder k b }
  answers := x.answers ++ as

/-- The run after a grid with these loops has been opened. -/
def Run.gridded (x : Run) (k : SessionId) (row : List Loop) : Run :=
  x.worked k row.length
    ((x.world.builder k).push (.wrap { kind := .loops, heads := row.map .loop }))
    [.opened ⟨k, (x.world.builder k).nextId, .loops⟩ (.vars (row.map Loop.var))]

theorem Run.step_grid (ht : x.world.live t = some k)
    (he : es.mapM (fun e => e.eval x.answers) = some xs) :
    x.step (.grid t es) = x.gridded k (Opening.loopRow (x.world.builder k).config
      (fun i => "i" ++ toString i) 0 xs x.world.supply) := by
  have ho : (Term.app (.opening .grid) (.ofList es)).eval x.answers = some (Opening.grid xs) := by
    rw [Term.eval, Term.eval_ofList, he]
    rfl
  have hs : Opening.scope (x.world.builder k) (.grid xs) x.world.supply = .ok ((_, _), _) :=
    Opening.scope_grid (x.world.builder k) xs x.world.supply
  simp only [Run.step, Step.grid, Step.act, ho, Step.attempt, World.openScope_of_live ht,
    Builder.openScope_eq, gridded, Opening.length_loopRow]
  rw [hs]
  rfl

/-- What the loops of a nest answer, which are numbered from `p` on. -/
def openings (k : SessionId) : Nat → List Loop → List Answer
  | _, [] => []
  | p, l :: row => .opened ⟨k, p, .loops⟩ (.var l.var) :: openings k (p + 1) row

/-- The run after the loops have been opened one inside the other. -/
def Run.nested (x : Run) (k : SessionId) (row : List Loop) : Run :=
  x.worked k row.length ((x.world.builder k).stacked row)
    (openings k (x.world.builder k).nextId row)

theorem Run.step_serial (ht : x.world.live t = some k) {e : Term [] (.value .expr)} {y : Expr}
    (he : e.eval x.answers = some y) (hy : ¬y.Negative) (i : Nat) :
    x.step (.serial t e) = x.nested k
      (Opening.loopRow (x.world.builder k).config (fun _ => "i") i [y] x.world.supply) := by
  have ho : (Term.app (.app (.app (.opening (.loop .serial)) (.data (.int 0 (.int 32)))) e)
      (.data (.none .annotations))).eval x.answers =
        some (Opening.loop .serial (.int32 0) y none) := by
    simp only [Term.eval, he]
    rfl
  have hs : Opening.scope (x.world.builder k) (.loop .serial (.int32 0) y none) x.world.supply =
    .ok ((_, _), _) := Opening.scope_serial (x.world.builder k) hy x.world.supply
  simp only [Run.step, Step.serial, Step.act, ho, Step.attempt, World.openScope_of_live ht,
    Builder.openScope_eq]
  rw [hs]
  rfl

theorem Run.nested_nil (x : Run) (k : SessionId) : x.nested k [] = x := by
  obtain ⟨w, as⟩ := x
  have hu : update w.builder k (w.builder k) = w.builder := by
    rw [update_eq, Function.update_eq_self]
  simp only [nested, worked, Builder.stacked, List.foldl_nil, hu, openings, List.append_nil]
  rfl

theorem Run.nested_cons (x : Run) (k : SessionId) (l : Loop) (row : List Loop) :
    (x.nested k [l]).nested k row = x.nested k (l :: row) := by
  have hs (s : Supply) : (s.skip 1).skip row.length = s.skip (row.length + 1) :=
    s.take_skip row.length
  simp only [nested, worked, update_self, openings, List.append_assoc, List.length_cons,
    List.length_nil, hs]
  refine congrArg₂ Run.mk ?_ rfl
  simp only [update_eq, Function.update_idem]
  rfl

/-- The loops of a nest are opened one after the other. -/
theorem Run.foldl_serial (ht : x.world.live t = some k)
    (he : es.mapM (fun e => e.eval x.answers) = some xs) (hx : ∀ y ∈ xs, ¬y.Negative) (i : Nat) :
    (es.map (.serial t)).foldl Run.step x = x.nested k
      (Opening.loopRow (x.world.builder k).config (fun _ => "i") i xs x.world.supply) := by
  induction es generalizing x xs i with
  | nil =>
      cases he
      exact (x.nested_nil k).symm
  | cons e es ih =>
      rw [List.mapM_cons] at he
      obtain ⟨y, hy, he⟩ := Option.bind_eq_some_iff.1 he
      obtain ⟨ys, hys, he⟩ := Option.bind_eq_some_iff.1 he
      cases he
      rw [List.map_cons, List.foldl_cons, step_serial ht hy (hx y List.mem_cons_self) i]
      generalize hl : Opening.loopRow (x.world.builder k).config (fun _ => "i") i [y]
        x.world.supply = row
      have he : es.mapM (fun e => e.eval (x.nested k row).answers) = some ys :=
        mapM_mono (fun e y h => e.eval_append _ h) hys
      rw [ih (x := x.nested k row) ht he (fun z hz => hx z (List.mem_cons_of_mem y hz)) (i + 1)]
      subst hl
      simp only [Opening.loopRow]
      have hb (l : Loop) : (x.nested k [l]).world.builder k = (x.world.builder k).stacked [l] :=
        update_self _ _ _
      refine Eq.trans ?_ (nested_cons x k _ _)
      rw [hb]
      rfl

/-! The loops from then on. -/

theorem Run.answers_foldl (x : Run) (script : List Step) :
    ∃ as, (script.foldl Run.step x).answers = x.answers ++ as := by
  induction script generalizing x with
  | nil => exact ⟨[], (List.append_nil _).symm⟩
  | cons s ss ih =>
      obtain ⟨as, ha⟩ := ih (x.step s)
      exact ⟨_ :: as, ha.trans (List.append_assoc _ _ _)⟩

/-- An answer stays what it is. -/
theorem Run.getElem?_foldl {n : Nat} {a : Answer} (h : x.answers[n]? = some a)
    (script : List Step) : (script.foldl Run.step x).answers[n]? = some a := by
  obtain ⟨as, ha⟩ := x.answers_foldl script
  rw [ha, List.getElem?_append_left (List.getElem?_eq_some_iff.1 h).1, h]

theorem Run.length_step (x : Run) (s : Step) :
    (x.step s).answers.length = x.answers.length + 1 := by
  rw [step, List.length_append, List.length_singleton]

theorem Run.length_foldl (x : Run) (script : List Step) :
    (script.foldl Run.step x).answers.length = x.answers.length + script.length := by
  induction script generalizing x with
  | nil => rfl
  | cons s ss ih =>
      rw [List.foldl_cons, ih, length_step, List.length_cons]
      omega

theorem length_run (script : List Step) (w : World) :
    (run script w).answers.length = script.length :=
  (Run.length_foldl ⟨w, []⟩ script).trans (Nat.zero_add _)

theorem Run.outcome_closes (j : SessionId) (x : Run) (p n : Nat) :
    x.outcome j (closes p n) = none := by
  induction n generalizing x with
  | zero => rfl
  | succ n ih => exact ih _

theorem Run.foldl_closes {p q n : Nat} (h : ∀ i < n, x.answers[p + i]?.bind Answer.guard? =
    some ⟨k, q + i, .loops⟩) : ∃ as, as.length = n ∧ (closes p n).foldl Run.step x =
      x.worked k 0 (Builder.closeNest q n (x.world.builder k)) as := by
  induction n generalizing x with
  | zero => exact ⟨[], rfl, (x.nested_nil k).symm⟩
  | succ n ih =>
      have hg := h n (Nat.lt_succ_self n)
      have hlast : ∀ i < n, (x.step (.close (p + n))).answers[p + i]?.bind Answer.guard? =
          some ⟨k, q + i, .loops⟩ := by
        intro i hi
        obtain ⟨a, ha, hf⟩ := Option.bind_eq_some_iff.1 (h i (Nat.lt_succ_of_lt hi))
        have hk := Run.getElem?_foldl ha [.close (p + n)]
        exact (congrArg (Option.bind · Answer.guard?) hk).trans hf
      obtain ⟨as, hl, hr⟩ := ih hlast
      refine ⟨((Step.close (p + n)).act x.answers x.world).1 :: as, congrArg (· + 1) hl, ?_⟩
      rw [closes, List.foldl_cons, hr]
      simp only [worked, Run.step, Step.act, hg, Step.attempt, World.close, Prod.map, id,
        update_self, Builder.closeNest, List.append_assoc]
      simp only [update_eq, Function.update_idem]
      rfl

/-- Where nothing has been opened there is nothing to be closed. -/
theorem Run.foldl_closes_of_none {p n : Nat}
    (h : ∀ i < n, ∃ a, x.answers[p + i]? = some a ∧ a.guard? = none) :
    ∃ as, as.length = n ∧ (closes p n).foldl Run.step x = ⟨x.world, x.answers ++ as⟩ := by
  induction n generalizing x with
  | zero => exact ⟨[], rfl, by simp [closes]⟩
  | succ n ih =>
      have hg : x.answers[p + n]?.bind Answer.guard? = none := by
        obtain ⟨a, ha, hg⟩ := h n (Nat.lt_succ_self n)
        rw [ha]
        exact hg
      have hlast : ∀ i < n, ∃ a, (x.step (.close (p + n))).answers[p + i]? = some a ∧
          a.guard? = none := by
        intro i hi
        obtain ⟨a, ha, hf⟩ := h i (Nat.lt_succ_of_lt hi)
        exact ⟨a, Run.getElem?_foldl ha [.close (p + n)], hf⟩
      obtain ⟨as, hl, hr⟩ := ih hlast
      refine ⟨((Step.close (p + n)).act x.answers x.world).1 :: as, congrArg (· + 1) hl, ?_⟩
      rw [closes, List.foldl_cons, hr]
      simp only [Run.step, Step.act, hg, Step.attempt, List.append_assoc]
      rfl

theorem rel_or {α β : Type} {P : α → β → Prop} {a b : Option α} {a' b' : Option β}
    (ha : Option.Rel P a a') (hb : Option.Rel P b b') : Option.Rel P (a.or b) (a'.or b') := by
  cases ha with
  | none => exact hb
  | some h => exact .some h

/-- The runs go on side by side through the body, the closing and what comes after it. -/
theorem Run.Tracks.rest {r : Relocation} {γ : Nat → Nat} {C : Nat → Prop}
    {R : Builder → Builder → Prop} {x' : Run} {body post : List Step}
    (hm : Builder.Mirrors γ C R fun _ => False) (hR : Builder.Finishes R) {I : Run → Prop}
    (hI : ∀ {x} s, I x → I (Run.step x s))
    (hC : ∀ {x}, I x → ∀ (i : Nat) (g : Guard), i ≠ r.opening →
      x.answers[i]?.bind Answer.guard? = some g → g.session = k → C g.frame)
    (hs : ∀ s ∈ body ++ post, s.closes? ≠ some r.opening) (h : x.Tracks r k γ R x') (hx : I x)
    (hl : x.answers.length + body.length = r.closing)
    (hclose : (body.foldl Run.step x).Tracks r k γ R
        ((body.map (Step.relocate r)).foldl Run.step x') →
      ((body.foldl Run.step x).step (.close r.opening)).Tracks r k γ R
        ((closes r.opening r.width).foldl Run.step
          ((body.map (Step.relocate r)).foldl Run.step x'))) (j : SessionId) :
    Option.Rel (Answer.Reads k γ) (x.outcome j (body ++ .close r.opening :: post))
      (x'.outcome j (body.map (Step.relocate r) ++ (closes r.opening r.width ++
        post.map (Step.relocate r)))) := by
  have hbody : I (body.foldl Run.step x) :=
    List.foldlRecOn body Run.step hx fun _ hx s _ => hI s hx
  have hlen : r.closing < ((body.foldl Run.step x).step (.close r.opening)).answers.length := by
    rw [length_step, length_foldl]
    omega
  obtain ⟨ht, ho⟩ := h.foldl_always hm hR hI hC
    (fun s hm => hs s (List.mem_append_left _ hm)) hx (Or.inl (Nat.le_of_eq hl))
  obtain ⟨-, ho'⟩ := (hclose ht).foldl_always hm hR hI hC
    (fun s hm => hs s (List.mem_append_right _ hm)) (hI _ hbody) (Or.inr hlen)
  rw [outcome_append, outcome_append, outcome_append, outcome_closes, Option.none_or]
  exact rel_or (ho j) (ho' j)

/-! A grid where a session is live. -/

theorem length_openings (k : SessionId) (q : Nat) (row : List Loop) :
    (openings k q row).length = row.length := by
  induction row generalizing q with
  | nil => rfl
  | cons l row ih => exact congrArg (· + 1) (ih (q + 1))

theorem guard?_openings {q i : Nat} {row : List Loop} (hi : i < row.length) :
    (openings k q row)[i]?.bind Answer.guard? = some ⟨k, q + i, .loops⟩ := by
  induction row generalizing q i with
  | nil => cases hi
  | cons l row ih =>
      cases i with
      | zero => rfl
      | succ i =>
          have hi := ih (q := q + 1) (Nat.lt_of_succ_lt_succ hi)
          rwa [Nat.add_assoc, Nat.add_comm 1 i] at hi

/-- The variables are the results of the calls that open the loops. -/
theorem eval_results_openings (as : List Answer) (q : Nat) (row : List Loop) :
    (Relocation.results .var as.length row.length).eval (as ++ openings k q row) =
      some (row.map Loop.var) := by
  induction row generalizing as q with
  | nil => rfl
  | cons l row ih =>
      have hl : (as ++ openings k q (l :: row))[as.length]? =
          some (.opened ⟨k, q, .loops⟩ (.var l.var)) := by
        rw [List.getElem?_append_right (Nat.le_refl _), Nat.sub_self]
        rfl
      have hr := ih (as ++ [.opened ⟨k, q, .loops⟩ (.var l.var)]) (q + 1)
      rw [List.append_assoc, List.length_append, List.length_singleton] at hr
      simp only [List.length_cons, Relocation.results, Term.eval, hl]
      rw [openings]
      change (Option.some _).bind (fun f => ((Relocation.results .var (as.length + 1)
        row.length).eval (as ++ ([.opened ⟨k, q, .loops⟩ (.var l.var)] ++
          openings k (q + 1) row))).map f) = _
      rw [hr]
      rfl

theorem eval_vars_openings {r : Relocation} {as : List Answer} {row : List Loop}
    (hl : as.length = r.opening) (hw : row.length = r.width) (q : Nat) (g : Guard) (t : Ty) :
    (r.vars t).eval (as ++ openings k q row) =
      (Answer.opened g (.vars (row.map Loop.var))).get? t := by
  cases t with
  | list u =>
      cases u with
      | var =>
          rw [Relocation.vars, ← hl, ← hw]
          exact eval_results_openings as q row
      | _ => rfl
  | _ => rfl

/-- The grid has just been opened, and where it is not, its loops. -/
theorem Run.Sound.reads (hx : x.Sound) {r : Relocation} (row : List Loop) {γ : Nat → Nat}
    (hl : x.answers.length = r.opening) (hw : row.length = r.width)
    (hγ : ∀ i < (x.world.builder k).nextId, γ i = i) :
    r.Reads k γ (x.answers ++ [.opened ⟨k, (x.world.builder k).nextId, .loops⟩
        (.vars (row.map Loop.var))])
      (x.answers ++ openings k (x.world.builder k).nextId row) := by
  refine .start hl ?_ ((length_openings k _ row).trans hw) rfl rfl
    (eval_vars_openings hl hw _ _)
  intro n g hg
  obtain ⟨-, hf⟩ := hx.guards n g hg
  rw [Guard.move]
  split
  · rename_i hk
    rw [hγ g.frame (hk ▸ hf)]
  · rfl

/-- No other scope of the session has the number of the grid. -/
theorem Run.Sound.owns (hx : x.Sound) (ht : x.world.live t = some k) (n : Nat) {b : Builder}
    (hb : (x.world.builder k).nextId < b.nextId) (v : Value) :
    (x.worked k n b [.opened ⟨k, (x.world.builder k).nextId, .loops⟩ v]).Owns k
      (x.world.builder k).nextId x.answers.length where
  entered := hx.world.live t k ht
  next := by
    have hu : (x.worked k n b [.opened ⟨k, (x.world.builder k).nextId, .loops⟩ v]).world.builder k =
      b := update_self _ _ _
    rwa [hu]
  past := by simp [worked]
  guards i g hi hg hk := by
    have hlt : i < x.answers.length := by
      obtain ⟨a, ha, -⟩ := Option.bind_eq_some_iff.1 hg
      have := (List.getElem?_eq_some_iff.1 ha).1
      simp only [worked, List.length_append, List.length_singleton] at this
      omega
    rw [worked, List.getElem?_append_left hlt] at hg
    obtain ⟨-, hf⟩ := hx.guards i g hg
    exact Nat.ne_of_lt (hk ▸ hf)

section

variable {r : Relocation} {row : List Loop} {body post : List Step}

/-- Opened, the loops of the nest are those of the grid. -/
theorem Run.Sound.gridded_tracks (hx : x.Sound) (ht : x.world.live t = some k)
    (hl : x.answers.length = r.opening) (hw : row.length = r.width)
    (hd : (row.map fun l => l.var.id).Nodup) (hn : row ≠ []) :
    let σ := Site.ofRow (x.world.builder k) row hd
    (x.gridded k row).Tracks r k σ.place σ.Unfolds (x.nested k row) := by
  intro σ
  have hlt := (hx.world.ordered k).lt_nextId
  have hb : (x.gridded k row).world.builder k = (x.world.builder k).push σ.scope := by
    rw [Site.scope_ofRow]
    exact update_self _ _ _
  refine ⟨hx.reads row hl hw fun i hi => shift_of_le (Nat.le_of_lt hi), ?_,
    (x.world.builder k).stacked row, ?_, ?_⟩
  · intro hle
    exact absurd (hx.world.live t k ht) (Nat.not_lt_of_le hle)
  · rw [hb]
    exact ⟨Site.marks_ofRow hlt hn, (Site.spread_push_ofRow hlt).symm⟩
  · simp only [nested, gridded, worked, update_eq, Function.update_idem]

theorem Run.step_close {n : Nat} {g : Guard} (hg : x.answers[n]?.bind Answer.guard? = some g) :
    x.step (.close n) = ⟨(x.world.close g).2, x.answers ++
      [.ofCheck (fun _ => .done) (x.world.close g).1]⟩ := by
  simp only [Run.step, Step.act, hg, Step.attempt]
  rfl

theorem Run.builder_step_close {n p : Nat} {kind : ScopeKind}
    (hg : x.answers[n]?.bind Answer.guard? = some ⟨k, p, kind⟩) :
    (x.step (.close n)).world.builder k = ((x.world.builder k).close p kind).2 := by
  rw [step_close hg]
  exact update_self _ _ _

/-- To close the grid and to close the loops one by one comes to the same. -/
theorem Run.Tracks.close_nest {σ : Site} {x' : Run} (h : x.Tracks r k σ.place σ.Unfolds x')
    (hl : x.answers.length = r.closing) (hw : σ.loops.length = r.width) (hn : σ.loops ≠ [])
    (hg : x.answers[r.opening]?.bind Answer.guard? = some ⟨k, σ.frame, .loops⟩)
    (hgs : ∀ i < r.width, x'.answers[r.opening + i]?.bind Answer.guard? =
      some ⟨k, σ.frame + i, .loops⟩) :
    (x.step (.close r.opening)).Tracks r k σ.place σ.Unfolds
      ((closes r.opening r.width).foldl Run.step x') := by
  obtain ⟨as, has, hc⟩ := foldl_closes hgs
  obtain ⟨hmarks, hspread⟩ := h.worlds.own
  have hnest := Builder.closeNest_spread hmarks hn
  rw [← hspread, hw] at hnest
  have hunfolds : σ.Unfolds ((x.world.builder k).close σ.frame .loops).2
    (Builder.closeNest σ.frame r.width (x'.world.builder k)) := ⟨hmarks.close _ _, hnest⟩
  rw [hc, step_close hg]
  exact ⟨h.reads.close hl (Answer.blank_ofCheck _) has, h.worlds.change_own hunfolds⟩

/-- What a grid and the nest of its loops come to, whatever is done in them and after them. -/
theorem Run.Sound.gridded_rest (hx : x.Sound) (ht : x.world.live t = some k)
    (hl : x.answers.length = r.opening) (hw : row.length = r.width)
    (hd : (row.map fun l => l.var.id).Nodup) (hn : row ≠ [])
    (hb : x.answers.length + 1 + body.length = r.closing)
    (hs : ∀ s ∈ body ++ post, s.closes? ≠ some r.opening) (j : SessionId) :
    Option.Rel (Answer.Reads k (Site.ofRow (x.world.builder k) row hd).place)
      ((x.gridded k row).outcome j (body ++ .close r.opening :: post))
      ((x.nested k row).outcome j (body.map (Step.relocate r) ++ (closes r.opening r.width ++
        post.map (Step.relocate r)))) := by
  let σ := Site.ofRow (x.world.builder k) row hd
  have hσ : σ.loops.length = r.width := hw ▸ List.length_reverse
  have hnσ : σ.loops ≠ [] := by simpa [σ, Site.ofRow] using hn
  have howns : (x.gridded k row).Owns k σ.frame r.opening :=
    hl ▸ hx.owns ht _ (Nat.lt_succ_self _) _
  have hlen : (x.gridded k row).answers.length + body.length = r.closing := by
    rw [← hb]
    simp [gridded, worked]
  refine (hx.gridded_tracks ht hl hw hd hn).rest σ.mirrors σ.finishes
    (I := fun y => y.Owns k σ.frame r.opening) (fun s h => h.step s) (fun h => h.guards) hs howns
    hlen (fun htracks => htracks.close_nest ?_ hσ hnσ ?_ fun i hi => ?_) j
  · rw [length_foldl, hlen]
  · rw [Run.getElem?_foldl (a := .opened ⟨k, σ.frame, .loops⟩ (.vars (row.map Loop.var)))]
    · rfl
    · rw [← hl]
      exact List.getElem?_concat_length ..
  · obtain ⟨a, ha, hg⟩ := Option.bind_eq_some_iff.1 (guard?_openings (k := k) (q := σ.frame)
      (hw ▸ hi : i < row.length))
    rw [Run.getElem?_foldl (a := a)]
    · exact hg
    · rw [← hl, nested, worked, List.getElem?_append_right (Nat.le_add_right _ _),
        Nat.add_sub_cancel_left]
      exact ha

/-! A grid where no session is live. -/

/-- The run after a call that has failed and left the world alone. -/
def Run.failed (x : Run) (fs : List Failure) : Run := ⟨x.world, x.answers ++ fs.map .failed⟩

theorem Run.step_openScope_idle (ht : x.world.live t = none) {e : Term [] .opening} {o : Opening}
    (he : e.eval x.answers = some o) :
    x.step (.openScope t e) = x.failed [.refused (.noActiveBuilder o.op)] := by
  simp only [Run.step, Step.act, he, Step.attempt, World.openScope_of_idle ht]
  rfl

theorem Run.step_grid_idle (ht : x.world.live t = none)
    (he : es.mapM (fun e => e.eval x.answers) = some xs) :
    x.step (.grid t es) = x.failed [.refused (.noActiveBuilder "grid")] := by
  apply step_openScope_idle (o := .grid xs) ht
  rw [Term.eval, Term.eval_ofList, he]
  rfl

theorem Run.foldl_serial_idle (ht : x.world.live t = none)
    (he : es.mapM (fun e => e.eval x.answers) = some xs) :
    (es.map (.serial t)).foldl Run.step x =
      x.failed (xs.map fun _ => .refused (.noActiveBuilder "serial")) := by
  induction es generalizing x xs with
  | nil =>
      cases he
      exact congrArg (Run.mk x.world) (List.append_nil _).symm
  | cons e es ih =>
      rw [List.mapM_cons] at he
      obtain ⟨y, hy, he⟩ := Option.bind_eq_some_iff.1 he
      obtain ⟨ys, hys, he⟩ := Option.bind_eq_some_iff.1 he
      cases he
      have hs : x.step (.serial t e) = x.failed [.refused (.noActiveBuilder "serial")] := by
        apply step_openScope_idle (o := .loop .serial (.int32 0) y none) ht
        simp only [Term.eval, hy]
        rfl
      rw [List.map_cons, List.foldl_cons, hs,
        ih (x := x.failed _) ht (mapM_mono (fun e y h => e.eval_append _ h) hys)]
      simp [failed]

theorem eval_results_failed (as : List Answer) {fs : List Failure} (hf : fs ≠ []) :
    (Relocation.results .var as.length fs.length).eval (as ++ fs.map .failed) = none := by
  cases fs with
  | nil => exact absurd rfl hf
  | cons f fs =>
      have hl : (as ++ (f :: fs).map .failed)[as.length]? = some (.failed f) := by
        rw [List.getElem?_append_right (Nat.le_refl _), Nat.sub_self]
        rfl
      simp only [List.length_cons, Relocation.results, Term.eval, hl]
      rfl

theorem Run.guard?_failed {y : Run} {as : List Answer} {fs : List Failure}
    (h : y.answers = as ++ fs.map .failed) {i : Nat} (hi : i < fs.length) (script : List Step) :
    ∃ a, (script.foldl Run.step y).answers[as.length + i]? = some a ∧ a.guard? = none := by
  refine ⟨.failed fs[i], Run.getElem?_foldl ?_ script, rfl⟩
  rw [h, List.getElem?_append_right (Nat.le_add_right _ _), Nat.add_sub_cancel_left,
    List.getElem?_map, List.getElem?_eq_getElem hi]
  rfl

/-- Where there is no session that could open them, grid and nest come to the same. -/
theorem Run.failed_rest (f : Failure) (fs : List Failure) (hl : x.answers.length = r.opening)
    (hw : fs.length = r.width) (hn : fs ≠ []) (hb : x.answers.length + 1 + body.length = r.closing)
    (hs : ∀ s ∈ body ++ post, s.closes? ≠ some r.opening) (j : SessionId) :
    Option.Rel (Answer.Reads 0 id)
      ((x.failed [f]).outcome j (body ++ .close r.opening :: post))
      ((x.failed fs).outcome j (body.map (Step.relocate r) ++ (closes r.opening r.width ++
        post.map (Step.relocate r)))) := by
  have hready : (x.failed [f]).Tracks r 0 id Eq (x.failed fs) := by
    refine ⟨.start hl ?_ (by rw [List.length_map, hw]) rfl rfl ?_, ?_, _, rfl, ?_⟩
    · intro n g _
      rw [Guard.move]
      split <;> rfl
    · intro u
      cases u with
      | list u =>
          cases u with
          | var =>
              rw [Relocation.vars, ← hl, ← hw]
              exact eval_results_failed x.answers hn
          | _ => rfl
      | _ => rfl
    · exact fun _ _ => rfl
    · rw [update_eq, Function.update_eq_self]
      rfl
  have hlen : (x.failed [f]).answers.length + body.length = r.closing := by
    rw [← hb]
    simp [failed]
  refine hready.rest Builder.mirrors_eq Builder.finishes_eq (I := fun _ => True)
    (fun _ _ => trivial) (fun _ _ _ _ _ _ => trivial) hs trivial hlen (fun htracks => ?_) j
  obtain ⟨a, ha, hg⟩ := Run.guard?_failed (y := x.failed [f]) rfl Nat.one_pos body
  obtain ⟨as, has, hc⟩ := foldl_closes_of_none (p := r.opening) (n := r.width)
    fun i hi => hl ▸ Run.guard?_failed (y := x.failed fs) rfl (hw ▸ hi) (body.map (Step.relocate r))
  have hnone : (body.foldl Run.step (x.failed [f])).answers[r.opening]?.bind Answer.guard? =
      none := by
    rw [← hl, ← Nat.add_zero x.answers.length, ha]
    exact hg
  rw [hc]
  refine ⟨?_, ?_⟩
  · simp only [Run.step, Step.act, hnone, Step.attempt]
    exact htracks.reads.close (by rw [length_foldl, hlen]) Answer.blank_skipped has
  · simp only [Run.step, Step.act, hnone, Step.attempt]
    exact htracks.worlds

/-! A grid of no extents. -/

theorem Run.Owns.foldl {p n : Nat} (h : x.Owns k p n) (script : List Step) :
    (script.foldl Run.step x).Owns k p n :=
  List.foldlRecOn script Run.step h fun _ h s _ => h.step s

/-- Opened, the hollow scope is what the session has besides. -/
theorem Run.Sound.hollow_tracks (hx : x.Sound) (ht : x.world.live t = some k)
    (hl : x.answers.length = r.opening) (hw : r.width = 0) :
    let p := (x.world.builder k).nextId
    (x.gridded k []).Tracks r k (Site.hollow p).place (Builder.Inlines p) x := by
  intro p
  have hr := hx.reads [] hl hw.symm (γ := (Site.hollow p).place) fun i hi =>
    shift_of_le (Nat.le_of_lt hi)
  rw [openings, List.append_nil] at hr
  refine ⟨hr, ?_, x.world.builder k, ?_, ?_⟩
  · intro hle
    exact absurd (hx.world.live t k ht) (Nat.not_lt_of_le hle)
  · have hb : (x.gridded k []).world.builder k = (x.world.builder k).push .hollow :=
      update_self _ _ _
    rw [hb]
    exact Builder.inlines_push (hx.world.ordered k).lt_nextId
  · simp only [gridded, worked, update_eq, Function.update_idem, Function.update_eq_self]
    rfl

/-- Whatever the hollow scope has held back is now where it would be without it. -/
theorem Run.Tracks.close_hollow {p : Nat} {x' : Run}
    (h : x.Tracks r k (Site.hollow p).place (Builder.Inlines p) x')
    (hl : x.answers.length = r.closing) (hw : r.width = 0) (hk : k < x.world.entered)
    (hg : x.answers[r.opening]?.bind Answer.guard? = some ⟨k, p, .loops⟩) :
    ((x.step (.close r.opening)).world.builder k).firstError.isSome ∨
      (x.step (.close r.opening)).Tracks r k (Site.hollow p).place (Site.hollow p).Unfolds x' := by
  rw [builder_step_close hg, step_close hg]
  refine (h.worlds.own.close_self .loops).imp_right fun hu => ⟨?_, h.worlds.change_first hk hu⟩
  have hblank := Answer.blank_ofCheck (x.world.close ⟨k, p, .loops⟩).1
  have hr := h.reads.close hl hblank (show ([] : List Answer).length = r.width from hw.symm)
  rwa [List.append_nil] at hr

/-- The session does not end well in the body, nor with an error. -/
theorem Run.Owns.hollow_body {p : Nat} {y : Run} {out : Output} (hy : y.Owns k p r.opening)
    (hs : ∀ s ∈ body, s.closes? ≠ some r.opening) (hu : Builder.Unready p (y.world.builder k))
    (h : (y.outcome k (body ++ .close r.opening :: post)).bind Answer.output? = some out) :
    y.outcome k body = none ∧
      (((body.foldl Run.step y).step (.close r.opening)).outcome k post).bind Answer.output? =
        some out ∧
      ¬(((body.foldl Run.step y).step (.close r.opening)).world.builder k).firstError.isSome := by
  have hbody : y.outcome k body = none := by
    have hn := Run.outcome_of_lasts (Builder.lasts_unready p) (fun h => h.finish)
      (I := fun y => y.Owns k p r.opening) (fun s h => h.step s) (fun h => h.entered) body
      (fun hy s hm n hn g => hy.guards n g fun he => hs s hm (he ▸ hn)) hy hu
    rw [outcome_append] at h
    cases ho : y.outcome k body with
    | none => rfl
    | some a =>
        rw [ho] at h hn
        exact absurd (hn.symm.trans h) (by simp)
  rw [outcome_append, hbody, Option.none_or] at h
  refine ⟨hbody, h, fun he => ?_⟩
  have hn := Run.outcome_of_lasts Builder.lasts_firstError Builder.finish_of_firstError
    (I := fun y => y.Owns k p r.opening) (fun s h => h.step s) (fun h => h.entered) post
    (fun _ _ _ _ _ _ _ _ => trivial) ((hy.foldl body).step _) he
  exact absurd (hn.symm.trans h) (by simp)

/-- What is past saving at some time in the body is so when the grid is closed. -/
theorem Run.Owns.doomed_close {p : Nat} {y : Run} (hy : y.Owns k p r.opening)
    (hs : ∀ s ∈ body, s.closes? ≠ some r.opening) (hf : y.outcome k body = none)
    (hg : (body.foldl Run.step y).answers[r.opening]?.bind Answer.guard? = some ⟨k, p, .loops⟩)
    (hd : Builder.Doomed p (y.world.builder k)) :
    (((body.foldl Run.step y).step (.close r.opening)).world.builder k).firstError.isSome := by
  have hlast := Run.lasts (Builder.lasts_doomed p) (I := fun y => y.Owns k p r.opening)
    (fun s h => h.step s) (fun h => h.entered) body
    (fun hy s hm n hn g => hy.guards n g fun he => hs s hm (he ▸ hn)) hy hf hd
  rw [builder_step_close hg]
  exact hlast.close_self .loops

/-- Where a session ends well with a grid of no extents, it does so without it. -/
theorem Run.Sound.hollow_rest (hx : x.Sound) (ht : x.world.live t = some k)
    (hl : x.answers.length = r.opening) (hw : r.width = 0)
    (hb : x.answers.length + 1 + body.length = r.closing)
    (hs : ∀ s ∈ body ++ post, s.closes? ≠ some r.opening) {out : Output}
    (h : ((x.gridded k []).outcome k (body ++ .close r.opening :: post)).bind Answer.output? =
      some out) :
    (x.outcome k (body.map (Step.relocate r) ++ post.map (Step.relocate r))).bind
      Answer.output? = some out := by
  have hready := hx.hollow_tracks ht hl hw
  have howns : (x.gridded k []).Owns k (x.world.builder k).nextId r.opening :=
    hl ▸ hx.owns ht _ (Nat.lt_succ_self _) _
  have hlen : (x.gridded k []).answers.length + body.length = r.closing := by
    rw [← hb]
    simp [gridded, worked]
  have hopen : (x.gridded k []).answers[r.opening]? =
      some (.opened ⟨k, (x.world.builder k).nextId, .loops⟩ (.vars [])) := by
    rw [← hl]
    exact List.getElem?_concat_length ..
  generalize (x.world.builder k).nextId = p at *
  generalize x.gridded k [] = y at *
  have hsb : ∀ s ∈ body, s.closes? ≠ some r.opening := fun s hm => hs s (List.mem_append_left _ hm)
  obtain ⟨hbody, hrest, hclean⟩ := howns.hollow_body hsb hready.worlds.own.unready h
  have hg : (body.foldl Run.step y).answers[r.opening]?.bind Answer.guard? =
      some ⟨k, p, .loops⟩ := by
    rw [Run.getElem?_foldl hopen]
    rfl
  obtain ⟨ys, zs, rfl, hd⟩ | ⟨htracks, ho⟩ := hready.foldl (Builder.mirrors_inlines p)
    (I := fun y => y.Owns k p r.opening) (fun s h => h.step s) (fun h => h.guards) hsb howns
    (Or.inl (Nat.le_of_eq hlen)) (Or.inr hbody)
  · rw [outcome_append, Option.or_eq_none_iff] at hbody
    rw [List.foldl_append] at hg hclean
    exact absurd ((howns.foldl ys).doomed_close (fun s hm => hsb s (List.mem_append_right ys hm))
      hbody.2 hg hd) hclean
  · have hlast : r.closing < ((body.foldl Run.step y).step (.close r.opening)).answers.length := by
      rw [length_step, length_foldl]
      omega
    have hclosed := (htracks.close_hollow (by rw [length_foldl, hlen]) hw
      (howns.foldl body).entered hg).resolve_left hclean
    obtain ⟨-, ho'⟩ := hclosed.foldl_always (Site.hollow p).mirrors (Site.hollow p).finishes
      (I := fun y => y.Owns k p r.opening) (fun s h => h.step s) (fun h => h.guards)
      (fun s hm => hs s (List.mem_append_right _ hm)) ((howns.foldl body).step _) (Or.inr hlast)
    have hno : x.outcome k (body.map (Step.relocate r)) = none := by
      have ho := ho k
      rw [hbody] at ho
      generalize x.outcome k (body.map (Step.relocate r)) = a at ho ⊢
      cases ho
      rfl
    rw [outcome_append, hno, Option.none_or]
    exact (Answer.Reads.bind_output? (ho' k)).trans hrest

end

end

end Script

end TensorProgram
