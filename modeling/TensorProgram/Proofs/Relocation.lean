import TensorProgram.Proofs.Advances
import TensorProgram.Proofs.Nests

/-!
Relocated scripts. Where the call that opens a scope and the one that closes it give way to others,
the calls after them come later or earlier, and what refers to their results has to follow. With
its references moved, a script does in one world what it does in another, as long as the builders
of the session in which the scope is opened mirror each other.
-/

namespace TensorProgram

namespace Script

/-- The calls at two places of a script give way to as many calls each. -/
structure Relocation where
  opening : Nat
  closing : Nat
  width : Nat
  ordered : opening < closing

namespace Relocation

variable (r : Relocation)

/-- Where the call is that is at `i`. -/
def pos (i : Nat) : Nat := shift r.width r.opening (shift r.width r.closing i)

def place? (i : Nat) : Option Nat :=
  if i = r.opening ∨ i = r.closing then none else some (r.pos i)

/-- A term without a value. -/
def lost (t : Ty) : Term [] (.value t) := .item t (.data (.nil t)) 0

/-- The results of `n` calls from the `k`th on. -/
def results (t : Ty) (k : Nat) : Nat → Term [] (.value (.list t))
  | 0 => .data (.nil t)
  | n + 1 => .app (.app (.data (.cons t)) (.result k t)) (results t (k + 1) n)

/-- What the call gives back that opens the scope: the variables of its loops. -/
def vars : (t : Ty) → Term [] (.value t)
  | .list .var => results .var r.opening r.width
  | t => lost t

def result (n : Nat) (t : Ty) : Term [] (.value t) :=
  if n = r.opening then r.vars t else (r.place? n).elim (lost t) (.result · t)

variable {r}

theorem place?_of_ne {i : Nat} (ho : i ≠ r.opening) (hc : i ≠ r.closing) :
    r.place? i = some (r.pos i) := if_neg (by simp [ho, hc])

theorem place?_closing : r.place? r.closing = none := if_pos (Or.inr rfl)

theorem pos_of_le {i : Nat} (h : i ≤ r.opening) : r.pos i = i := by
  have := r.ordered
  rw [pos, shift_of_le (by omega : i ≤ r.closing), shift_of_le h]

theorem pos_opening_succ : r.pos (r.opening + 1) = r.opening + r.width := by
  have := r.ordered
  rw [pos, shift_of_le (by omega : r.opening + 1 ≤ r.closing), shift_of_lt (Nat.lt_succ_self _)]
  omega

theorem pos_closing : r.pos r.closing = r.closing + r.width - 1 := by
  rw [pos, shift_of_le (Nat.le_refl _), shift_of_lt r.ordered]

theorem pos_closing_succ : r.pos (r.closing + 1) = r.pos r.closing + r.width := by
  have := r.ordered
  rw [pos_closing, pos, shift_of_lt (Nat.lt_succ_self _), shift_of_lt (by omega)]
  omega

theorem pos_succ {i : Nat} (ho : i ≠ r.opening) (hc : i ≠ r.closing) :
    r.pos (i + 1) = r.pos i + 1 := by
  have := r.ordered
  simp only [pos, shift]
  split <;> split <;> split <;> split <;> omega

theorem pos_mono {i j : Nat} (h : i ≤ j) : r.pos i ≤ r.pos j := by
  have := r.ordered
  simp only [pos, shift]
  split <;> split <;> split <;> split <;> omega

theorem pos_lt {i j : Nat} (ho : i ≠ r.opening) (hc : i ≠ r.closing) (h : i < j) :
    r.pos i < r.pos j := by
  have := r.ordered
  simp only [pos, shift]
  split <;> split <;> split <;> split <;> omega

end Relocation

/-- The term with its references moved. -/
def Term.relocate (r : Relocation) : {ts : List Ty} → {k : Kind} → Term ts k → Term ts k
  | _, _, result n t => r.result n t
  | _, _, item t l n => item t (l.relocate r) n
  | _, _, app f a => app (f.relocate r) (a.relocate r)
  | _, _, given v => given v
  | _, _, data p => data p
  | _, _, node p => node p
  | _, _, opening p => opening p
  | _, _, call p => call p

namespace Step

/-- A call that is not made. -/
def idle : Step := .make .var (Relocation.lost .var)

/-- The call with its references moved. -/
def relocate (r : Relocation) : Step → Step
  | .enter t c => .enter t c
  | .current t op => .current t op
  | .openScope t o => .openScope t (o.relocate r)
  | .call t c => .call t (c.relocate r)
  | .close n => (r.place? n).elim idle .close
  | .drop n => (r.place? n).elim idle .drop
  | .finish n => (r.place? n).elim idle .finish
  | .leave n => (r.place? n).elim idle .leave
  | .asFunc n => (r.place? n).elim idle .asFunc
  | .asStmt n => (r.place? n).elim idle .asStmt
  | .make t a => .make t (a.relocate r)
  | .fold t a => .fold t (a.relocate r)
  | .mint t a => .mint t (a.relocate r)
  | .declare d shape o => .declare d (shape.relocate r) (o.relocate r)

/-- The call whose scope is closed. -/
def closes? : Step → Option Nat
  | .close n | .drop n => some n
  | _ => none

def finishes? : Step → Option Nat
  | .finish n => some n
  | _ => none

end Step

/-- The second answer is what the first one is in the other world. How a call fails may be told
differently there, as for an end that comes too early the open scopes are named. -/
inductive Answer.Reads (k : SessionId) (γ : Nat → Nat) : Answer → Answer → Prop where
  | same {a : Answer} (h : a.guard? = none) : Reads k γ a a
  | failed (f f' : Failure) : Reads k γ (.failed f) (.failed f')
  | opened (g : Guard) (v : Value) : Reads k γ (.opened g v) (.opened (g.move k γ) v)

namespace Answer

variable {k : SessionId} {γ : Nat → Nat} {a a' : Answer}

theorem Reads.get? (h : Reads k γ a a') (t : Ty) : a'.get? t = a.get? t := by
  cases h <;> rfl

theorem Reads.refl (h : ∀ g, a.guard? = some g → g.move k γ = g) : Reads k γ a a := by
  cases a with
  | opened g v =>
      have ho := Reads.opened (k := k) (γ := γ) g v
      rwa [h g rfl] at ho
  | _ => exact .same rfl

theorem Reads.session? (h : Reads k γ a a') : a'.session? = a.session? := by
  cases h <;> rfl

theorem Reads.output? (h : Reads k γ a a') : a'.output? = a.output? := by
  cases h <;> rfl

theorem Reads.bind_output? {x x' : Option Answer} (h : Option.Rel (Reads k γ) x x') :
    x'.bind Answer.output? = x.bind Answer.output? := by
  cases h with
  | none => rfl
  | some h => exact h.output?

theorem Reads.guard? (h : Reads k γ a a') : a'.guard? = a.guard?.map (Guard.move k γ) := by
  cases h with
  | same h =>
      rw [h]
      rfl
  | failed f f' | opened g v => rfl

/-- There is nothing in it that a call could refer to. -/
structure Blank (a : Answer) : Prop where
  get? : ∀ t, a.get? t = none
  session? : a.session? = none
  guard? : a.guard? = none
  output? : a.output? = none

theorem blank_ofCheck {α : Type} (r : Except BuildError α) : (ofCheck (fun _ => done) r).Blank := by
  cases r <;> exact ⟨fun _ => rfl, rfl, rfl, rfl⟩

theorem blank_skipped : skipped.Blank := ⟨fun _ => rfl, rfl, rfl, rfl⟩

end Answer

/-- The answers in one world and those in the other, where the calls in between are not the same. -/
structure Relocation.Reads (r : Relocation) (k : SessionId) (γ : Nat → Nat)
    (as as' : List Answer) : Prop where
  length : as'.length = r.pos as.length
  answers : ∀ i, i ≠ r.opening → i ≠ r.closing →
    Option.Rel (Answer.Reads k γ) as[i]? as'[r.pos i]?
  opening : ∃ a, as[r.opening]? = some a ∧ a.session? = none ∧ a.output? = none ∧
    ∀ t, (r.vars t).eval as' = a.get? t
  closing : ∀ a, as[r.closing]? = some a → a.Blank

namespace Relocation

theorem eval_results_append {t : Ty} {k n : Nat} {as : List Answer} (h : k + n ≤ as.length)
    (bs : List Answer) : (results t k n).eval (as ++ bs) = (results t k n).eval as := by
  induction n generalizing k with
  | zero => rfl
  | succ n ih =>
      have hk : (as ++ bs)[k]? = as[k]? := List.getElem?_append_left (by omega)
      simp only [results, Term.eval, hk, ih (k := k + 1) (by omega)]

theorem eval_vars_append {r : Relocation} {as : List Answer} (h : r.opening + r.width ≤ as.length)
    (bs : List Answer) (t : Ty) : (r.vars t).eval (as ++ bs) = (r.vars t).eval as := by
  cases t with
  | list u =>
      cases u with
      | var => exact eval_results_append h bs
      | _ => rfl
  | _ => rfl

namespace Reads

variable {r : Relocation} {k : SessionId} {γ : Nat → Nat} {as as' : List Answer}
  (h : r.Reads k γ as as')

include h

theorem past : r.opening < as.length := by
  obtain ⟨a, ha, -⟩ := h.opening
  exact (List.getElem?_eq_some_iff.1 ha).1

/-- What does not hang on guards is the same in both. -/
theorem bind {β : Type} {f : Answer → Option β}
    (hf : ∀ {a a'}, Answer.Reads k γ a a' → f a' = f a) {n : Nat} (ho : n ≠ r.opening)
    (hc : n ≠ r.closing) : as'[r.pos n]?.bind f = as[n]?.bind f := by
  have ha := h.answers n ho hc
  generalize as[n]? = x at ha ⊢
  generalize as'[r.pos n]? = x' at ha ⊢
  cases ha with
  | none => rfl
  | some ha => exact hf ha

theorem bind_closing {β : Type} {f : Answer → Option β} (hf : ∀ {a}, a.Blank → f a = none) :
    as[r.closing]?.bind f = none := by
  cases ha : as[r.closing]? with
  | none => rfl
  | some a => exact hf (h.closing a ha)

theorem eval_result (n : Nat) (t : Ty) :
    (r.result n t).eval as' = as[n]?.bind (·.get? t) := by
  rw [result]
  by_cases ho : n = r.opening
  · obtain ⟨a, ha, -, -, hv⟩ := h.opening
    rw [if_pos ho, hv, ho, ha]
    rfl
  · rw [if_neg ho]
    by_cases hc : n = r.closing
    · rw [hc, place?_closing, h.bind_closing fun hb => hb.get? t]
      rfl
    · rw [place?_of_ne ho hc]
      exact h.bind (fun ha => ha.get? t) ho hc

/-- The terms stand for the same. -/
theorem eval {ts : List Ty} {κ : Kind} (e : Term ts κ) : (e.relocate r).eval as' = e.eval as := by
  induction e with
  | result n t => exact h.eval_result n t
  | item t l n ih => rw [Term.relocate, Term.eval, Term.eval, ih]
  | app f a ihf iha => rw [Term.relocate, Term.eval, Term.eval, ihf, iha]
  | given v | data p | node p | opening p | call p => rfl

/-- What is referred to has been lost, and then it was nothing, or it is the same. -/
theorem place {β : Type} {f : Answer → Option β}
    (hf : ∀ {a a'}, Answer.Reads k γ a a' → f a' = f a) (hb : ∀ {a}, a.Blank → f a = none)
    {n : Nat} (ho : n = r.opening → as[n]?.bind f = none) :
    r.place? n = none ∧ as[n]?.bind f = none ∨
      ∃ m, r.place? n = some m ∧ as'[m]?.bind f = as[n]?.bind f := by
  by_cases hc : n = r.closing
  · exact Or.inl ⟨hc ▸ place?_closing, hc ▸ h.bind_closing hb⟩
  · by_cases hn : n = r.opening
    · exact Or.inl ⟨if_pos (Or.inl hn), ho hn⟩
    · exact Or.inr ⟨_, place?_of_ne hn hc, h.bind hf hn hc⟩

theorem session? (n : Nat) : r.place? n = none ∧ as[n]?.bind Answer.session? = none ∨
    ∃ m, r.place? n = some m ∧ as'[m]?.bind Answer.session? = as[n]?.bind Answer.session? := by
  refine h.place Answer.Reads.session? Answer.Blank.session? fun hn => ?_
  obtain ⟨a, ha, hs, -⟩ := h.opening
  rw [hn, ha]
  exact hs

theorem output? (n : Nat) : r.place? n = none ∧ as[n]?.bind Answer.output? = none ∨
    ∃ m, r.place? n = some m ∧ as'[m]?.bind Answer.output? = as[n]?.bind Answer.output? := by
  refine h.place Answer.Reads.output? Answer.Blank.output? fun hn => ?_
  obtain ⟨a, ha, -, ho, -⟩ := h.opening
  rw [hn, ha]
  exact ho

/-- Of the guards that the calls in between have given only their numbers differ. -/
theorem guard? {n : Nat} (hn : n ≠ r.opening) :
    r.place? n = none ∧ as[n]?.bind Answer.guard? = none ∨
      ∃ m, r.place? n = some m ∧
        as'[m]?.bind Answer.guard? = (as[n]?.bind Answer.guard?).map (Guard.move k γ) := by
  by_cases hc : n = r.closing
  · exact Or.inl ⟨hc ▸ place?_closing, hc ▸ h.bind_closing Answer.Blank.guard?⟩
  · refine Or.inr ⟨_, place?_of_ne hn hc, ?_⟩
    have ha := h.answers n hn hc
    generalize as[n]? = x at ha ⊢
    generalize as'[r.pos n]? = x' at ha ⊢
    cases ha with
    | none => rfl
    | some ha => exact ha.guard?

end Reads

end Relocation

/-! One call in both worlds. -/

/-- A call answers alike in both worlds, unless the first builder of the session is then in `D`. -/
def Goes (k : SessionId) (γ : Nat → Nat) (R : Builder → Builder → Prop) (D : Builder → Prop)
    (x x' : Answer × World) : Prop :=
  D (x.2.builder k) ∨ Answer.Reads k γ x.1 x'.1 ∧ x.2.Beside k R x'.2

section

variable {k : SessionId} {γ : Nat → Nat} {C : Nat → Prop} {R : Builder → Builder → Prop}
  {D : Builder → Prop} {w w' : World}

theorem Answer.reads_of_toOption {α : Type} {f : α → Answer} (hf : ∀ a, (f a).guard? = none)
    {x x' : Except BuildError α} (h : x'.toOption = x.toOption) :
    Reads k γ (ofCheck f x) (ofCheck f x') := by
  cases x with
  | error e =>
      cases x' with
      | error e' => exact .failed _ _
      | ok a => cases h
  | ok a =>
      cases x' with
      | error e => cases h
      | ok a' =>
          cases h
          exact .same (hf a)

section

variable (hw : w.Beside k R w')

include hw

theorem Goes.attempt {α β : Type} {x : Option α} {x' : Option β} {m : α → β} (hx : x' = x.map m)
    {f : α → Answer × World} {f' : β → Answer × World}
    (hf : ∀ a, x = some a → Goes k γ R D (f a) (f' (m a))) :
    Goes k γ R D (Step.attempt w x f) (Step.attempt w' x' f') := by
  subst hx
  cases x with
  | none => exact Or.inr ⟨.same rfl, hw⟩
  | some a => exact hf a rfl

/-- What is referred to has a place or is nothing. -/
theorem Goes.elim {α β : Type} {as' : List Answer} {p : Option Nat} {g : Nat → Step}
    {x : Option α} {x' : Nat → Option β} {m : α → β}
    (hx : p = none ∧ x = none ∨ ∃ n, p = some n ∧ x' n = x.map m) {f : α → Answer × World}
    {f' : β → Answer × World} (hg : ∀ n, (g n).act as' w' = Step.attempt w' (x' n) f')
    (hf : ∀ a, x = some a → Goes k γ R D (f a) (f' (m a))) :
    Goes k γ R D (Step.attempt w x f) ((p.elim Step.idle g).act as' w') := by
  obtain ⟨rfl, rfl⟩ | ⟨n, rfl, hx⟩ := hx
  · exact Or.inr ⟨.same rfl, hw⟩
  · rw [Option.elim, hg]
    exact .attempt hw hx hf

end

/-- A call with its references moved does in the other world what it does in the first. -/
theorem Step.act_relocate (hm : Builder.Mirrors γ C R D) {r : Relocation} {as as' : List Answer}
    (h : r.Reads k γ as as') (hw : w.Beside k R w') (s : Step)
    (hc : ∀ n, s.closes? = some n → n ≠ r.opening ∧
      ∀ g, as[n]?.bind Answer.guard? = some g → g.session = k → C g.frame)
    (hf : ∀ n, s.finishes? = some n → as[n]?.bind Answer.session? = some k → Builder.Finishes R) :
    Goes k γ R D (s.act as w) ((s.relocate r).act as' w') := by
  have eval {ts : List Ty} {κ : Kind} (e : Term ts κ) :
      (e.relocate r).eval as' = (e.eval as).map id := by rw [h.eval, Option.map_id_fun, id]
  cases s with
  | enter t c =>
      obtain ⟨hr, hb⟩ := hw.enter t c
      refine Or.inr ⟨?_, hb⟩
      simp only [act, relocate, Prod.map, hr]
      exact .same (Answer.guard?_ofCheck (fun _ => rfl) _)
  | current t op =>
      have hr : w'.current t op = w.current t op := by rw [World.current, World.current, hw.live]
      refine Or.inr ⟨?_, hw⟩
      simp only [act, relocate, hr]
      exact .same (Answer.guard?_ofCheck (fun _ => rfl) _)
  | openScope t o =>
      refine Goes.attempt hw (eval o) fun o _ => ?_
      refine (hw.openScope hm t o).imp_right fun hr => ⟨?_, hr.2⟩
      simp only [Prod.map, id, hr.1]
      cases (w.openScope t o).1 with
      | error f => exact .failed f f
      | ok g => exact .opened g.1 g.2
  | call t c =>
      refine Goes.attempt hw (eval c) fun c _ => ?_
      refine (hw.call hm t c).imp_right fun hr => ⟨?_, hr.2⟩
      simp only [Prod.map, id, hr.1]
      exact .same (Answer.guard?_ofCall (fun _ => rfl) _)
  | close n =>
      obtain ⟨ho, hc⟩ := hc n rfl
      refine Goes.elim hw (h.guard? ho) (fun _ => rfl) fun g hg => ?_
      refine (hw.close hm (hc g hg)).imp_right fun hr => ⟨?_, hr.2⟩
      simp only [Prod.map, hr.1]
      exact .same (Answer.guard?_ofCheck (fun _ => rfl) _)
  | drop n =>
      obtain ⟨ho, hc⟩ := hc n rfl
      refine Goes.elim hw (h.guard? ho) (fun _ => rfl) fun g hg => ?_
      exact (hw.close hm (hc g hg)).imp_right fun hr => ⟨.same rfl, hr.2⟩
  | finish n =>
      refine Goes.elim (m := id) hw ?_ (fun _ => rfl) fun i hi => ?_
      · simpa only [Option.map_id_fun, id] using h.session? n
      · obtain ⟨hr, hb⟩ := hw.finish fun he => hf n rfl (he ▸ hi)
        exact Or.inr ⟨Answer.reads_of_toOption (fun _ => rfl) hr, hb⟩
  | leave n =>
      refine Goes.elim (m := id) hw ?_ (fun _ => rfl) fun i _ => Or.inr ⟨.same rfl, hw.leave i⟩
      simpa only [Option.map_id_fun, id] using h.session? n
  | asFunc n | asStmt n =>
      refine Goes.elim (m := id) hw ?_ (fun _ => rfl) fun out _ => Or.inr ⟨.same ?_, hw⟩
      · simpa only [Option.map_id_fun, id] using h.output? n
      · exact Answer.guard?_ofCheck (fun _ => rfl) _
  | make t a => exact Goes.attempt hw (eval a) fun a _ => Or.inr ⟨.same rfl, hw⟩
  | fold t a =>
      exact Goes.attempt hw (eval a) fun a _ => Or.inr ⟨.same (Answer.guard?_ofFold _), hw⟩
  | mint t a =>
      refine Goes.attempt hw (eval a) fun f _ => ?_
      obtain ⟨hr, hb⟩ := hw.mint f
      refine Or.inr ⟨?_, hb⟩
      simp only [Prod.map, id, hr]
      exact .same rfl
  | declare d shape o =>
      refine Goes.attempt hw (eval shape) fun es _ => Goes.attempt hw (eval o) fun o _ => ?_
      obtain ⟨hr, hb⟩ := hw.declare es d o
      refine Or.inr ⟨?_, hb⟩
      simp only [Prod.map, id, hr]
      exact .same (Answer.guard?_ofCheck (fun _ => rfl) _)

end

/-! Scripts in both worlds. -/

theorem getElem?_concat_of_lt {α : Type} {as : List α} {a : α} {n : Nat} (h : as.length < n) :
    (as ++ [a])[n]? = none :=
  List.getElem?_eq_none (by simpa using Nat.succ_le_of_lt h)

namespace Relocation.Reads

variable {r : Relocation} {k : SessionId} {γ : Nat → Nat} {as as' : List Answer}

/-- The call that opens the scope, and those in the other world that do. -/
theorem start (hl : as.length = r.opening)
    (hg : ∀ (n : Nat) (g : Guard), as[n]?.bind Answer.guard? = some g → g.move k γ = g) {a : Answer}
    {bs : List Answer} (hb : bs.length = r.width) (hs : a.session? = none) (ho : a.output? = none)
    (hv : ∀ t, (r.vars t).eval (as ++ bs) = a.get? t) : r.Reads k γ (as ++ [a]) (as ++ bs) where
  length := by
    rw [List.length_append, List.length_append, List.length_singleton, hl, hb, pos_opening_succ]
  answers i hi hc := by
    obtain hlt | hlt | hlt := Nat.lt_trichotomy i as.length
    · rw [pos_of_le (hl ▸ Nat.le_of_lt hlt), List.getElem?_append_left hlt,
        List.getElem?_append_left hlt, List.getElem?_eq_getElem hlt]
      refine .some (.refl fun g ha => hg i g ?_)
      rw [List.getElem?_eq_getElem hlt]
      exact ha
    · exact absurd (hlt.trans hl) hi
    · have hp : as.length + bs.length ≤ r.pos i := by
        rw [hb, hl, ← pos_opening_succ]
        exact pos_mono (hl ▸ hlt)
      rw [getElem?_concat_of_lt hlt, List.getElem?_eq_none (by simpa using hp)]
      exact .none
  opening := ⟨a, by rw [← hl, List.getElem?_concat_length], hs, ho, hv⟩
  closing b hb := by
    have hlt : as.length + 1 ≤ r.closing := hl ▸ r.ordered
    rw [List.getElem?_eq_none (by simpa using hlt)] at hb
    cases hb

variable (h : r.Reads k γ as as')

include h

/-- More answers do not change what the variables are. -/
theorem opening_append (bs bs' : List Answer) : ∃ a, (as ++ bs)[r.opening]? = some a ∧
    a.session? = none ∧ a.output? = none ∧ ∀ t, (r.vars t).eval (as' ++ bs') = a.get? t := by
  obtain ⟨a, ha, hs, ho, hv⟩ := h.opening
  have hl : r.opening + r.width ≤ as'.length := by
    rw [h.length, ← pos_opening_succ]
    exact pos_mono h.past
  refine ⟨a, ?_, hs, ho, fun t => ?_⟩
  · rw [List.getElem?_append_left h.past, ha]
  · rw [eval_vars_append hl, hv]

theorem answers_append {i : Nat} (ho : i ≠ r.opening) (hc : i ≠ r.closing) (hi : i < as.length)
    (bs bs' : List Answer) :
    Option.Rel (Answer.Reads k γ) (as ++ bs)[i]? (as' ++ bs')[r.pos i]? := by
  have hp : r.pos i < as'.length := by
    rw [h.length]
    exact pos_lt ho hc hi
  rw [List.getElem?_append_left hi, List.getElem?_append_left hp]
  exact h.answers i ho hc

/-- One call more, and one in the other world. -/
theorem snoc {a a' : Answer} (hc : as.length ≠ r.closing) (ha : Answer.Reads k γ a a') :
    r.Reads k γ (as ++ [a]) (as' ++ [a']) where
  length := by
    rw [List.length_append, List.length_append, h.length, List.length_singleton,
      List.length_singleton, pos_succ (Nat.ne_of_gt h.past) hc]
  answers i ho hc' := by
    obtain hi | rfl | hi := Nat.lt_trichotomy i as.length
    · exact h.answers_append ho hc' hi [a] [a']
    · rw [← h.length, List.getElem?_concat_length, List.getElem?_concat_length]
      exact .some ha
    · have hp : as'.length < r.pos i := by
        rw [h.length]
        exact pos_lt (Nat.ne_of_gt h.past) hc hi
      rw [getElem?_concat_of_lt hi, getElem?_concat_of_lt hp]
      exact .none
  opening := h.opening_append [a] [a']
  closing b hb := by
    rw [List.getElem?_append] at hb
    split at hb
    · exact h.closing b hb
    · have hlt : 0 < r.closing - as.length := by omega
      rw [List.getElem?_eq_none (by simpa using Nat.succ_le_of_lt hlt)] at hb
      cases hb

/-- The call that closes the scope, and those in the other world that do. -/
theorem close {a : Answer} {bs : List Answer} (hc : as.length = r.closing) (ha : a.Blank)
    (hb : bs.length = r.width) : r.Reads k γ (as ++ [a]) (as' ++ bs) where
  length := by
    rw [List.length_append, List.length_append, h.length, List.length_singleton, hb, hc,
      pos_closing_succ]
  answers i ho hc' := by
    obtain hi | hi | hi := Nat.lt_trichotomy i as.length
    · exact h.answers_append ho hc' hi [a] bs
    · exact absurd (hi.trans hc) hc'
    · have hp : as'.length + bs.length ≤ r.pos i := by
        rw [h.length, hb, hc, ← pos_closing_succ]
        exact pos_mono (hc ▸ hi)
      rw [getElem?_concat_of_lt hi, List.getElem?_eq_none (by simpa using hp)]
      exact .none
  opening := h.opening_append [a] bs
  closing b hb := by
    rw [← hc, List.getElem?_concat_length] at hb
    cases hb
    exact ha

end Relocation.Reads

/-- The call is to end session `j`. -/
def Run.ends (x : Run) (j : SessionId) (s : Step) : Bool :=
  s.finishes?.bind (fun n => x.answers[n]?.bind Answer.session?) = some j

/-- What the first call comes to that is to end session `j`. -/
def Run.outcome (j : SessionId) (x : Run) : List Step → Option Answer
  | [] => none
  | s :: ss =>
      if x.ends j s then some (s.act x.answers x.world).1 else (x.step s).outcome j ss

theorem Run.outcome_append (j : SessionId) (x : Run) (ss ss' : List Step) :
    x.outcome j (ss ++ ss') = (x.outcome j ss).or ((ss.foldl Run.step x).outcome j ss') := by
  induction ss generalizing x with
  | nil => rfl
  | cons s ss ih =>
      rw [List.cons_append, outcome, outcome]
      split
      · rfl
      · exact ih (x.step s)

/-- The run in the other world, with its references moved. -/
structure Run.Tracks (r : Relocation) (k : SessionId) (γ : Nat → Nat)
    (R : Builder → Builder → Prop) (x x' : Run) : Prop where
  reads : r.Reads k γ x.answers x'.answers
  worlds : x.world.Beside k R x'.world

section

variable {r : Relocation} {k : SessionId} {γ : Nat → Nat} {C : Nat → Prop}
  {R : Builder → Builder → Prop} {D : Builder → Prop} {x x' : Run}

theorem Run.Tracks.ends (h : x.Tracks r k γ R x') (j : SessionId) (s : Step) :
    x'.ends j (s.relocate r) = x.ends j s := by
  cases s with
  | finish n =>
      rw [Run.ends, Run.ends, Step.relocate, Step.finishes?, Option.bind_some]
      obtain ⟨hp, hn⟩ | ⟨m, hp, hm⟩ := h.reads.session? n
      · rw [hp, hn]
        rfl
      · rw [hp, ← hm]
        rfl
  | close n | drop n | leave n | asFunc n | asStmt n =>
      rw [Run.ends, Run.ends, Step.relocate]
      cases r.place? n <;> rfl
  | _ => rfl

/-- The two runs go on side by side, unless the first builder of the session comes to be in `D`. -/
theorem Run.Tracks.foldl (hm : Builder.Mirrors γ C R D) {I : Run → Prop}
    (hI : ∀ {x} s, I x → I (Run.step x s))
    (hC : ∀ {x}, I x → ∀ (i : Nat) (g : Guard), i ≠ r.opening →
      x.answers[i]?.bind Answer.guard? = some g → g.session = k → C g.frame)
    {script : List Step} (hs : ∀ s ∈ script, s.closes? ≠ some r.opening)
    (h : x.Tracks r k γ R x') (hx : I x)
    (hl : x.answers.length + script.length ≤ r.closing ∨ r.closing < x.answers.length)
    (hf : Builder.Finishes R ∨ x.outcome k script = none) :
    (∃ ys zs, script = ys ++ zs ∧ D ((ys.foldl Run.step x).world.builder k)) ∨
      (script.foldl Run.step x).Tracks r k γ R
          ((script.map (Step.relocate r)).foldl Run.step x') ∧
        ∀ j, Option.Rel (Answer.Reads k γ) (x.outcome j script)
          (x'.outcome j (script.map (Step.relocate r))) := by
  induction script generalizing x x' with
  | nil => exact Or.inr ⟨h, fun _ => .none⟩
  | cons s ss ih =>
      have hg := Step.act_relocate hm h.reads h.worlds s
        (fun n hn => ⟨fun he => hs s List.mem_cons_self (he ▸ hn),
          fun g hg => hC hx n g (fun he => hs s List.mem_cons_self (he ▸ hn)) hg⟩)
        (fun n hn he => by
          have hends : x.ends k s = true := by simp [Run.ends, hn, he]
          obtain hf | hf := hf
          · exact @hf
          · rw [Run.outcome, if_pos hends] at hf
            cases hf)
      obtain hd | ⟨ha, hw⟩ := hg
      · exact Or.inl ⟨[s], ss, rfl, hd⟩
      · have hlen : (x.step s).answers.length = x.answers.length + 1 := by simp [Run.step]
        rw [List.length_cons] at hl
        have ht : (x.step s).Tracks r k γ R (x'.step (s.relocate r)) :=
          ⟨h.reads.snoc (by omega) ha, hw⟩
        have hf' : Builder.Finishes R ∨ (x.step s).outcome k ss = none := by
          refine hf.imp_right fun hf => ?_
          rw [Run.outcome] at hf
          split at hf
          · cases hf
          · exact hf
        obtain ⟨ys, zs, rfl, hd⟩ | ⟨hr, ho⟩ :=
          ih (fun s hs' => hs s (List.mem_cons_of_mem _ hs')) ht (hI s hx) (by omega) hf'
        · exact Or.inl ⟨s :: ys, zs, rfl, hd⟩
        · refine Or.inr ⟨hr, fun j => ?_⟩
          rw [List.map_cons, Run.outcome, Run.outcome, h.ends j s]
          split
          · exact .some ha
          · exact ho j

/-- The two runs go on side by side where the first builder is never given up. -/
theorem Run.Tracks.foldl_always (hm : Builder.Mirrors γ C R fun _ => False)
    (hR : Builder.Finishes R) {I : Run → Prop} (hI : ∀ {x} s, I x → I (Run.step x s))
    (hC : ∀ {x}, I x → ∀ (i : Nat) (g : Guard), i ≠ r.opening →
      x.answers[i]?.bind Answer.guard? = some g → g.session = k → C g.frame)
    {script : List Step} (hs : ∀ s ∈ script, s.closes? ≠ some r.opening)
    (h : x.Tracks r k γ R x') (hx : I x)
    (hl : x.answers.length + script.length ≤ r.closing ∨ r.closing < x.answers.length) :
    (script.foldl Run.step x).Tracks r k γ R
        ((script.map (Step.relocate r)).foldl Run.step x') ∧
      ∀ j, Option.Rel (Answer.Reads k γ) (x.outcome j script)
        (x'.outcome j (script.map (Step.relocate r))) := by
  obtain ⟨-, -, -, hd⟩ | ht := Run.Tracks.foldl hm hI hC hs h hx hl (Or.inl @hR)
  · exact hd.elim
  · exact ht

end

/-! What lasts through calls on a builder lasts through a script. -/

section

variable {k : SessionId} {C : Nat → Prop} {D : Builder → Prop} {x : Run}

theorem Run.step_lasts (hd : Builder.Lasts C D) (hk : k < x.world.entered) {s : Step}
    (hc : ∀ n, s.closes? = some n → ∀ g, x.answers[n]?.bind Answer.guard? = some g →
      g.session = k → C g.frame)
    (hf : x.ends k s = false) (h : D (x.world.builder k)) :
    D ((x.step s).world.builder k) := by
  have keep {α : Type} (a : Option α) {f : α → Answer × World}
      (hf : ∀ b, a = some b → D ((f b).2.builder k)) :
      D ((Step.attempt x.world a f).2.builder k) := by
    cases a with
    | none => exact h
    | some b => exact hf b rfl
  have one {id : SessionId} {b : Builder} (hb : id = k → D b) :
      D (update x.world.builder id b k) := by
    by_cases hid : id = k
    · rw [hid, update_self]
      exact hb hid
    · rw [update_of_ne _ _ (Ne.symm hid)]
      exact h
  cases s with
  | enter t c =>
      simp only [Run.step, Step.act, World.enter]
      cases x.world.live t with
      | some id => exact h
      | none => exact one fun he => absurd hk (he ▸ Nat.lt_irrefl _)
  | openScope t o =>
      refine keep _ fun o _ => ?_
      cases ht : x.world.live t with
      | none =>
          rw [World.openScope_of_idle ht]
          exact h
      | some id =>
          rw [World.openScope_of_live ht]
          exact one fun he => by
            subst he
            exact hd.openScope h _ _
  | call t c =>
      refine keep _ fun c _ => ?_
      cases ht : x.world.live t with
      | none =>
          rw [World.call_of_idle ht]
          exact h
      | some id =>
          rw [World.call_of_live ht]
          exact one fun he => by
            subst he
            exact hd.call h _ _
  | close n | drop n =>
      refine keep _ fun g hg => one fun he => ?_
      have hcg := hc n rfl g hg he
      subst he
      exact hd.close h hcg _
  | finish n =>
      refine keep _ fun i hi => one fun he => ?_
      simp [Run.ends, Step.finishes?, hi, he] at hf
  | declare d shape o =>
      refine keep _ fun es _ => keep _ fun o _ => ?_
      simp only [Prod.map, World.declare]
      split <;> exact h
  | current t op => exact h
  | leave n | asFunc n | asStmt n | make t a | fold t a | mint t a => exact keep _ fun _ _ => h

theorem Run.ends_of_outcome {s : Step} {ss : List Step} (h : x.outcome k (s :: ss) = none) :
    x.ends k s = false ∧ (x.step s).outcome k ss = none := by
  rw [outcome] at h
  split at h
  · cases h
  · rename_i he
    exact ⟨Bool.not_eq_true _ ▸ he, h⟩

theorem Run.lasts (hd : Builder.Lasts C D) {I : Run → Prop} (hI : ∀ {x} s, I x → I (Run.step x s))
    (hk : ∀ {x}, I x → k < x.world.entered) (script : List Step)
    (hc : ∀ {x}, I x → ∀ s ∈ script, ∀ n, s.closes? = some n → ∀ g,
      x.answers[n]?.bind Answer.guard? = some g → g.session = k → C g.frame)
    (hx : I x) (hf : x.outcome k script = none) (h : D (x.world.builder k)) :
    D ((script.foldl Run.step x).world.builder k) := by
  induction script generalizing x with
  | nil => exact h
  | cons s ss ih =>
      obtain ⟨he, hf⟩ := ends_of_outcome hf
      refine ih (fun hx s hs => hc hx s (List.mem_cons_of_mem _ hs)) (hI s hx) hf ?_
      exact step_lasts hd (hk hx) (hc hx s List.mem_cons_self) he h

/-- A session that cannot end well does not do so. -/
theorem Run.outcome_of_lasts (hd : Builder.Lasts C D)
    (hfin : ∀ {b}, D b → b.finish.1.toOption = none) {I : Run → Prop}
    (hI : ∀ {x} s, I x → I (Run.step x s)) (hk : ∀ {x}, I x → k < x.world.entered)
    (script : List Step)
    (hc : ∀ {x}, I x → ∀ s ∈ script, ∀ n, s.closes? = some n → ∀ g,
      x.answers[n]?.bind Answer.guard? = some g → g.session = k → C g.frame)
    (hx : I x) (h : D (x.world.builder k)) :
    (x.outcome k script).bind Answer.output? = none := by
  induction script generalizing x with
  | nil => rfl
  | cons s ss ih =>
      rw [outcome]
      split
      · rename_i he
        cases s with
        | finish n =>
            have hn : x.answers[n]?.bind Answer.session? = some k := by
              rw [ends, Step.finishes?, Option.bind_some] at he
              exact of_decide_eq_true he
            have hf := hfin h
            rw [Option.bind_some]
            simp only [Step.act, hn, Step.attempt, Prod.map, World.finish]
            cases hr : (x.world.builder k).finish.1 with
            | error e => rfl
            | ok out =>
                rw [hr] at hf
                cases hf
        | _ => simp [ends, Step.finishes?] at he
      · rename_i he
        refine ih (fun hx s hs => hc hx s (List.mem_cons_of_mem _ hs)) (hI s hx) ?_
        exact step_lasts hd (hk hx) (hc hx s List.mem_cons_self) (Bool.not_eq_true _ ▸ he) h

end

end Script

end TensorProgram
