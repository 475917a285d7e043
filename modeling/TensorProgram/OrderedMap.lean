/-!
Finite maps that list their entries in the order in which the keys first came
in. Two keys are one key when their `Keyed.key` agrees; putting a value under a
key that is present replaces the value and leaves the entry, with the key it
was first given, where it is.
-/

namespace TensorProgram

/-- What tells the elements of `α` apart when they serve as keys. -/
class Keyed (α : Type) (κ : outParam Type) where
  key : α → κ

instance : Keyed String String := ⟨id⟩

structure OrderedMap (α β : Type) {κ : Type} [Keyed α κ] where
  entries : List (α × β)
  nodup : (entries.map fun e => Keyed.key e.1).Nodup

namespace OrderedMap

variable {α β κ : Type} [Keyed α κ]

def empty : OrderedMap α β := ⟨[], List.nodup_nil⟩

instance : EmptyCollection (OrderedMap α β) := ⟨empty⟩
instance : Inhabited (OrderedMap α β) := ⟨empty⟩

@[ext]
theorem ext {m n : OrderedMap α β} (h : m.entries = n.entries) : m = n := by
  cases m; cases n; cases h; rfl

def size (m : OrderedMap α β) : Nat := m.entries.length

def isEmpty (m : OrderedMap α β) : Bool := m.entries.isEmpty

/-- The keys as they were first given. -/
def keys (m : OrderedMap α β) : List α := m.entries.map Prod.fst

def values (m : OrderedMap α β) : List β := m.entries.map Prod.snd

variable [DecidableEq κ]

def get? (m : OrderedMap α β) (a : α) : Option β :=
  (m.entries.find? fun e => Keyed.key e.1 = Keyed.key a).map Prod.snd

def contains (m : OrderedMap α β) (a : α) : Bool := (m.get? a).isSome

/-- Replaces the value of the entry with `a`'s key, or adds an entry at the end. -/
def put (a : α) (b : β) : List (α × β) → List (α × β)
  | [] => [(a, b)]
  | e :: r => if Keyed.key e.1 = Keyed.key a then (e.1, b) :: r else e :: put a b r

theorem keys_put (a : α) (b : β) (l : List (α × β)) :
    (put a b l).map (fun e => Keyed.key e.1) =
      if Keyed.key a ∈ l.map (fun e => Keyed.key e.1) then l.map (fun e => Keyed.key e.1)
      else l.map (fun e => Keyed.key e.1) ++ [Keyed.key a] := by
  induction l with
  | nil => simp [put]
  | cons e r ih =>
      by_cases h : Keyed.key e.1 = Keyed.key a
      · simp [put, h]
      · have h' : ¬ Keyed.key a = Keyed.key e.1 := fun he => h he.symm
        by_cases hr : Keyed.key a ∈ r.map (fun e => Keyed.key e.1)
        · simp only [put, h, if_false, List.map_cons, ih, List.mem_cons, hr, or_true, if_true]
        · simp only [put, h, if_false, List.map_cons, ih, List.mem_cons, h', hr, or_self,
            List.cons_append]

theorem nodup_put (a : α) (b : β) {l : List (α × β)}
    (h : (l.map fun e => Keyed.key e.1).Nodup) :
    ((put a b l).map fun e => Keyed.key e.1).Nodup := by
  rw [keys_put]
  split
  · exact h
  · rename_i hn
    rw [List.nodup_append]
    refine ⟨h, by simp, ?_⟩
    intro k hk c hc
    simp only [List.mem_singleton] at hc
    subst hc
    rintro rfl
    exact hn hk

def insert (m : OrderedMap α β) (a : α) (b : β) : OrderedMap α β :=
  ⟨put a b m.entries, nodup_put a b m.nodup⟩

/-- The map that results from inserting the pairs one by one. -/
def ofList (l : List (α × β)) : OrderedMap α β :=
  l.foldl (fun m e => m.insert e.1 e.2) ∅

/-- Equality of finite maps up to the order of their entries, for a given equality
of values. -/
def equivBy (same : β → β → Bool) (m n : OrderedMap α β) : Bool :=
  m.size = n.size && m.entries.all fun e => (n.get? e.1).any (same e.2)

omit [DecidableEq κ] in
@[simp]
theorem entries_empty : (∅ : OrderedMap α β).entries = [] := rfl

theorem entries_insert (m : OrderedMap α β) (a : α) (b : β) :
    (m.insert a b).entries = put a b m.entries := rfl

theorem put_of_notMem (a : α) (b : β) {l : List (α × β)}
    (h : Keyed.key a ∉ l.map fun e => Keyed.key e.1) : put a b l = l ++ [(a, b)] := by
  induction l with
  | nil => rfl
  | cons e r ih =>
      simp only [List.map_cons, List.mem_cons, not_or] at h
      simp [put, Ne.symm h.1, ih h.2]

theorem find?_put_self (a : α) (b : β) (l : List (α × β)) :
    ((put a b l).find? fun e => Keyed.key e.1 = Keyed.key a).map Prod.snd = some b := by
  induction l with
  | nil => simp [put]
  | cons e r ih =>
      by_cases h : Keyed.key e.1 = Keyed.key a
      · simp [put, h]
      · simp only [put, h, if_false]
        rw [List.find?_cons_of_neg (by simpa using h)]
        exact ih

theorem find?_put_of_ne {a c : α} (b : β) (hc : Keyed.key c ≠ Keyed.key a) (l : List (α × β)) :
    ((put a b l).find? fun e => Keyed.key e.1 = Keyed.key c).map Prod.snd =
      (l.find? fun e => Keyed.key e.1 = Keyed.key c).map Prod.snd := by
  induction l with
  | nil => simp [put, hc.symm]
  | cons e r ih =>
      by_cases h : Keyed.key e.1 = Keyed.key a
      · have hne : ¬ Keyed.key e.1 = Keyed.key c := fun he => hc (he.symm.trans h)
        simp only [put, h, if_true]
        rw [List.find?_cons_of_neg (by simpa using hne), List.find?_cons_of_neg (by simpa using hne)]
      · simp only [put, h, if_false]
        by_cases he : Keyed.key e.1 = Keyed.key c
        · rw [List.find?_cons_of_pos (by simpa using he), List.find?_cons_of_pos (by simpa using he)]
        · rw [List.find?_cons_of_neg (by simpa using he), List.find?_cons_of_neg (by simpa using he)]
          exact ih

theorem get?_insert (m : OrderedMap α β) (a c : α) (b : β) :
    (m.insert a b).get? c = if Keyed.key c = Keyed.key a then some b else m.get? c := by
  unfold get? insert
  split
  · rename_i h
    rw [h]
    exact find?_put_self a b m.entries
  · rename_i h
    exact find?_put_of_ne b h m.entries

end OrderedMap

end TensorProgram
