/-!
# Lists of keys and values

A list of pairs is a map: the first pair of a key counts.

* `Assoc.alter`   changes the value of a key, or gives it one;
* `Assoc.put`     puts a value under a key, in place of the one that is there;
* `Assoc.erase`   takes all values of a key away.

A new key goes to the end.  Where keys stand more than once, `Assoc.values` are all values of a key in
their order.
-/

namespace Rota.Assoc

section
variable {α β : Type} [DecidableEq α]

def values (key : α) (l : List (α × β)) : List β := (l.filter fun e => e.1 = key).map (·.2)

theorem values_append (key : α) (l₁ l₂ : List (α × β)) :
    values key (l₁ ++ l₂) = values key l₁ ++ values key l₂ := by
  rw [values, List.filter_append, List.map_append]
  rfl

theorem values_map (key other : α) (vs : List β) :
    values key (vs.map (Prod.mk other)) = if other = key then vs else [] := by
  by_cases h : other = key <;> simp [values, h, List.filter_map, Function.comp_def]

end

variable {β : Type}

def alter (key : String) (f : Option β → β) : List (String × β) → List (String × β)
  | [] => [(key, f none)]
  | (k, v) :: rest => if k = key then (key, f (some v)) :: rest else (k, v) :: alter key f rest

def put (key : String) (v : β) (l : List (String × β)) : List (String × β) := alter key (fun _ => v) l

def erase (key : String) (l : List (String × β)) : List (String × β) := l.filter fun e => e.1 ≠ key

theorem lookup_cons (k other : String) (v : β) (l : List (String × β)) :
    ((k, v) :: l).lookup other = if k = other then some v else l.lookup other := by
  by_cases h : k = other
  · rw [if_pos h, h, List.lookup_cons_self]
  · rw [if_neg h, List.lookup_cons, beq_eq_false_iff_ne.2 (Ne.symm h)]

theorem lookup_of_mem {l : List (String × β)} (hkeys : (l.map (·.1)).Nodup) {k : String} {v : β}
    (h : (k, v) ∈ l) : l.lookup k = some v := by
  obtain ⟨before, after, rfl⟩ := List.append_of_mem h
  refine List.lookup_eq_some_iff.2 ⟨before, after, rfl, fun x hx => bne_iff_ne.2 fun he => ?_⟩
  rw [List.map_append, List.nodup_append] at hkeys
  exact hkeys.2.2 x.1 (List.mem_map_of_mem hx) k (List.mem_map_of_mem List.mem_cons_self) he.symm

theorem lookup_alter (key other : String) (f : Option β → β) (l : List (String × β)) :
    (alter key f l).lookup other =
      if key = other then some (f (l.lookup key)) else l.lookup other := by
  induction l with
  | nil => exact lookup_cons key other (f none) []
  | cons e l ih =>
    obtain ⟨k, v⟩ := e
    rw [alter]
    by_cases hk : k = key
    · rw [if_pos hk, hk, List.lookup_cons_self, lookup_cons key other, lookup_cons key other]
      split <;> rfl
    · rw [if_neg hk, lookup_cons k other, lookup_cons k other, lookup_cons k key, if_neg hk, ih]
      by_cases ho : k = other
      · rw [if_pos ho, if_pos ho, if_neg fun h => hk (ho.trans h.symm)]
      · rw [if_neg ho, if_neg ho]

theorem lookup_put (key other : String) (v : β) (l : List (String × β)) :
    (put key v l).lookup other = if key = other then some v else l.lookup other :=
  lookup_alter key other _ l

theorem lookup_put_self (key : String) (v : β) (l : List (String × β)) :
    (put key v l).lookup key = some v := (lookup_put key key v l).trans (if_pos rfl)

theorem lookup_put_of_ne {key other : String} (h : other ≠ key) (v : β) (l : List (String × β)) :
    (put key v l).lookup other = l.lookup other := (lookup_put key other v l).trans (if_neg h.symm)

theorem lookup_erase (key other : String) (l : List (String × β)) :
    (erase key l).lookup other = if key = other then none else l.lookup other := by
  induction l with
  | nil => exact (ite_self none).symm
  | cons e l ih =>
    obtain ⟨k, v⟩ := e
    by_cases hk : k = key
    · rw [erase, List.filter_cons_of_neg (by simpa using hk), ← erase, ih, lookup_cons k other, hk]
      split <;> rfl
    · rw [erase, List.filter_cons_of_pos (by simpa using hk), ← erase, lookup_cons k other,
        lookup_cons k other, ih]
      by_cases ho : k = other
      · rw [if_pos ho, if_pos ho, if_neg fun h => hk (ho.trans h.symm)]
      · rw [if_neg ho, if_neg ho]

theorem lookup_erase_self (key : String) (l : List (String × β)) :
    (erase key l).lookup key = none := (lookup_erase key key l).trans (if_pos rfl)

theorem lookup_erase_of_ne {key other : String} (h : other ≠ key) (l : List (String × β)) :
    (erase key l).lookup other = l.lookup other := (lookup_erase key other l).trans (if_neg h.symm)

end Rota.Assoc
