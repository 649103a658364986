import Mathlib.Data.String.Basic
import Rota.Status.Registry

/-!
# The registry as a map

The entries of a registry stand in the order of their names.  Here they are looked at as a map from
names to publications.

* `lookup_insert`                     an entry that is put in its place is found, and no other one
                                      changes;
* `mem_names_insert`, `ascending_insert`   what that does to the names;
* `Registry.find?_register`, `Registry.mem_names_register`, `Registry.ascending_register`   the same
  for a registration;
* `Registry.find?_publish`, `Registry.find?_close`   what is found after a publication and after the
                                      end of one;
* `Registry.ofList`                   a registration after the other, the first one first, with the
                                      laws `find?_ofList` and `mem_names_ofList`.
-/

namespace Rota.Registry

section
variable {name other : String} {p : Publication} {l : List (String × Publication)}

theorem lookup_insert :
    (insert name p l).lookup other = if other = name then some p else l.lookup other := by
  induction l with
  | nil =>
    rw [insert, List.lookup_cons, beq_eq_decide]
    by_cases h : other = name <;> simp [h]
  | cons entry l ih =>
    obtain ⟨n, q⟩ := entry
    rw [insert]
    by_cases hn : n = name
    · rw [if_pos hn, List.lookup_cons, List.lookup_cons, beq_eq_decide, beq_eq_decide, hn]
      by_cases h : other = name <;> simp [h]
    · rw [if_neg hn]
      by_cases hlt : name < n
      · rw [if_pos hlt, List.lookup_cons, beq_eq_decide]
        by_cases h : other = name <;> simp [h]
      · rw [if_neg hlt, List.lookup_cons, List.lookup_cons, beq_eq_decide, ih]
        by_cases h : other = n
        · have hne : other ≠ name := h ▸ hn
          simp [h, hn]
        · simp [h]

theorem mem_names_insert :
    other ∈ (insert name p l).map (·.1) ↔ other = name ∨ other ∈ l.map (·.1) := by
  induction l with
  | nil => simp [insert]
  | cons entry l ih =>
    obtain ⟨n, q⟩ := entry
    rw [insert]
    by_cases hn : n = name
    · rw [if_pos hn, hn]
      simp
    · rw [if_neg hn]
      by_cases hlt : name < n
      · rw [if_pos hlt]
        simp
      · rw [if_neg hlt, List.map_cons, List.mem_cons, ih, List.map_cons, List.mem_cons]
        exact or_left_comm

theorem ascending_insert (h : (l.map (·.1)).Pairwise (· < ·)) :
    ((insert name p l).map (·.1)).Pairwise (· < ·) := by
  induction l with
  | nil => exact List.pairwise_singleton _ _
  | cons entry l ih =>
    obtain ⟨n, q⟩ := entry
    obtain ⟨hfirst, hrest⟩ := List.pairwise_cons.1 h
    rw [insert]
    by_cases hn : n = name
    · rw [if_pos hn, List.map_cons, ← hn]
      exact h
    · rw [if_neg hn]
      by_cases hlt : name < n
      · rw [if_pos hlt, List.map_cons]
        refine List.pairwise_cons.2 ⟨fun other hother => ?_, h⟩
        rcases List.mem_cons.1 hother with rfl | hother
        · exact hlt
        · exact lt_trans hlt (hfirst other hother)
      · rw [if_neg hlt, List.map_cons]
        refine List.pairwise_cons.2 ⟨fun other hother => ?_, ih hrest⟩
        rcases mem_names_insert.1 hother with rfl | hother
        · exact lt_of_le_of_ne (not_lt.1 hlt) hn
        · exact hfirst other hother

end

section
variable (r : Registry) (name other : String) (status : ModuleStatus)

theorem find?_register : (r.register name status).find? other =
    if other = name then some ⟨status, true⟩ else r.find? other := lookup_insert

theorem mem_names_register :
    other ∈ (r.register name status).names ↔ other = name ∨ other ∈ r.names := mem_names_insert

theorem ascending_register (h : r.names.Pairwise (· < ·)) :
    (r.register name status).names.Pairwise (· < ·) := ascending_insert h

end

/-- what a publication becomes when its module publishes: nothing new once it is closed -/
def published (f : ModuleStatus → ModuleStatus) (p : Publication) : Publication :=
  if p.isOpen then ⟨f p.status, true⟩ else p

section
variable (r : Registry) (name other : String) (f : ModuleStatus → ModuleStatus)

theorem mem_names_iff : name ∈ r.names ↔ ∃ p, r.find? name = some p := by
  obtain ⟨l⟩ := r
  show name ∈ l.map (·.1) ↔ ∃ p, l.lookup name = some p
  induction l with
  | nil => exact ⟨fun h => (List.not_mem_nil h).elim, fun ⟨_, h⟩ => nomatch h⟩
  | cons entry l ih =>
    rw [List.map_cons, List.mem_cons, List.lookup_cons, beq_eq_decide]
    by_cases h : name = entry.1
    · simp [h]
    · simp [h, ih]

theorem find?_publish : (r.publish name f).find? other =
    if other = name then (r.find? name).map (published f) else r.find? other := by
  unfold publish
  split
  case h_1 status heq =>
    rw [heq]
    exact lookup_insert
  case h_2 hclosed =>
    by_cases h : other = name
    · subst h
      rw [if_pos rfl]
      cases hp : r.find? other with
      | none => rfl
      | some p =>
        obtain ⟨status, isOpen⟩ := p
        cases isOpen with
        | false => rfl
        | true => exact absurd hp (hclosed status)
    · rw [if_neg h]

theorem find?_close : (r.close name).find? other =
    if other = name then (r.find? name).map ({ · with isOpen := false }) else r.find? other := by
  unfold close
  split
  case h_1 p heq =>
    rw [heq]
    exact lookup_insert
  case h_2 heq =>
    by_cases h : other = name
    · rw [if_pos h, h, heq]
      rfl
    · rw [if_neg h]

end

def ofList (r : Registry) (xs : List (String × ModuleStatus)) : Registry :=
  xs.foldl (fun r x => r.register x.1 x.2) r

section
variable {r : Registry} {xs : List (String × ModuleStatus)} {name : String}

theorem mem_names_ofList : name ∈ (r.ofList xs).names ↔ name ∈ xs.map (·.1) ∨ name ∈ r.names := by
  induction xs generalizing r with
  | nil => simp [ofList]
  | cons x xs ih =>
    rw [ofList, List.foldl_cons, ← ofList, ih, mem_names_register, List.map_cons, List.mem_cons]
    exact or_left_comm.trans (or_assoc.symm)

theorem ascending_ofList (h : r.names.Pairwise (· < ·)) :
    (r.ofList xs).names.Pairwise (· < ·) := by
  induction xs generalizing r with
  | nil => exact h
  | cons x xs ih => exact ih (ascending_register r x.1 x.2 h)

theorem find?_ofList_of_notMem (h : name ∉ xs.map (·.1)) : (r.ofList xs).find? name = r.find? name := by
  induction xs generalizing r with
  | nil => rfl
  | cons x xs ih =>
    rw [List.map_cons, List.mem_cons, not_or] at h
    rw [ofList, List.foldl_cons, ← ofList, ih h.2, find?_register, if_neg h.1]

theorem find?_ofList (hdistinct : (xs.map (·.1)).Nodup) {status : ModuleStatus}
    (h : (name, status) ∈ xs) : (r.ofList xs).find? name = some ⟨status, true⟩ := by
  induction xs generalizing r with
  | nil => exact nomatch h
  | cons x xs ih =>
    obtain ⟨hfirst, hrest⟩ := List.nodup_cons.1 (List.map_cons ▸ hdistinct)
    rw [ofList, List.foldl_cons, ← ofList]
    rcases List.mem_cons.1 h with rfl | h
    · rw [find?_ofList_of_notMem hfirst, find?_register, if_pos rfl]
    · exact ih hrest h

end

end Rota.Registry
