import Rota.Proofs.State.Store
import Rota.State.Directory

/-!
# Names and what they stand for

* `Directory.node?_put_self`, `Directory.node?_put_of_ne`   what writing changes;
* `Directory.node?_move`                                    what moving changes;
* `Directory.Unaimed`, `Directory.read_congr`               a name that no link leads to does not count
                                                            for what is read elsewhere.
-/

namespace Rota.Directory

section
variable {objects objects' : List Object} {name other place : String} {node : Node}

/-! ## names -/

theorem isName_iff {s : String} (h : s.toList.all isFileChar = true) :
    isName s = true ↔ s.utf8ByteSize ≤ longestFileName := by
  have hslash : s.toList.contains '/' = false := by
    rw [← Bool.not_eq_true, List.contains_iff_mem]
    exact fun hmem => absurd (List.all_eq_true.1 h '/' hmem) (by decide)
  simp only [isName, hslash, Bool.or_false, decide_eq_true_eq]

/-! ## objects -/

theorem object?_map {f : Object → Object} (name other : String)
    (hf : ∀ o ∈ objects, name ∈ (f o).names ↔ other ∈ o.names) :
    object? (objects.map f) name = (object? objects other).map f := by
  induction objects with
  | nil => rfl
  | cons o objects ih =>
    have hrest := ih fun o ho => hf o (List.mem_cons_of_mem _ ho)
    have hhead := hf o List.mem_cons_self
    unfold object? at hrest ⊢
    by_cases h : other ∈ o.names
    · rw [List.map_cons, List.find?_cons_of_pos (by simpa using hhead.2 h),
        List.find?_cons_of_pos (by simpa using h), Option.map_some]
    · rw [List.map_cons, List.find?_cons_of_neg (by simpa using mt hhead.1 h),
        List.find?_cons_of_neg (by simpa using h), hrest]

theorem mem_of_object? {o : Object} (h : object? objects name = some o) :
    o ∈ objects ∧ name ∈ o.names :=
  ⟨List.mem_of_find?_eq_some h, by simpa using List.find?_some h⟩

theorem node?_eq_some (h : node? objects name = some node) :
    ∃ o ∈ objects, name ∈ o.names ∧ o.node = node := by
  obtain ⟨o, ho, hnode⟩ := Option.map_eq_some_iff.1 h
  obtain ⟨hmem, hname⟩ := mem_of_object? ho
  exact ⟨o, hmem, hname, hnode⟩

/-! ## writing -/

theorem node?_put_self (objects : List Object) (name : String) (node : Node) :
    node? (put objects name node) name = some node := by
  unfold put node?
  split
  case isTrue h =>
    obtain ⟨o, ho⟩ := Option.isSome_iff_exists.1 h
    have hname : name ∈ o.names := (mem_of_object? ho).2
    rw [object?_map name name fun o _ => by split <;> rfl, ho]
    simp [hname]
  case isFalse h =>
    rw [Option.not_isSome_iff_eq_none] at h
    simp only [object?] at h ⊢
    simp [List.find?_append, h]

theorem node?_put_of_ne (hne : other ≠ name) (alone : ∀ o ∈ objects, name ∈ o.names → other ∉ o.names)
    (node : Node) : node? (put objects name node) other = node? objects other := by
  unfold put node?
  split
  case isTrue =>
    rw [object?_map other other fun o _ => by split <;> rfl]
    cases h : object? objects other with
    | none => rfl
    | some o =>
      obtain ⟨hmem, hother⟩ := mem_of_object? h
      have hname : name ∉ o.names := fun hname => alone o hmem hname hother
      simp [hname]
  case isFalse =>
    have hnone : object? [⟨[name], node⟩] other = none := by simp [object?, hne]
    unfold object? at hnone ⊢
    rw [List.find?_append, hnone, Option.or_none]

/-- what is written to keeps its names, and what is made has no other one -/
theorem names_of_mem_put {o : Object} (ho : o ∈ put objects name node) :
    (∃ o' ∈ objects, o'.names = o.names) ∨ o.names = [name] := by
  unfold put at ho
  split at ho
  case isTrue =>
    obtain ⟨o', ho', rfl⟩ := List.mem_map.1 ho
    exact .inl ⟨o', ho', by split <;> rfl⟩
  case isFalse =>
    rcases List.mem_append.1 ho with ho | ho
    · exact .inl ⟨o, ho, rfl⟩
    · exact .inr (by rw [List.mem_singleton.1 ho])

/-! ## moving -/

theorem Object.mem_names_move {source target : String} (hne : source ≠ target) (o : Object)
    (name : String) : name ∈ (o.move source target).names ↔
      if name = target then source ∈ o.names else name ≠ source ∧ name ∈ o.names := by
  simp only [Object.move, List.mem_map, List.mem_filter, decide_eq_true_eq]
  split_ifs with h
  · subst h
    constructor
    · rintro ⟨n, ⟨hn, hne⟩, h⟩
      split at h
      case isTrue e => exact e ▸ hn
      case isFalse => exact absurd h hne
    · exact fun h => ⟨source, ⟨h, hne⟩, if_pos rfl⟩
  · constructor
    · rintro ⟨n, ⟨hn, -⟩, he⟩
      split at he
      case isTrue => exact absurd he.symm h
      case isFalse e => exact ⟨he ▸ e, he ▸ hn⟩
    · exact fun ⟨e, hn⟩ => ⟨name, ⟨hn, h⟩, if_neg e⟩

theorem node?_move {source target : String} (hne : source ≠ target) (objects : List Object)
    (name : String) : node? (objects.map (Object.move source target)) name =
      if name = target then node? objects source
      else if name = source then none else node? objects name := by
  have hmem := fun o : Object => o.mem_names_move hne name
  unfold node?
  split_ifs with htarget hsource
  · rw [object?_map name source fun o _ => (hmem o).trans (by rw [if_pos htarget]),
      Option.map_map]
    rfl
  · rw [Option.map_eq_none_iff, object?, List.find?_eq_none]
    rintro _ ho
    obtain ⟨o, -, rfl⟩ := List.mem_map.1 ho
    rw [decide_eq_true_eq, hmem, if_neg htarget]
    exact fun h => h.1 hsource
  · rw [object?_map name name fun o _ => (hmem o).trans (by
      rw [if_neg htarget, and_iff_right hsource]), Option.map_map]
    rfl

/-! ## links -/

/-- no link leads to this name -/
def Unaimed (objects : List Object) (name : String) : Prop :=
  ∀ o ∈ objects, o.node ≠ .link name

theorem Unaimed.node?_ne (h : Unaimed objects name) (other : String) :
    node? objects other ≠ some (.link name) := by
  intro hnode
  obtain ⟨o, hmem, -, ho⟩ := node?_eq_some hnode
  exact h o hmem ho

theorem follow?_of_not_link (h : ∀ target, node? objects name ≠ some (.link target)) (links : Nat) :
    follow? objects links name = some name := by
  cases links <;>
  · unfold follow?
    split
    case h_1 target hlink => exact absurd hlink (h target)
    case h_2 => rfl

theorem read_of_not_link (h : ∀ target, node? objects name ≠ some (.link target)) :
    read objects name = if isName name then Node.content (node? objects name) else .error .io := by
  unfold read
  rw [follow?_of_not_link h]

theorem write_of_not_link (h : ∀ target, node? objects name ≠ some (.link target))
    (bytes : List UInt8) : write objects name bytes =
      if isName name then (Node.written? bytes (node? objects name)).map (put objects name)
      else none := by
  unfold write
  rw [follow?_of_not_link h]

/-- where nothing differs but one name, and no link leads to it, every other name leads to one place,
which is another one -/
theorem follow?_congr (h : ∀ other ≠ name, node? objects' other = node? objects other)
    (hname : Unaimed objects name) (hother : other ≠ name) (links : Nat) :
    follow? objects' links other = follow? objects links other ∧
      ∀ place, follow? objects links other = some place → place ≠ name := by
  induction links generalizing other with
  | zero =>
    unfold follow?
    rw [h other hother]
    split
    case h_1 => exact ⟨rfl, nofun⟩
    case h_2 => exact ⟨rfl, fun place e => Option.some.inj e ▸ hother⟩
  | succ links ih =>
    unfold follow?
    rw [h other hother]
    split
    case h_1 target hlink => exact ih fun e => hname.node?_ne other (e ▸ hlink)
    case h_2 => exact ⟨rfl, fun place e => Option.some.inj e ▸ hother⟩

theorem read_congr (h : ∀ other ≠ name, node? objects' other = node? objects other)
    (hname : Unaimed objects name) (hother : other ≠ name) : read objects' other = read objects other := by
  obtain ⟨hfollow, hplace⟩ := follow?_congr h hname hother mostLinks
  unfold read
  rw [hfollow]
  split
  case h_1 => rfl
  case h_2 place hp => rw [h place (hplace place hp)]

end

end Rota.Directory
