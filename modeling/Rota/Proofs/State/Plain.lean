import Rota.Proofs.State.Directory

/-!
# Directories without links

A `StateStore` is a directory in which every name stands for something of its own, and nothing is a
link.  There, loading and saving are what they are in the file system.

* `StateStore.Shows`        the directory of the file system that a store shows;
* `StateStore.Shows.load`, `StateStore.Shows.save`   **both do the same**, as long as nothing fails.
-/

namespace Rota

open Text Directory

def Entry.node : Entry → Node
  | .file bytes => .file bytes true true
  | .folder => .folder

namespace StateStore

/-- names and what they stand for, in both ways of writing -/
structure Lists (entries : List (String × Entry)) (objects : List Object) : Prop where
  single : ∀ o ∈ objects, ∀ a ∈ o.names, ∀ b ∈ o.names, a = b
  nodes : ∀ name, node? objects name = (entries.lookup name).map Entry.node

inductive Shows : StateStore → Directory → Prop
  | missing : Shows .missing .missing
  | blocked : Shows .blocked .blocked
  | holds {entries : List (String × Entry)} {objects : List Object} (h : Lists entries objects) :
    Shows (.holds entries) (.holds objects)

section
variable {entries : List (String × Entry)} {objects : List Object} {name other : String}

namespace Lists

theorem nil : Lists [] [] := ⟨nofun, fun _ => rfl⟩

theorem not_link (h : Lists entries objects) (name target : String) :
    node? objects name ≠ some (.link target) := by
  rw [h.nodes]
  cases entries.lookup name with
  | none => exact nofun
  | some e => cases e <;> exact nofun

theorem node?_eq_folder (h : Lists entries objects) (name : String) :
    node? objects name = some .folder ↔ entries.lookup name = some .folder := by
  rw [h.nodes]
  cases entries.lookup name with
  | none => exact ⟨nofun, nofun⟩
  | some e => cases e <;> simp [Entry.node]

theorem put (h : Lists entries objects) (name : String) (bytes : List UInt8) :
    Lists (Assoc.put name (.file bytes) entries)
      (Directory.put objects name (.file bytes true true)) := by
  refine ⟨fun o ho => ?_, fun n => ?_⟩
  · rcases names_of_mem_put ho with ⟨o', ho', hnames⟩ | hnames
    · rw [← hnames]
      exact h.single o' ho'
    · rw [hnames]
      simp
  · by_cases hn : n = name
    · rw [hn, node?_put_self, Assoc.lookup_put_self]
      rfl
    · rw [node?_put_of_ne hn (fun o ho hname hmem => hn (h.single o ho n hmem name hname)),
        Assoc.lookup_put_of_ne hn, h.nodes]

theorem move {source target : String} {e : Entry} (h : Lists entries objects) (hne : source ≠ target)
    (he : entries.lookup source = some e) :
    Lists (Assoc.put target e (Assoc.erase source entries))
      (objects.map (Object.move source target)) := by
  refine ⟨fun o ho a ha b hb => ?_, fun n => ?_⟩
  · obtain ⟨o, ho', rfl⟩ := List.mem_map.1 ho
    rw [o.mem_names_move hne] at ha hb
    split at ha
    case isTrue hat =>
      split at hb
      case isTrue hbt => rw [hat, hbt]
      case isFalse => exact absurd (h.single o ho' b hb.2 source ha) hb.1
    case isFalse =>
      split at hb
      case isTrue => exact absurd (h.single o ho' a ha.2 source hb) ha.1
      case isFalse => exact h.single o ho' a ha.2 b hb.2
  · rw [node?_move hne, Assoc.lookup_put, Assoc.lookup_erase, h.nodes, h.nodes, he]
    by_cases ht : n = target
    · rw [if_pos ht, if_pos ht.symm]
    · rw [if_neg ht, if_neg (Ne.symm ht)]
      by_cases hs : n = source
      · rw [if_pos hs, if_pos hs.symm]
        rfl
      · rw [if_neg hs, if_neg (Ne.symm hs)]

/-! ## loading -/

theorem load (h : Lists entries objects) (name : String) :
    (Directory.holds objects).load name = (StateStore.holds entries).load name := by
  have hname := isName_iff (all_isFileChar_fileName name)
  unfold Directory.load StateStore.load
  dsimp only
  rw [read_of_not_link (h.not_link _), h.nodes]
  by_cases hf : Fits name
  · rw [if_pos (hname.2 hf), if_neg (Nat.not_lt.2 hf)]
    cases entries.lookup (fileName name) with
    | none => rfl
    | some e =>
      cases e with
      | folder => rfl
      | file => rfl
  · rw [if_neg (mt hname.1 hf), if_pos (Nat.not_le.1 hf)]

/-! ## saving -/

theorem write_eq (h : Lists entries objects) (name : String) (bytes : List UInt8) :
    write objects (draftName name) bytes =
      (writeDraft name bytes entries).map fun _ =>
        Directory.put objects (draftName name) (.file bytes true true) := by
  have hname := isName_iff (all_isFileChar_draftName name)
  rw [write_of_not_link (h.not_link _), h.nodes, writeDraft_eq]
  by_cases hlen : (draftName name).utf8ByteSize ≤ longestFileName
  · rw [if_pos (hname.2 hlen)]
    cases hdraft : entries.lookup (draftName name) with
    | none =>
      rw [if_pos ⟨hlen, nofun⟩]
      rfl
    | some e =>
      cases e with
      | folder =>
        rw [if_neg fun h => h.2 rfl]
        rfl
      | file =>
        rw [if_pos ⟨hlen, by simp⟩]
        rfl
  · rw [if_neg (mt hname.1 hlen), if_neg fun h => hlen h.1]
    rfl

theorem move_eq (h : Lists entries objects) (name : String) (bytes : List UInt8) :
    Directory.move objects (draftName name) (fileName name) =
      (moveDraft name bytes entries).map fun _ =>
        objects.map (Object.move (draftName name) (fileName name)) := by
  have hapart : (objects.any fun o => draftName name ∈ o.names ∧ fileName name ∈ o.names) = false := by
    rw [List.any_eq_false]
    intro o ho
    rw [decide_eq_true_eq]
    exact fun hboth => fileName_ne_draftName name name (h.single o ho _ hboth.2 _ hboth.1)
  unfold Directory.move
  rw [moveDraft_eq, hapart]
  by_cases hfile : entries.lookup (fileName name) = some .folder
  · rw [if_pos ((h.node?_eq_folder _).2 hfile), if_neg fun hne => hne hfile]
    rfl
  · rw [if_neg (mt (h.node?_eq_folder _).1 hfile), if_pos hfile]
    rfl

end Lists

end

section
variable {s : StateStore} {d : Directory}

theorem Shows.load (h : s.Shows d) (name : String) : d.load name = s.load name := by
  cases h with
  | missing => rfl
  | blocked => rfl
  | holds h => exact h.load name

theorem Shows.lists (h : s.Shows d) : Lists s.entries d.objects := by
  cases h with
  | missing => exact .nil
  | blocked => exact .nil
  | holds h => exact h

/-- a save goes as in the file system, and leaves behind what it does there -/
theorem Shows.save (h : s.Shows d) (name : String) (saved : SavedState) :
    (d.save name saved none).2 = (s.save name saved).2 ∧
      (s.save name saved).1.Shows (d.save name saved none).1 := by
  by_cases hs : s = .blocked
  · subst hs
    cases h
    exact ⟨rfl, .blocked⟩
  have hd : d ≠ .blocked := by
    rintro rfl
    cases h
    exact hs rfl
  have hopened : d.opened? none = some d.objects := if_neg fun h => h.elim hd nofun
  have hlists := h.lists
  have hbytes : Mishap.share saved.bytes none = saved.bytes := rfl
  unfold Directory.save
  rw [hopened, save_eq hs, hbytes]
  simp only [hlists.write_eq]
  cases hdrafted : writeDraft name saved.bytes s.entries with
  | none => exact ⟨rfl, .holds hlists⟩
  | some drafted =>
    obtain rfl : Assoc.put (draftName name) (.file saved.bytes) s.entries = drafted := by
      rw [writeDraft_eq] at hdrafted
      split at hdrafted
      case isTrue => exact Option.some.inj hdrafted
      case isFalse => exact nomatch hdrafted
    have hput := hlists.put (draftName name) saved.bytes
    have hmove := hput.move_eq name saved.bytes
    simp only [Option.map_some, Option.isSome_none, Bool.false_eq_true, if_false, reduceCtorEq, hmove]
    cases hmoved : moveDraft name saved.bytes
        (Assoc.put (draftName name) (.file saved.bytes) s.entries) with
    | none => exact ⟨rfl, .holds hput⟩
    | some moved =>
      obtain rfl : StateStore.moved name saved.bytes s.entries = moved := by
        rw [moveDraft_eq] at hmoved
        split at hmoved
        case isTrue => exact Option.some.inj hmoved
        case isFalse => exact nomatch hmoved
      exact ⟨rfl, .holds (hput.move (fileName_ne_draftName name name).symm
        (Assoc.lookup_put_self _ _ _))⟩

end

end StateStore

end Rota
