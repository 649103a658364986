import Rota.Proofs.State.Saved
import Rota.State.Store
import Mathlib.Tactic.SplitIfs

/-!
# What a save does to the directory

A state is written to the draft of its module and moved over the file from there.  So a save that
stops before the move has changed no file that is ever loaded, wherever it stops, and one that
succeeds has changed the file of its module only.

* `fileName_ne_draftName`        no draft is a file that is loaded;
* `StateStore.Interrupted`       what a save can leave behind that stops before the move;
* `StateStore.Interrupted.load`  it changes nothing that is loaded;
* `StateStore.Takes`, `StateStore.save_cases`   when a save ends with the move, and when before it.
-/

namespace Rota

/-! ## names -/

def isFileChar (c : Char) : Bool := c.isAlphanum || c == '-' || c == '_' || c == '.'

def Fits (name : String) : Prop := (fileName name).utf8ByteSize ≤ longestFileName

instance (name : String) : Decidable (Fits name) := inferInstanceAs (Decidable (_ ≤ _))

theorem toList_fileName (name : String) :
    (fileName name).toList = fileStem name ++ ".json".toList :=
  String.toList_ofList

theorem fileStem_eq_nil_iff {name : String} : fileStem name = [] ↔ name = "" := by
  rw [fileStem, List.map_eq_nil_iff, String.toList_eq_nil_iff]

theorem toList_draftName {name : String} (h : name ≠ "") :
    (draftName name).toList = fileStem name ++ ".json.tmp".toList := by
  rw [draftName, if_neg fun e => h (fileStem_eq_nil_iff.1 e), String.toList_ofList]
  rfl

theorem all_isFileChar_fileStem (name : String) : (fileStem name).all isFileChar = true := by
  rw [fileStem, List.all_map, List.all_eq_true]
  intro c _
  show isFileChar (fileChar c) = true
  unfold fileChar
  split
  case isTrue h =>
    unfold isFileChar
    rw [h]
    rfl
  case isFalse => rfl

theorem all_isFileChar_fileName (name : String) :
    (fileName name).toList.all isFileChar = true := by
  rw [toList_fileName, List.all_append, all_isFileChar_fileStem]
  rfl

theorem all_isFileChar_draftName (name : String) :
    (draftName name).toList.all isFileChar = true := by
  by_cases h : name = ""
  · rw [h]
    rfl
  · rw [toList_draftName h, List.all_append, all_isFileChar_fileStem]
    rfl

theorem fileName_ne_draftName (a b : String) : fileName a ≠ draftName b := by
  intro h
  -- a file ends in `n` and a draft in `p`
  have hlast : (fileName a).toList.getLast? = (draftName b).toList.getLast? := by rw [h]
  have hfile : (fileName a).toList.getLast? = some 'n' := by
    rw [toList_fileName, List.getLast?_append]
    rfl
  have hdraft : (draftName b).toList.getLast? = some 'p' := by
    by_cases hb : b = ""
    · rw [hb]
      rfl
    · rw [toList_draftName hb, List.getLast?_append]
      rfl
  rw [hfile, hdraft] at hlast
  exact absurd hlast (by decide)

theorem utf8ByteSize_fileName (name : String) :
    (fileName name).utf8ByteSize = (String.ofList (fileStem name)).utf8ByteSize + 5 := by
  rw [fileName, String.ofList_append, String.utf8ByteSize_append]
  rfl

theorem fits_of_draftName {name : String} (h : (draftName name).utf8ByteSize ≤ longestFileName) :
    Fits name := by
  unfold Fits
  by_cases hn : name = ""
  · rw [hn]
    decide
  · have hsize : (draftName name).utf8ByteSize
        = (String.ofList (fileStem name)).utf8ByteSize + 9 := by
      rw [draftName, if_neg fun e => hn (fileStem_eq_nil_iff.1 e), String.ofList_append,
        String.utf8ByteSize_append]
      rfl
    rw [utf8ByteSize_fileName]
    omega

/-! ## the directory -/

theorem SavedState.isValid_of_found {read : Except Json.Fault SavedState} {saved : SavedState}
    (hread : ∀ s : SavedState, read = .ok s → s.IsValid) (h : found read = .ok (some saved)) :
    saved.IsValid := by
  cases read with
  | ok =>
    cases h
    exact hread _ rfl
  | error => exact nomatch h

theorem Entry.isValid_of_saved? {e : Option Entry} {saved : SavedState}
    (h : saved? e = .ok (some saved)) : saved.IsValid := by
  cases e with
  | none => exact nomatch h
  | some e =>
    cases e with
    | folder => exact nomatch h
    | file => exact SavedState.isValid_of_found (fun _ => SavedState.isValid_of_ofText) h

namespace StateStore

def find? (store : StateStore) (entry : String) : Option Entry := store.entries.lookup entry

variable {store store' : StateStore} {name : String}

/-- what is loaded depends on one entry -/
theorem load_eq (hs : store ≠ .blocked) (hf : Fits name) :
    store.load name = Entry.saved? (store.find? (fileName name)) := by
  cases store with
  | missing => rfl
  | blocked => exact absurd rfl hs
  | holds entries =>
    show (if longestFileName < (fileName name).utf8ByteSize then _ else _) = _
    rw [if_neg (Nat.not_lt.2 hf)]
    rfl

theorem load_congr (hs : store ≠ .blocked) (hs' : store' ≠ .blocked) (hf : Fits name)
    (h : store'.find? (fileName name) = store.find? (fileName name)) :
    store'.load name = store.load name := by
  rw [load_eq hs' hf, load_eq hs hf, h]

/-! ## a save that stops -/

/-- what a save leaves behind that stops before the draft is moved; the draft may hold anything then -/
inductive Interrupted (name : String) : StateStore → StateStore → Prop
  | untouched (store : StateStore) : Interrupted name store store
  | made : Interrupted name .missing (.holds [])
  | drafted {store : StateStore} (h : store ≠ .blocked) (bytes : List UInt8) :
    Interrupted name store (.holds (Assoc.put (draftName name) (.file bytes) store.entries))

namespace Interrupted

theorem find? (h : Interrupted name store store') {entry : String} (he : entry ≠ draftName name) :
    store'.find? entry = store.find? entry := by
  cases h with
  | untouched => rfl
  | made => rfl
  | drafted _ bytes => exact Assoc.lookup_put_of_ne he (.file bytes) store.entries

theorem load (h : Interrupted name store store') {other : String} (hf : Fits other) :
    store'.load other = store.load other := by
  have hfind := h.find? (fileName_ne_draftName other name)
  cases h with
  | untouched => rfl
  | made => exact load_congr nofun nofun hf hfind
  | drafted hs bytes => exact load_congr hs nofun hf hfind

end Interrupted

/-! ## a save that ends -/

/-- the directory lets the state of a module be saved -/
structure Takes (store : StateStore) (name : String) : Prop where
  notBlocked : store ≠ .blocked
  short : (draftName name).utf8ByteSize ≤ longestFileName
  draft : store.find? (draftName name) ≠ some .folder
  file : store.find? (fileName name) ≠ some .folder

def moved (name : String) (bytes : List UInt8) (entries : List (String × Entry)) : List (String × Entry) :=
  Assoc.put (fileName name) (.file bytes)
    (Assoc.erase (draftName name) (Assoc.put (draftName name) (.file bytes) entries))

theorem writeDraft_eq (name : String) (bytes : List UInt8) (entries : List (String × Entry)) :
    writeDraft name bytes entries =
      if (draftName name).utf8ByteSize ≤ longestFileName ∧
          entries.lookup (draftName name) ≠ some .folder then
        some (Assoc.put (draftName name) (.file bytes) entries)
      else none := by
  unfold writeDraft
  by_cases hlen : (draftName name).utf8ByteSize ≤ longestFileName
  · rw [if_neg (Nat.not_lt.2 hlen)]
    split
    case h_1 hfolder => exact (if_neg fun h => h.2 hfolder).symm
    case h_2 hfree => exact (if_pos ⟨hlen, hfree⟩).symm
  · rw [if_pos (Nat.not_le.1 hlen), if_neg fun h => hlen h.1]

theorem moveDraft_eq (name : String) (bytes : List UInt8) (entries : List (String × Entry)) :
    moveDraft name bytes entries =
      if entries.lookup (fileName name) ≠ some .folder then
        some (Assoc.put (fileName name) (.file bytes) (Assoc.erase (draftName name) entries))
      else none := by
  unfold moveDraft
  split
  case h_1 hfolder => exact (if_neg fun h => h hfolder).symm
  case h_2 hfree => exact (if_pos hfree).symm

theorem save_eq {store : StateStore} (hs : store ≠ .blocked) (name : String) (saved : SavedState) :
    store.save name saved =
      match writeDraft name saved.bytes store.entries with
      | none => (.holds store.entries, .error .io)
      | some drafted =>
        match moveDraft name saved.bytes drafted with
        | none => (.holds drafted, .error .io)
        | some entries => (.holds entries, .ok ()) := by
  cases store with
  | blocked => exact absurd rfl hs
  | _ => rfl

theorem save_cases (store : StateStore) (name : String) (saved : SavedState) :
    (store.Takes name ∧
        store.save name saved = (.holds (moved name saved.bytes store.entries), .ok ())) ∨
      (¬ store.Takes name ∧
        ∃ store', store.save name saved = (store', .error .io) ∧ Interrupted name store store') := by
  by_cases hs : store = .blocked
  · rw [hs]
    exact .inr ⟨fun h => h.notBlocked rfl, .blocked, rfl, .untouched _⟩
  -- the directory is there now, if it was not before
  have hopened : Interrupted name store (.holds store.entries) := by
    cases store with
    | missing => exact .made
    | blocked => exact absurd rfl hs
    | holds entries => exact .untouched _
  have hfile : (Assoc.put (draftName name) (.file saved.bytes) store.entries).lookup (fileName name)
      = store.find? (fileName name) :=
    Assoc.lookup_put_of_ne (fileName_ne_draftName name name) _ _
  rw [save_eq hs, writeDraft_eq]
  split_ifs with hwrite
  · dsimp only
    rw [moveDraft_eq, hfile]
    split_ifs with hmove
    · exact .inl ⟨⟨hs, hwrite.1, hwrite.2, hmove⟩, rfl⟩
    · exact .inr ⟨fun h => hmove h.file, _, rfl, .drafted hs saved.bytes⟩
  · exact .inr ⟨fun h => hwrite ⟨h.short, h.draft⟩, _, rfl, hopened⟩

theorem find?_moved {bytes : List UInt8} {entry : String} {entries : List (String × Entry)}
    (hf : entry ≠ fileName name) (hd : entry ≠ draftName name) :
    (moved name bytes entries).lookup entry = entries.lookup entry := by
  unfold moved
  rw [Assoc.lookup_put_of_ne hf, Assoc.lookup_erase_of_ne hd, Assoc.lookup_put_of_ne hd]

variable {saved : SavedState}

theorem save_isOk_iff : (store.save name saved).2 = .ok () ↔ store.Takes name := by
  rcases store.save_cases name saved with ⟨ht, hsave⟩ | ⟨ht, store', hsave, -⟩
  · rw [hsave]
    exact iff_of_true rfl ht
  · rw [hsave]
    exact iff_of_false nofun ht

theorem load_save (hv : saved.IsValid) (ht : store.Takes name) :
    (store.save name saved).1.load name = .ok (some saved) := by
  rcases store.save_cases name saved with ⟨-, hsave⟩ | ⟨hn, -⟩
  · rw [hsave]
    show (holds (moved name saved.bytes store.entries)).load name = _
    rw [load_eq (by simp) (fits_of_draftName ht.short)]
    show Entry.saved? ((moved name saved.bytes store.entries).lookup _) = _
    rw [moved, Assoc.lookup_put_self, Entry.saved?, SavedState.ofBytes_bytes hv]
    rfl
  · exact absurd ht hn

theorem Takes.save (ht : store.Takes name) : (store.save name saved).1.Takes name := by
  rcases store.save_cases name saved with ⟨-, hsave⟩ | ⟨hn, -⟩
  · rw [hsave]
    have hne := fileName_ne_draftName name name
    refine ⟨by simp, ht.short, ?_, ?_⟩
    · show (moved name saved.bytes store.entries).lookup (draftName name) ≠ _
      rw [moved, Assoc.lookup_put_of_ne hne.symm, Assoc.lookup_erase_self]
      exact nofun
    · show (moved name saved.bytes store.entries).lookup (fileName name) ≠ _
      rw [moved, Assoc.lookup_put_self]
      exact nofun
  · exact absurd ht hn

theorem isValid_of_load (h : store.load name = .ok (some saved)) : saved.IsValid := by
  unfold load at h
  split at h
  case h_1 => exact nomatch h
  case h_2 => exact nomatch h
  case h_3 entries =>
    split at h
    case isTrue => exact nomatch h
    case isFalse => exact Entry.isValid_of_saved? h

theorem find?_save {entry : String} (hf : entry ≠ fileName name) (hd : entry ≠ draftName name) :
    (store.save name saved).1.find? entry = store.find? entry := by
  rcases store.save_cases name saved with ⟨-, hsave⟩ | ⟨-, store', hsave, hi⟩
  · rw [hsave]
    exact find?_moved hf hd
  · rw [hsave]
    exact hi.find? hd

theorem load_save_of_ne {other : String} (hf : Fits other) (h : fileName other ≠ fileName name) :
    (store.save name saved).1.load other = store.load other := by
  have hfind : (store.save name saved).1.find? (fileName other) = store.find? (fileName other) :=
    find?_save h (fileName_ne_draftName other name)
  rcases store.save_cases name saved with ⟨ht, hsave⟩ | ⟨-, store', hsave, hi⟩
  · rw [hsave] at hfind ⊢
    exact load_congr ht.notBlocked nofun hf hfind
  · rw [hsave]
    exact hi.load hf

end StateStore

end Rota
