import Rota.Proofs.State.Store
import Rota.Settings.Basic

/-!
# Modules that share a directory

File names keep letters, digits, dashes and underscores and replace all other characters.  Modules
whose names are still different then have files of their own in the state directory.  The others share
one file, and read each other's state.

* `StateStore.Written`    what a directory holds that nobody but the modules writes to;
* `StateStore.KeepsApart` every module finds there what it saved last;
* `StateStore.Written.load`   it does if no two of the names share a file;
* `keepsApart_iff`        and only then.
-/

namespace Rota

namespace StateStore

/-- the directory after saves that all succeeded, the last one in front; there was none before, or
it was empty -/
inductive Written : List (String × SavedState) → StateStore → Prop
  | missing : Written [] .missing
  | empty : Written [] (.holds [])
  | save {history : List (String × SavedState)} {store : StateStore} {name : String}
      {saved : SavedState} (h : Written history store) (hv : saved.IsValid)
      (hs : (store.save name saved).2 = .ok ()) :
    Written ((name, saved) :: history) (store.save name saved).1

/-- every module finds what it saved last, whatever else the modules of these names saved -/
def KeepsApart (names : List String) : Prop :=
  ∀ history store, Written history store → (∀ f ∈ history, f.1 ∈ names) →
    ∀ name ∈ names, store.load name = .ok (history.lookup name)

def OwnFiles (names : List String) : Prop :=
  ∀ a ∈ names, (draftName a).utf8ByteSize ≤ longestFileName →
    ∀ b ∈ names, fileStem a = fileStem b → a = b

theorem fileName_eq_iff {a b : String} : fileName a = fileName b ↔ fileStem a = fileStem b := by
  constructor
  · intro h
    have hlist := congrArg String.toList h
    rw [toList_fileName, toList_fileName] at hlist
    exact List.append_cancel_right hlist
  · intro h
    rw [fileName, fileName, h]

/-! ## names with files of their own -/

theorem lookup_cons_of_ne {name writer : String} (h : name ≠ writer) (saved : SavedState)
    (history : List (String × SavedState)) :
    ((writer, saved) :: history).lookup name = history.lookup name := by
  rw [List.lookup_cons, beq_eq_false_iff_ne.2 h]

/-- every module finds what it saved last, if none has to share its file -/
theorem Written.load {names : List String} {history : List (String × SavedState)}
    {store : StateStore} (h : Written history store) (hn : ∀ f ∈ history, f.1 ∈ names)
    (ho : OwnFiles names) {name : String} (hname : name ∈ names) (hf : Fits name) :
    store.load name = .ok (history.lookup name) := by
  induction h with
  | missing => rfl
  | empty => exact load_eq (by simp) hf
  | @save history store writer saved _ hv hs ih =>
    have hwriter : writer ∈ names := hn (writer, saved) List.mem_cons_self
    have hrest := ih fun f h => hn f (List.mem_cons_of_mem _ h)
    have ht := save_isOk_iff.1 hs
    by_cases e : name = writer
    · rw [e, List.lookup_cons_self]
      exact load_save hv ht
    · have hfile : fileName name ≠ fileName writer := fun h =>
        e (ho writer hwriter ht.short name hname (fileName_eq_iff.1 h).symm).symm
      rw [lookup_cons_of_ne e, load_save_of_ne hf hfile]
      exact hrest

/-! ## names that share a file -/

theorem load_of_fileName_eq (store : StateStore) {a b : String} (h : fileName a = fileName b) :
    store.load a = store.load b := by
  unfold load
  rw [h]

theorem takes_missing {name : String} (h : (draftName name).utf8ByteSize ≤ longestFileName) :
    missing.Takes name where
  notBlocked := nofun
  short := h
  draft := nofun
  file := nofun

theorem not_keepsApart {names : List String} {a b : String} (ha : a ∈ names) (hb : b ∈ names)
    (hlen : (draftName a).utf8ByteSize ≤ longestFileName) (hstem : fileStem a = fileStem b)
    (hne : a ≠ b) : ¬ KeepsApart names := by
  intro h
  have hv := SavedState.isValid_ofMoment "" .first none
  have ht := takes_missing hlen
  have hload := h _ _ (.save .missing hv (save_isOk_iff.2 ht)) (by simpa using ha) b hb
  rw [← load_of_fileName_eq _ (fileName_eq_iff.2 hstem), load_save hv ht,
    lookup_cons_of_ne hne.symm] at hload
  exact nomatch hload

/-- a module whose file cannot exist is told so, once there is a directory -/
theorem fits_of_keepsApart {names : List String} (h : KeepsApart names) {name : String}
    (hname : name ∈ names) : Fits name := by
  have hload := h [] _ .empty (List.forall_mem_nil _) name hname
  by_contra hf
  have hlong : longestFileName < (fileName name).utf8ByteSize := Nat.not_le.1 hf
  have hio : (holds []).load name = .error .io := if_pos hlong
  rw [hio] at hload
  exact nomatch hload

end StateStore

/-- modules that save to one directory keep their states apart exactly if each of them can have a
file and no two of them the same; and whatever the directory holds, a save leaves alone what is
loaded from another file -/
theorem keepsApart_iff (names : List String) :
    (StateStore.KeepsApart names ↔
        (∀ name ∈ names, Fits name) ∧ StateStore.OwnFiles names) ∧
      ∀ (store : StateStore) (saved : SavedState) (a b : String), Fits b → fileStem a ≠ fileStem b →
        (store.save a saved).1.load b = store.load b := by
  refine ⟨⟨fun h => ⟨fun name => StateStore.fits_of_keepsApart h, ?_⟩, ?_⟩, ?_⟩
  · intro a ha hlen b hb hstem
    by_contra hne
    exact StateStore.not_keepsApart ha hb hlen hstem hne h
  · rintro ⟨hf, ho⟩ history store h hn name hname
    exact h.load hn ho hname (hf name hname)
  · intro store saved a b hf hstem
    exact StateStore.load_save_of_ne hf fun h => hstem (StateStore.fileName_eq_iff.1 h).symm

/-- settings that are accepted can hold two modules of one file -/
theorem not_keepsApart_settings :
    ∃ s : Settings, s.fault? = none ∧ (s.modules.map (·.name)).Nodup ∧
      ¬ StateStore.KeepsApart (s.modules.map (·.name)) := by
  refine ⟨{ modules := [{ name := "a b", kind := .heartbeat }, { name := "a_b", kind := .heartbeat }] },
    by decide +kernel, by decide, ?_⟩
  exact StateStore.not_keepsApart (a := "a b") (b := "a_b") (by decide) (by decide) (by decide) rfl
    (by decide)

end Rota
