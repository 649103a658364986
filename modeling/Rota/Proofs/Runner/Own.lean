import Rota.Proofs.Runner.Step
import Rota.Proofs.State.Store

/-!
# What the state directory is to one module

Modules share the state directory, but each has a file of its own, and a draft of it.  What a loop does
depends on those two alone, and it leaves the files of other modules as they are.

* `StateStore.own`          what the directory is to a module;
* `StateStore.own_save_of_ne`, `StateStore.own_save_congr`   what a save does to it;
* `StateStore.own_cases`    when it is the same in two places;
* `StateStore.loadFrom`     what a module finds at its start;
* `Runner.Does.own_of_ne`   **a step leaves the directory as it is to other modules**;
* `Turn.seenBy`             what there is to see of a step, notices left aside;
* `Runner.seenBy_begin`, `Runner.seenBy_look`, `Runner.seenBy_finish`   **a step is the same wherever the
  directory is the same to the module**.
-/

namespace Rota

/-! ## names -/

theorem fileChar_ne_dot (c : Char) : fileChar c ≠ '.' := by
  unfold fileChar
  split
  case isTrue h =>
    rintro rfl
    exact absurd h (by decide)
  case isFalse => decide

theorem dot_notMem_fileStem (name : String) : '.' ∉ fileStem name := by
  rw [fileStem, List.mem_map]
  rintro ⟨c, -, h⟩
  exact fileChar_ne_dot c h

theorem draftName_ne {a b : String} (h : fileName a ≠ fileName b) : draftName a ≠ draftName b := by
  intro he
  have hstem : fileStem a ≠ fileStem b := fun e => h (by rw [fileName, fileName, e])
  have hlist : (draftName a).toList = (draftName b).toList := by rw [he]
  -- only the module without a name has a draft with four dots in it
  have hempty : ∀ {x : String}, x ≠ "" → (draftName "").toList ≠ (draftName x).toList := by
    intro x hx e
    rw [toList_draftName hx] at e
    have hsplit : (draftName "").toList = ".json".toList ++ ".json.tmp".toList := rfl
    rw [hsplit, List.append_left_inj] at e
    exact dot_notMem_fileStem x (e ▸ List.mem_cons_self)
  by_cases ha : a = ""
  · by_cases hb : b = ""
    · exact hstem (by rw [ha, hb])
    · exact hempty hb (ha ▸ hlist)
  · by_cases hb : b = ""
    · exact hempty ha (hb ▸ hlist.symm)
    · rw [toList_draftName ha, toList_draftName hb, List.append_left_inj] at hlist
      exact hstem hlist

/-! ## the directory -/

namespace StateStore

/-- what the directory is to a module: its file and its draft, if there can be any -/
def own (name : String) (s : StateStore) : Option (Option Entry × Option Entry) :=
  if s = .blocked then none else some (s.find? (fileName name), s.find? (draftName name))

section
variable {s t : StateStore} {name other : String} {saved : SavedState}

theorem own_of_ne_blocked (hs : s ≠ .blocked) :
    s.own name = some (s.find? (fileName name), s.find? (draftName name)) := if_neg hs

theorem own_eq_none_iff : s.own name = none ↔ s = .blocked := by
  unfold own
  split
  case isTrue h => exact iff_of_true rfl h
  case isFalse h => exact iff_of_false (Option.some_ne_none _) h

/-- directories that are the same to a module: no directory can be made in either place, or its file and
its draft are the same in both -/
theorem own_cases (h : s.own name = t.own name) : s = .blocked ∧ t = .blocked ∨
    s ≠ .blocked ∧ t ≠ .blocked ∧ s.find? (fileName name) = t.find? (fileName name) ∧
      s.find? (draftName name) = t.find? (draftName name) := by
  by_cases hs : s = .blocked
  · rw [own_eq_none_iff.2 hs] at h
    exact .inl ⟨hs, own_eq_none_iff.1 h.symm⟩
  · have ht : t ≠ .blocked := fun e => hs (own_eq_none_iff.1 (h.trans (own_eq_none_iff.2 e)))
    rw [own_of_ne_blocked hs, own_of_ne_blocked ht] at h
    exact .inr ⟨hs, ht, Prod.mk.inj (Option.some.inj h)⟩

theorem find?_of_own (h : s.own name = t.own name) :
    s.find? (fileName name) = t.find? (fileName name) := by
  obtain ⟨rfl, rfl⟩ | ⟨-, -, hfile, -⟩ := own_cases h
  · rfl
  · exact hfile

theorem save_ne_blocked (hs : s ≠ .blocked) : (s.save name saved).1 ≠ .blocked := by
  rw [save_eq hs]
  split
  case h_1 => exact nofun
  case h_2 => split <;> exact nofun

theorem own_save_of_ne (h : fileName other ≠ fileName name) :
    (s.save name saved).1.own other = s.own other := by
  by_cases hs : s = .blocked
  · rw [hs]
    rfl
  · rw [own_of_ne_blocked hs, own_of_ne_blocked (save_ne_blocked hs),
      find?_save h (fileName_ne_draftName other name),
      find?_save (fileName_ne_draftName name other).symm (draftName_ne h)]

def savedAs (name : String) (bytes : List UInt8) (file draft : Option Entry) : Option Entry × Option Entry :=
  if (draftName name).utf8ByteSize ≤ longestFileName ∧ draft ≠ some .folder then
    if file ≠ some .folder then (some (.file bytes), none) else (file, some (.file bytes))
  else (file, draft)

theorem own_save (hs : s ≠ .blocked) :
    (s.save name saved).1.own name =
      some (savedAs name saved.bytes (s.find? (fileName name)) (s.find? (draftName name))) := by
  have hne := fileName_ne_draftName name name
  rw [own_of_ne_blocked (save_ne_blocked hs), save_eq hs, writeDraft_eq, savedAs]
  show some (StateStore.find? _ _, StateStore.find? _ _) = _
  unfold StateStore.find?
  split_ifs with hwrite hmove
  · dsimp only
    rw [moveDraft_eq, Assoc.lookup_put_of_ne hne, if_pos hmove]
    dsimp only [StateStore.entries]
    rw [Assoc.lookup_put_self, Assoc.lookup_put_of_ne hne.symm, Assoc.lookup_erase_self]
  · dsimp only
    rw [moveDraft_eq, Assoc.lookup_put_of_ne hne, if_neg hmove]
    dsimp only [StateStore.entries]
    rw [Assoc.lookup_put_self, Assoc.lookup_put_of_ne hne]
  · rfl

theorem own_save_congr (h : s.own name = t.own name) :
    (s.save name saved).1.own name = (t.save name saved).1.own name := by
  obtain ⟨rfl, rfl⟩ | ⟨hs, ht, hfile, hdraft⟩ := own_cases h
  · rfl
  · rw [own_save hs, own_save ht, hfile, hdraft]

/-- modules find the same in a directory that is the same to them, but for the difference between a
directory that is missing and a file that cannot exist -/
theorem load_of_own (h : s.own name = t.own name) :
    s.load name = t.load name ∨
      (s.load name = .ok none ∨ s.load name = .error .io) ∧
        (t.load name = .ok none ∨ t.load name = .error .io) := by
  obtain ⟨rfl, rfl⟩ | ⟨hs, ht, hfile, -⟩ := own_cases h
  · exact .inl rfl
  by_cases hf : Fits name
  · rw [load_eq hs hf, load_eq ht hf, hfile]
    exact .inl rfl
  · have hload : ∀ {x : StateStore}, x ≠ .blocked → x.load name = .ok none ∨ x.load name = .error .io := by
      intro x hx
      cases x with
      | missing => exact .inl rfl
      | blocked => exact absurd rfl hx
      | holds entries => exact .inr (if_pos (Nat.not_le.1 hf))
    exact .inr ⟨hload hs, hload ht⟩

end

theorem map_own_cases {store store' : Option StateStore} {name : String}
    (h : store.map (own name) = store'.map (own name)) : store = none ∧ store' = none ∨
      ∃ s t, store = some s ∧ store' = some t ∧ s.own name = t.own name := by
  cases store with
  | none => exact .inl ⟨rfl, Option.map_eq_none_iff.1 h.symm⟩
  | some s =>
    obtain ⟨t, ht, hown⟩ := Option.map_eq_some_iff.1 h.symm
    exact .inr ⟨s, t, rfl, ht, hown.symm⟩

def loadFrom (store : Option StateStore) (name : String) : Except StateFault (Option SavedState) :=
  match store with
  | some s => s.load name
  | none => .ok none

end StateStore

open StateStore

/-! ## steps of a loop -/

variable [ZoneDatabase]

/-- what there is to see of a step for a module, notices left aside -/
def Turn.seenBy (t : Turn) (name : String) :
    Runner × List RunnerEvent × Option (Option (Option Entry × Option Entry)) :=
  (t.runner, t.events.filter RunnerEvent.isDeed, t.store.map (own name))

namespace Runner

variable {r r' : Runner} {store store' : Option StateStore}

theorem own_keep_of_ne {other : String} (h : fileName other ≠ fileName r.name) (slot : Stamp)
    (lastRun : Option Moment) :
    (r.keep store slot lastRun).map (own other) = store.map (own other) := by
  cases store with
  | none => rfl
  | some s => exact congrArg some (own_save_of_ne h)

theorem Does.own_of_ne {i : RunnerInput} {deeds : List RunnerEvent} {done : Option Run}
    (does : r.Does store i r' store' deeds done) {other : String}
    (h : fileName other ≠ fileName r.name) : store'.map (own other) = store.map (own other) := by
  cases does with
  | plan => exact own_keep_of_ne h _ _
  | goOn => exact own_keep_of_ne h _ _
  | _ => rfl

theorem begin_congr (store : Option StateStore) {saved saved' : Except StateFault (Option SavedState)}
    {now : Moment} (hslot : (r.firstSlot saved now).1 = (r.firstSlot saved' now).1) :
    (r.begin store now saved).runner = (r.begin store now saved').runner ∧
      (r.begin store now saved).events.filter RunnerEvent.isDeed =
        (r.begin store now saved').events.filter RunnerEvent.isDeed ∧
      (r.begin store now saved).store = (r.begin store now saved').store := by
  unfold Runner.begin
  split
  case h_2 => exact ⟨rfl, rfl, rfl⟩
  case h_1 =>
    split
    case isTrue => exact ⟨rfl, rfl, rfl⟩
    case isFalse =>
      have hquiet := deeds_firstSlot r saved now
      have hquiet' := deeds_firstSlot r saved' now
      generalize r.firstSlot saved now = first at hslot hquiet ⊢
      generalize r.firstSlot saved' now = first' at hslot hquiet' ⊢
      obtain ⟨found, events⟩ := first
      obtain ⟨found', events'⟩ := first'
      dsimp only at hslot hquiet hquiet'
      subst hslot
      cases found with
      | error e => exact ⟨rfl, hquiet.trans hquiet'.symm, rfl⟩
      | ok slot =>
        refine ⟨rfl, ?_, rfl⟩
        dsimp only
        rw [List.filter_append, List.filter_append, hquiet, hquiet']

section
variable (h : store.map (own r.name) = store'.map (own r.name))
include h

theorem own_keep_congr (slot : Stamp) (lastRun : Option Moment) :
    (r.keep store slot lastRun).map (own r.name) = (r.keep store' slot lastRun).map (own r.name) := by
  obtain ⟨rfl, rfl⟩ | ⟨s, t, rfl, rfl, hown⟩ := map_own_cases h
  · rfl
  · exact congrArg some (own_save_congr hown)

theorem firstSlot_congr (now : Moment) :
    (r.firstSlot (loadFrom store r.name) now).1 = (r.firstSlot (loadFrom store' r.name) now).1 := by
  -- without a saved state, or without a readable one, the schedule is asked
  have hunsaved : ∀ {x : Except StateFault (Option SavedState)}, x = .ok none ∨ x = .error .io →
      (r.firstSlot x now).1 = (r.schedule.cadence.next r.clock now).map .ofMoment := by
    rintro x (rfl | rfl) <;> rfl
  obtain ⟨rfl, rfl⟩ | ⟨s, t, rfl, rfl, hown⟩ := map_own_cases h
  · rfl
  · rcases load_of_own hown with he | ⟨hs, ht⟩
    · exact congrArg (fun x => (r.firstSlot x now).1) he
    · exact (hunsaved hs).trans (hunsaved ht).symm

theorem seenBy_await (slot : Stamp) (trigger : Trigger) (lastRun : Option Moment) :
    (r.await store slot trigger lastRun).seenBy r.name =
      (r.await store' slot trigger lastRun).seenBy r.name := by
  rw [Turn.seenBy, Turn.seenBy, await_runner, await_runner, deeds_await, deeds_await, await_store,
    await_store, own_keep_congr h]

theorem seenBy_begin {saved saved' : Except StateFault (Option SavedState)} {now : Moment}
    (hslot : (r.firstSlot saved now).1 = (r.firstSlot saved' now).1) :
    (r.begin store now saved).seenBy r.name = (r.begin store' now saved').seenBy r.name := by
  obtain ⟨hrunner, hevents, hstore⟩ := begin_congr store hslot
  rw [Turn.seenBy, hrunner, hevents, hstore, ← Turn.seenBy]
  unfold Runner.begin
  split
  case h_2 => simp only [Turn.seenBy, h]
  case h_1 =>
    split
    case isTrue => exact seenBy_await h _ _ _
    case isFalse =>
      split
      case h_2 => simp only [Turn.seenBy, h]
      case h_1 slot events _ =>
        obtain ⟨hrunner, hrest⟩ := Prod.mk.inj (seenBy_await h slot .scheduled none)
        obtain ⟨hevents, hstore⟩ := Prod.mk.inj hrest
        simp only [Turn.seenBy, List.filter_append]
        exact Prod.ext hrunner (Prod.ext (congrArg (_ ++ ·) hevents) hstore)

theorem seenBy_look (now : Moment) :
    (r.look store now).seenBy r.name = (r.look store' now).seenBy r.name := by
  rw [look_eq, look_eq]
  split
  case isFalse => simp only [Turn.seenBy, h]
  case isTrue =>
    split
    case isTrue => simp only [leave, Turn.seenBy, h]
    case isFalse => split <;> simp only [call, Turn.seenBy, h]

theorem seenBy_finish (now : Moment) (ms : Nat) (ending : RunEnd) :
    (r.finish store now ms ending).seenBy r.name = (r.finish store' now ms ending).seenBy r.name := by
  unfold finish
  split
  case h_1 => simp only [Turn.seenBy, h]
  case h_3 => simp only [Turn.seenBy, h]
  case h_2 started result _ =>
    dsimp only
    split
    case h_1 => simp only [Turn.seenBy, h]
    case h_2 next _ =>
      let idle : Runner :=
        { r with
          stats := count r.stats started now ms result
          status := { r.status with state := .idle, stats := count r.stats started now ms result } }
      have hawait := seenBy_await (r := idle) h next .scheduled (some started)
      simp only [Turn.seenBy, List.filter_append] at hawait ⊢
      obtain ⟨hrunner, hrest⟩ := Prod.mk.inj hawait
      obtain ⟨hevents, hstore⟩ := Prod.mk.inj hrest
      exact Prod.ext hrunner (Prod.ext (congrArg (_ ++ ·) hevents) hstore)

end

end Runner

end Rota
