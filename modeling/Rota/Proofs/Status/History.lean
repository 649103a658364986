import Mathlib.Data.List.Dedup
import Mathlib.Data.List.Sort
import Rota.Proofs.Json.Text
import Rota.Proofs.Status.Query

/-!
# The registry and what happened to it

A sender can be registered under several names and publishes to all of them; under a name only the
sender counts that was registered last.  So what a registry shows can be told from the history alone.

* `Event`                     a registration, a publication, or the end of a sender;
* `senderOf`, `shown`         the sender of a name and what a sender shows, read off a history;
* `Board`                     senders, and a registry that is told of what they do;
* `Board.Sound`               the registry shows under every name what its sender shows; every event
                              keeps that (`Board.Sound.step`), so a history does (`Board.Sound.run`);
* `Json.keep`                 some fields of an object;
* `parse?_handle`             an answer as a text, read again;
* `registry_history`          **names, statuses and answers after any history**.
-/

namespace Rota

/-! ## histories -/

inductive Event where
  | register (name : String) (sender : Nat)
  | publish (sender : Nat) (f : ModuleStatus → ModuleStatus)
  | drop (sender : Nat)

def Event.name? : Event → Option String
  | .register name _ => some name
  | .publish _ _ => none
  | .drop _ => none

def Event.senderFor? (name : String) : Event → Option Nat
  | .register n k => if n = name then some k else none
  | .publish _ _ => none
  | .drop _ => none

def senderOf (es : List Event) (name : String) : Option Nat :=
  (es.filterMap (Event.senderFor? name)).getLast?

theorem senderOf_cons (e : Event) (es : List Event) (name : String) :
    senderOf (e :: es) name = (senderOf es name).or (e.senderFor? name) := by
  unfold senderOf
  cases h : e.senderFor? name with
  | none => rw [List.filterMap_cons_none h, Option.or_none]
  | some k =>
    rw [List.filterMap_cons_some h, List.getLast?_cons]
    cases (es.filterMap (Event.senderFor? name)).getLast? <;> rfl

theorem exists_senderOf_iff {es : List Event} {name : String} :
    (∃ k, senderOf es name = some k) ↔ name ∈ es.filterMap Event.name? := by
  induction es with
  | nil => exact ⟨fun ⟨_, h⟩ => (nomatch h), fun h => (List.not_mem_nil h).elim⟩
  | cons e es ih =>
    simp only [senderOf_cons]
    cases e with
    | register n k =>
      have hmem : name ∈ (Event.register n k :: es).filterMap Event.name? ↔
          name = n ∨ name ∈ es.filterMap Event.name? := List.mem_cons
      rw [hmem]
      simp only [Event.senderFor?]
      by_cases h : n = name
      · subst h
        refine iff_of_true ?_ (.inl rfl)
        cases hk : senderOf es n with
        | none => exact ⟨k, by rw [if_pos rfl, Option.none_or]⟩
        | some k' => exact ⟨k', Option.some_or⟩
      · simp only [if_neg h, Option.or_none, ih, Ne.symm h, false_or]
    | publish =>
      simp only [Event.senderFor?, Option.or_none]
      exact ih
    | drop =>
      simp only [Event.senderFor?, Option.or_none]
      exact ih

/-- what a sender shows that showed `first` before: what it published last, until it was dropped -/
def shown (sender : Nat) (first : ModuleStatus) : List Event → ModuleStatus
  | [] => first
  | .register _ _ :: es => shown sender first es
  | .publish k f :: es => shown sender (if k = sender then f first else first) es
  | .drop k :: es => if k = sender then first else shown sender first es

/-! ## senders and their registry -/

/-- senders, the sender of every name, and the registry -/
structure Board where
  senders : Nat → Publication
  owner : String → Option Nat := fun _ => none
  registry : Registry := {}

namespace Board

def ofSenders (first : Nat → ModuleStatus) : Board where
  senders := fun k => ⟨first k, true⟩

variable (b : Board)

def namesOf (sender : Nat) : List String := b.registry.names.filter fun n => b.owner n = some sender

def change (sender : Nat) (g : Publication → Publication) : Nat → Publication :=
  Function.update b.senders sender (g (b.senders sender))

def step : Event → Board
  | .register name sender =>
    let p := b.senders sender
    let r := b.registry.register name p.status
    { b with
      owner := Function.update b.owner name (some sender)
      registry := if p.isOpen then r else r.close name }
  | .publish sender f =>
    { b with
      senders := b.change sender (Registry.published f)
      registry := (b.namesOf sender).foldl (fun r name => r.publish name f) b.registry }
  | .drop sender =>
    { b with
      senders := b.change sender ({ · with isOpen := false })
      registry := (b.namesOf sender).foldl Registry.close b.registry }

def run (es : List Event) : Board := es.foldl step b

end Board

namespace Registry

section
variable {r : Registry} {name : String}

theorem ascending_publish (h : r.names.Pairwise (· < ·)) (f : ModuleStatus → ModuleStatus) :
    (r.publish name f).names.Pairwise (· < ·) := by
  unfold publish
  split
  case h_1 => exact ascending_insert h
  case h_2 => exact h

theorem ascending_close (h : r.names.Pairwise (· < ·)) :
    (r.close name).names.Pairwise (· < ·) := by
  unfold close
  split
  case h_1 => exact ascending_insert h
  case h_2 => exact h

theorem find?_foldl {op : Registry → String → Registry} {g : Publication → Publication}
    (hop : ∀ r n other, (op r n).find? other =
      if other = n then (r.find? n).map g else r.find? other)
    {ns : List String} (hns : ns.Nodup) (other : String) :
    (ns.foldl op r).find? other = if other ∈ ns then (r.find? other).map g else r.find? other := by
  induction ns generalizing r with
  | nil => rw [List.foldl_nil, if_neg List.not_mem_nil]
  | cons n ns ih =>
    obtain ⟨hn, hrest⟩ := List.nodup_cons.1 hns
    rw [List.foldl_cons, ih hrest, hop]
    by_cases h : other = n
    · subst h
      rw [if_neg hn, if_pos rfl, if_pos List.mem_cons_self]
    · simp only [List.mem_cons, h, false_or, if_false]

theorem ascending_foldl {op : Registry → String → Registry}
    (hop : ∀ r n, r.names.Pairwise (· < ·) → (op r n).names.Pairwise (· < ·)) (ns : List String)
    (h : r.names.Pairwise (· < ·)) : (ns.foldl op r).names.Pairwise (· < ·) := by
  induction ns generalizing r with
  | nil => exact h
  | cons n ns ih => exact ih (hop r n h)

end

end Registry

namespace Board

/-- the registry shows under every name what the sender of the name shows -/
structure Sound (b : Board) : Prop where
  ascending : b.registry.names.Pairwise (· < ·)
  find? : ∀ name, b.registry.find? name = (b.owner name).map b.senders

theorem sound_ofSenders (first : Nat → ModuleStatus) : (ofSenders first).Sound :=
  ⟨.nil, fun _ => rfl⟩

namespace Sound

variable {b : Board}

theorem mem_names (h : b.Sound) {name : String} :
    name ∈ b.registry.names ↔ ∃ k, b.owner name = some k := by
  rw [Registry.mem_names_iff, h.find?]
  constructor
  · rintro ⟨p, hp⟩
    obtain ⟨k, hk, -⟩ := Option.map_eq_some_iff.1 hp
    exact ⟨k, hk⟩
  · rintro ⟨k, hk⟩
    exact ⟨b.senders k, by rw [hk, Option.map_some]⟩

theorem mem_namesOf (h : b.Sound) {sender : Nat} {name : String} :
    name ∈ b.namesOf sender ↔ b.owner name = some sender := by
  rw [namesOf, List.mem_filter, decide_eq_true_eq, h.mem_names]
  exact and_iff_right_of_imp fun hk => ⟨sender, hk⟩

theorem nodup_namesOf (h : b.Sound) (sender : Nat) : (b.namesOf sender).Nodup :=
  (h.ascending.imp ne_of_lt).filter _

theorem find?_change (h : b.Sound) {op : Registry → String → Registry}
    {g : Publication → Publication}
    (hop : ∀ r n other, (op r n).find? other =
      if other = n then (r.find? n).map g else r.find? other) (sender : Nat) (name : String) :
    ((b.namesOf sender).foldl op b.registry).find? name =
      (b.owner name).map (b.change sender g) := by
  rw [Registry.find?_foldl hop (h.nodup_namesOf sender), h.find?]
  cases hk : b.owner name with
  | none => rw [Option.map_none, Option.map_none, Option.map_none, ite_self]
  | some k =>
    simp only [h.mem_namesOf, hk, Option.some.injEq, Option.map_some, change, Function.update_apply]
    split
    case isTrue heq => rw [heq]
    case isFalse => rfl

theorem find?_register (b : Board) (name other : String) (sender : Nat) :
    (b.step (.register name sender)).registry.find? other =
      if other = name then some (b.senders sender) else b.registry.find? other := by
  unfold Board.step
  dsimp only
  cases hp : b.senders sender with
  | mk status isOpen =>
    cases isOpen with
    | true => exact Registry.find?_register b.registry name other status
    | false =>
      rw [if_neg Bool.false_ne_true, Registry.find?_close, Registry.find?_register,
        Registry.find?_register, if_pos rfl]
      split <;> rfl

theorem step (h : b.Sound) (e : Event) : (b.step e).Sound := by
  cases e with
  | register name sender =>
    constructor
    · unfold Board.step
      dsimp only
      split
      case isTrue => exact Registry.ascending_register _ _ _ h.ascending
      case isFalse => exact Registry.ascending_close (Registry.ascending_register _ _ _ h.ascending)
    · intro other
      show (b.step (.register name sender)).registry.find? other =
        (Function.update b.owner name (some sender) other).map b.senders
      rw [find?_register, h.find?, Function.update_apply]
      split <;> rfl
  | publish sender f =>
    exact ⟨Registry.ascending_foldl (fun _ _ hr => Registry.ascending_publish hr f) _ h.ascending,
      fun name => h.find?_change (fun r n other => Registry.find?_publish r n other f) sender name⟩
  | drop sender =>
    exact ⟨Registry.ascending_foldl (fun _ _ hr => Registry.ascending_close hr) _ h.ascending,
      fun name => h.find?_change Registry.find?_close sender name⟩

theorem run (h : b.Sound) (es : List Event) : (b.run es).Sound := by
  induction es generalizing b with
  | nil => exact h
  | cons e es ih => exact ih (h.step e)

end Sound

/-! ### what a board shows, from the history -/

variable (b : Board)

theorem owner_step (e : Event) (name : String) :
    (b.step e).owner name = (e.senderFor? name).or (b.owner name) := by
  cases e with
  | register n k =>
    show Function.update b.owner n (some k) name = _
    rw [Function.update_apply, Event.senderFor?]
    by_cases h : n = name
    · rw [if_pos h.symm, if_pos h, Option.some_or]
    · rw [if_neg (Ne.symm h), if_neg h, Option.none_or]
  | publish => rfl
  | drop => rfl

/-- the owner of a name is the sender that was registered last under it -/
theorem owner_run (es : List Event) (name : String) :
    (b.run es).owner name = (senderOf es name).or (b.owner name) := by
  induction es generalizing b with
  | nil => rfl
  | cons e es ih =>
    rw [run, List.foldl_cons, ← run, ih, owner_step, senderOf_cons, Option.or_assoc]

theorem status_run (es : List Event) (sender : Nat) :
    ((b.run es).senders sender).status =
      if (b.senders sender).isOpen then shown sender (b.senders sender).status es
      else (b.senders sender).status := by
  induction es generalizing b with
  | nil => exact (ite_self _).symm
  | cons e es ih =>
    rw [run, List.foldl_cons, ← run, ih]
    cases e with
    | register => rfl
    | publish k f =>
      simp only [step, change, Function.update_apply, shown, Registry.published]
      by_cases h : sender = k
      · subst h
        cases hopen : (b.senders sender).isOpen <;> simp [hopen]
      · simp [h, Ne.symm h]
    | drop k =>
      simp only [step, change, Function.update_apply, shown]
      by_cases h : sender = k
      · subst h
        simp
      · simp [h, Ne.symm h]

end Board

/-! ## answers -/

def Json.keep (keys : List String) : Json → Json
  | .obj fields => .obj (fields.filter fun f => f.1 ∈ keys)
  | j => j

def Topic.keys : Topic → List String
  | .config => ["module", "schedule"]
  | .stats => ["module", "next_run_time", "state", "stats"]
  | .status => ["module", "next_run_time", "schedule", "state", "stats"]

/-- the answers to all questions are parts of the answer to the most general one -/
theorem Topic.keep_answer (t : Topic) (s : ModuleStatus) :
    (Topic.status.answer s).keep t.keys = t.answer s := by
  cases t <;> rfl

namespace Registry

variable (r : Registry)

theorem query_request_eq_map (t : Topic) (name : String) :
    r.query (t.request name) = (r.query (Topic.status.request name)).map (Json.keep t.keys) := by
  rw [query_request, query_request]
  split
  case h_1 => rfl
  case h_2 w _ =>
    unfold answer
    dsimp only
    split
    case h_1 status _ =>
      rw [Except.map, t.keep_answer]
    case h_2 => rfl

theorem parse?_handle (line : String) :
    Json.parse? (r.handle line) = some (envelope (r.query line)) := by
  rw [handle, Json.parse?_text]

theorem parse?_handle_eq_data_iff (line : String) (data : Json) :
    Json.parse? (r.handle line) = some (.obj [("data", data), ("error", .int 0)]) ↔
      r.query line = .ok data := by
  rw [parse?_handle]
  cases r.query line with
  | ok d => simp [envelope]
  | error e => simp [envelope]

theorem parse?_handle_eq_message_iff (line message : String) :
    Json.parse? (r.handle line) = some (.obj [("error", .int 1), ("message", .str message)]) ↔
      ∃ e, r.query line = .error e ∧ e.message = message := by
  rw [parse?_handle]
  cases r.query line with
  | ok d => simp [envelope]
  | error e => simp [envelope]

end Registry

/-! ## after any history -/

def registryAfter (first : Nat → ModuleStatus) (es : List Event) : Registry :=
  ((Board.ofSenders first).run es).registry

section
variable (first : Nat → ModuleStatus) (es : List Event)

theorem sound_run : ((Board.ofSenders first).run es).Sound := (Board.sound_ofSenders first).run es

theorem owner_run_ofSenders (name : String) :
    ((Board.ofSenders first).run es).owner name = senderOf es name := by
  rw [Board.owner_run]
  exact Option.or_none

theorem get?_registryAfter (name : String) :
    (registryAfter first es).get? name =
      (senderOf es name).map fun sender => shown sender (first sender) es := by
  have hstatus (sender : Nat) :
      (((Board.ofSenders first).run es).senders sender).status = shown sender (first sender) es :=
    Board.status_run _ es sender
  rw [registryAfter, Registry.get?, (sound_run first es).find?, owner_run_ofSenders,
    Option.map_map]
  exact congrArg (Option.map · _) (funext hstatus)

theorem names_registryAfter :
    (registryAfter first es).names =
      (es.filterMap Event.name?).dedup.mergeSort fun a b => decide (a ≤ b) := by
  have hsound := sound_run first es
  have hmem (name : String) :
      name ∈ (registryAfter first es).names ↔ name ∈ (es.filterMap Event.name?).dedup := by
    rw [registryAfter, hsound.mem_names, owner_run_ofSenders, exists_senderOf_iff, List.mem_dedup]
  have hperm : (registryAfter first es).names.Perm (es.filterMap Event.name?).dedup :=
    (List.perm_ext_iff_of_nodup (hsound.ascending.imp ne_of_lt) (List.nodup_dedup _)).2 hmem
  exact (hperm.trans (List.mergeSort_perm _ _).symm).eq_of_pairwise'
    (hsound.ascending.imp le_of_lt) (List.pairwise_mergeSort' (· ≤ ·) _)

end

/-- **after any history** the registry has the names that were registered, in order; it shows under a
name what the sender published last that was registered last, or showed at first; the answers about a
module are parts of its status; and every answer is read back from its text, data as data and errors
as their messages -/
theorem registry_history (first : Nat → ModuleStatus) (es : List Event) :
    ((registryAfter first es).names =
      (es.filterMap Event.name?).dedup.mergeSort fun a b => decide (a ≤ b)) ∧
    (∀ name, (registryAfter first es).get? name =
      (senderOf es name).map fun sender => shown sender (first sender) es) ∧
    (∀ (t : Topic) (name : String), (registryAfter first es).query (t.request name) =
      ((registryAfter first es).query (Topic.status.request name)).map (Json.keep t.keys)) ∧
    (∀ line data, Json.parse? ((registryAfter first es).handle line) =
        some (.obj [("data", data), ("error", .int 0)]) ↔
      (registryAfter first es).query line = .ok data) ∧
    ∀ line message, Json.parse? ((registryAfter first es).handle line) =
        some (.obj [("error", .int 1), ("message", .str message)]) ↔
      ∃ e, (registryAfter first es).query line = .error e ∧ e.message = message :=
  ⟨names_registryAfter first es, get?_registryAfter first es,
    (registryAfter first es).query_request_eq_map, (registryAfter first es).parse?_handle_eq_data_iff,
    (registryAfter first es).parse?_handle_eq_message_iff⟩

end Rota
