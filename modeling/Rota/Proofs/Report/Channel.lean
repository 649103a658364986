import Mathlib.Data.List.Nodup
import Rota.Report.Channel

/-!
# Places in the report channel

A sender with a report that is not in the queue yet either has a place for it or waits for one.  Here
each step of the channel is told by what it does to the queue and to those senders.

* `Channel.held`       the senders outside the queue, with their reports: those with a place first;
* `Channel.reserve?`   a sender takes a free place and does not use it yet;
* `Channel.send_cases`, `Channel.of_receive?`, `Channel.of_enter?`   what the steps do, and single
                       facts that are read off them.

A place that becomes free moves the first waiting sender behind those that have one.  So `held` stays
the same list when a report is taken out.
-/

namespace Rota.Channel

variable {c c' : Channel} {i : Nat} {r : Report}

/-- the senders that have a place or wait for one, with their reports -/
def held (c : Channel) : List (Nat × Report) := c.granted ++ c.waiting

def reserve? (c : Channel) (sender : Nat) (r : Report) : Option Channel :=
  if c.isOpen && c.hasRoom then some { c with granted := c.granted ++ [(sender, r)] } else none

/-- what a sender finds: room, no room, or a closed channel -/
theorem send_cases {result : SendResult} (h : c.send i r = (c', result)) :
    (c.isOpen = false ∧ result = .closed ∧ c' = c) ∨
    (c.isOpen = true ∧ c.hasRoom = true ∧ result = .accepted ∧
      c' = { c with queue := c.queue ++ [r] }) ∨
    (c.isOpen = true ∧ c.hasRoom = false ∧ result = .waits ∧
      c' = { c with waiting := c.waiting ++ [(i, r)] }) := by
  unfold send at h
  split at h
  case isTrue hclosed =>
    obtain ⟨rfl, rfl⟩ := Prod.mk.inj h
    exact .inl ⟨by simpa using hclosed, rfl, rfl⟩
  case isFalse hopen =>
    have hopen : c.isOpen = true := by simpa using hopen
    split at h <;> obtain ⟨rfl, rfl⟩ := Prod.mk.inj h
    case isTrue hroom => exact .inr (.inl ⟨hopen, hroom, rfl, rfl⟩)
    case isFalse hroom => exact .inr (.inr ⟨hopen, by simpa using hroom, rfl, rfl⟩)

theorem send_ne_closed (hopen : c.isOpen = true) : c.send i r ≠ (c', .closed) := by
  intro h
  obtain ⟨hclosed, -⟩ | ⟨-, -, he, -⟩ | ⟨-, -, he, -⟩ := send_cases h
  · exact nomatch hclosed.symm.trans hopen
  · exact nomatch he
  · exact nomatch he

theorem of_send_accepted (h : c.send i r = (c', .accepted)) :
    c' = { c with queue := c.queue ++ [r] } := by
  obtain ⟨-, he, -⟩ | ⟨-, -, -, hc'⟩ | ⟨-, -, he, -⟩ := send_cases h
  · exact nomatch he
  · exact hc'
  · exact nomatch he

theorem of_send_waits (h : c.send i r = (c', .waits)) :
    c.hasRoom = false ∧ c' = { c with waiting := c.waiting ++ [(i, r)] } := by
  obtain ⟨-, he, -⟩ | ⟨-, -, he, -⟩ | ⟨-, hroom, -, hc'⟩ := send_cases h
  · exact nomatch he
  · exact nomatch he
  · exact ⟨hroom, hc'⟩

theorem of_reserve? (h : c.reserve? i r = some c') :
    c.isOpen = true ∧ c' = { c with granted := c.granted ++ [(i, r)] } := by
  unfold reserve? at h
  split at h
  case isTrue hroom => exact ⟨(Bool.and_eq_true_iff.1 hroom).1, (Option.some.inj h).symm⟩
  case isFalse => exact nomatch h

theorem of_receive? {w : Option Nat} (h : c.receive? = some (r, c', w)) :
    ∃ rest, c.queue = r :: rest ∧
      ((c.waiting = [] ∧ w = none ∧ c' = { c with queue := rest }) ∨
        ∃ g later, c.waiting = g :: later ∧ w = some g.1 ∧
          c' = { c with queue := rest, granted := c.granted ++ [g], waiting := later }) := by
  unfold receive? at h
  split at h
  case h_1 => exact nomatch h
  case h_2 first rest hqueue =>
    obtain ⟨rfl, hgrant⟩ := Prod.mk.inj (Option.some.inj h)
    refine ⟨rest, hqueue, ?_⟩
    unfold grant at hgrant
    split at hgrant <;> obtain ⟨rfl, rfl⟩ := Prod.mk.inj hgrant
    case h_1 hwaiting => exact .inl ⟨hwaiting, rfl, rfl⟩
    case h_2 g later hwaiting => exact .inr ⟨g, later, hwaiting, rfl, rfl⟩

theorem queue_of_receive? {w : Option Nat} (h : c.receive? = some (r, c', w)) :
    c.queue = r :: c'.queue := by
  obtain ⟨rest, hqueue, ⟨-, -, rfl⟩ | ⟨g, later, -, -, rfl⟩⟩ := of_receive? h <;> exact hqueue

theorem held_of_receive? {w : Option Nat} (h : c.receive? = some (r, c', w)) : c'.held = c.held := by
  obtain ⟨rest, -, ⟨-, -, rfl⟩ | ⟨g, later, hwaiting, -, rfl⟩⟩ := of_receive? h
  · rfl
  · simp [held, hwaiting]

theorem isOpen_of_receive? {w : Option Nat} (h : c.receive? = some (r, c', w)) :
    c'.isOpen = c.isOpen := by
  obtain ⟨rest, -, ⟨-, -, rfl⟩ | ⟨g, later, -, -, rfl⟩⟩ := of_receive? h <;> rfl

theorem of_enter? (h : c.enter? i = some c') : ∃ r, (i, r) ∈ c.granted ∧
    c' = { c with granted := c.granted.filter fun g => g.1 ≠ i, queue := c.queue ++ [r] } := by
  obtain ⟨r, hlookup, rfl⟩ := Option.map_eq_some_iff.1 h
  obtain ⟨before, after, hgranted, -⟩ := List.lookup_eq_some_iff.1 hlookup
  exact ⟨r, by simp [hgranted], rfl⟩

theorem enter?_isSome (h : i ∈ c.granted.map (·.1)) : ∃ c', c.enter? i = some c' := by
  obtain ⟨g, hg, rfl⟩ := List.mem_map.1 h
  obtain ⟨r, hlookup⟩ :=
    Option.isSome_iff_exists.1 (List.lookup_isSome_iff.2 ⟨g, hg, beq_self_eq_true g.1⟩)
  exact ⟨_, by rw [enter?, hlookup]; rfl⟩

/-- when no sender is outside the queue twice, the one that uses its place is the one that leaves -/
theorem held_of_enter? (hnodup : (c.held.map (·.1)).Nodup) (h : c.enter? i = some c') :
    c'.held = c.held.filter fun g => g.1 ≠ i := by
  obtain ⟨r, hmem, rfl⟩ := of_enter? h
  have hwaiting : c.waiting.filter (fun g => g.1 ≠ i) = c.waiting := by
    rw [held, List.map_append] at hnodup
    refine List.filter_eq_self.2 fun g hg => decide_eq_true fun he => ?_
    exact (List.nodup_append.1 hnodup).2.2 i (List.mem_map.2 ⟨_, hmem, rfl⟩) g.1
      (List.mem_map.2 ⟨g, hg, rfl⟩) he.symm
  simp only [held, List.filter_append]
  rw [hwaiting]

end Rota.Channel
