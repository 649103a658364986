import Rota.Proofs.Report.Channel
import Rota.Proofs.Runner.LifeCycle
import Rota.Report.Forwarder
import Rota.Simulation.Task

/-!
# Modules and the forwarder side by side

The modules of an agent run next to each other and next to the forwarder.  A session picks one order
of their steps.  Here they may be taken in any order: whoever can make a move may make it at any time,
and the clock may read anything then.

* `Conduct`             what a module may do in a run, one report or many;
* `Behaviour.conduct`   what a module of a session does;
* `Member`, `Crew`      a module with its loop, and all of them with the channel and the forwarder;
* `Crew.hire`           a crew that was not started yet;
* `Deed`                what is said of a report: that its sender was called, that it entered the
                        channel or was lost, that it was handed over;
* `Crew.Move`           one move, with the deeds in it;
* `Crew.Course`         any number of moves.

The forwarder takes a report out in one move and is done with it in a later one.  A sender that finds
room may take the place first and use it later.  The order to stop may reach every loop at a time of
its own.
-/

namespace Rota

/-- a publisher that takes or refuses every report, by any rule, and never breaks down -/
def Publisher.Steady (p : Publisher) : Prop := ∀ n r, p n r ≠ .breakdown

/-! ## what modules do -/

/-- what a module may do in a run, given how many runs it had before and what it has sent in this one,
each report with whether it could be sent -/
structure Conduct where
  maySend : Nat → List (Report × Bool) → Report → Prop
  mayEnd : Nat → List (Report × Bool) → RunEnd → Prop

inductive RunPlan.MayEnd (p : RunPlan) : List (Report × Bool) → RunEnd → Prop
  | worked (h : p.report? = none) : MayEnd p [] p.ending
  | reported {r} (h : p.report? = some r) (sent : Bool) : MayEnd p [(r, sent)] (p.endingAfter sent)

def Behaviour.conduct (b : Behaviour) : Conduct where
  maySend n sent r := sent = [] ∧ (b n).report? = some r
  mayEnd n sent ending := (b n).MayEnd sent ending

/-! ## what is said of reports -/

/-- what is said of a report, and of which sender -/
inductive Deed where
  | called (i : Nat) (r : Report)
  | entered (i : Nat) (r : Report)
  | lost (i : Nat) (r : Report)
  | handed (r : Report) (v : Verdict)

namespace Deed

def called? : Deed → Option (Nat × Report)
  | .called i r => some (i, r)
  | _ => none

def entered? : Deed → Option (Nat × Report)
  | .entered i r => some (i, r)
  | _ => none

def lost? : Deed → Option (Nat × Report)
  | .lost i r => some (i, r)
  | _ => none

def handed? : Deed → Option (Report × Verdict)
  | .handed r v => some (r, v)
  | _ => none

def ofSend (i : Nat) (r : Report) : SendResult → List Deed
  | .accepted => [.entered i r]
  | .waits => []
  | .closed => [.lost i r]

end Deed

section
variable (ds : List Deed)

def calledIn : List (Nat × Report) := ds.filterMap Deed.called?

def enteredIn : List (Nat × Report) := ds.filterMap Deed.entered?

def lostIn : List (Nat × Report) := ds.filterMap Deed.lost?

def handedIn : List (Report × Verdict) := ds.filterMap Deed.handed?

variable (new : List Deed)

theorem calledIn_append : calledIn (ds ++ new) = calledIn ds ++ calledIn new := List.filterMap_append

theorem enteredIn_append : enteredIn (ds ++ new) = enteredIn ds ++ enteredIn new :=
  List.filterMap_append

theorem lostIn_append : lostIn (ds ++ new) = lostIn ds ++ lostIn new := List.filterMap_append

theorem handedIn_append : handedIn (ds ++ new) = handedIn ds ++ handedIn new := List.filterMap_append

end

/-! ## all of them -/

variable [ZoneDatabase]

/-- a module with its loop -/
structure Member where
  runner : Runner
  conduct : Conduct
  sent : List (Report × Bool) := []
  /-- the report that it is about to send, while it is not in the queue -/
  sending : Option Report := none

def Member.hear (m : Member) (r : Report) : SendResult → Member
  | .accepted => { m with sent := m.sent ++ [(r, true)], sending := none }
  | .waits => { m with sending := some r }
  | .closed => { m with sent := m.sent ++ [(r, false)], sending := none }

structure Crew where
  members : List Member
  channel : Channel
  forwarder : Forwarder := {}
  /-- the report that the forwarder has taken out and is not done with -/
  inHand : Option Report := none
  returned : Option Nat := none

structure Hire where
  name : String
  schedule : Schedule
  conduct : Conduct

namespace Crew

/-- a crew that was not started yet -/
def hire (capacity : Nat) (hires : List Hire) : Crew where
  members := hires.map fun h => { runner := .fresh h.name h.schedule, conduct := h.conduct }
  channel := .ofCapacity capacity

def put (c : Crew) (i : Nat) (m : Member) : Crew := { c with members := c.members.set i m }

def sending (c : Crew) (i : Nat) : Option Report := c.members[i]?.bind Member.sending

/-- one move, with the deeds in it -/
inductive Move (p : Publisher) (c : Crew) : List Deed → Crew → Prop
  | loop {i m} (hm : c.members[i]? = some m) {input : RunnerInput}
      (hinput : ∀ now ms ending, input ≠ .finish now ms ending) (store : Option StateStore) :
    Move p c [] (c.put i { m with runner := (m.runner.step store input).runner })
  | finish {i m started ending} (hm : c.members[i]? = some m)
      (hphase : m.runner.phase = .running started) (hsending : m.sending = none)
      (hend : m.conduct.mayEnd m.runner.stats.runs m.sent ending) (store : Option StateStore)
      (now : Moment) (ms : Nat) :
    Move p c []
      (c.put i { m with runner := (m.runner.step store (.finish now ms ending)).runner, sent := [] })
  | send {i m started r channel result} (hm : c.members[i]? = some m)
      (hphase : m.runner.phase = .running started) (hsending : m.sending = none)
      (hsend : m.conduct.maySend m.runner.stats.runs m.sent r)
      (h : c.channel.send i r = (channel, result)) :
    Move p c (.called i r :: Deed.ofSend i r result) { c.put i (m.hear r result) with channel }
  /-- a sender takes a free place and does not use it yet -/
  | reserve {i m started r channel} (hm : c.members[i]? = some m)
      (hphase : m.runner.phase = .running started) (hsending : m.sending = none)
      (hsend : m.conduct.maySend m.runner.stats.runs m.sent r)
      (h : c.channel.reserve? i r = some channel) :
    Move p c [.called i r] { c.put i (m.hear r .waits) with channel }
  | enter {i m r channel} (hm : c.members[i]? = some m) (hsending : m.sending = some r)
      (h : c.channel.enter? i = some channel) :
    Move p c [.entered i r] { c.put i (m.hear r .accepted) with channel }
  | giveUp {i m r} (hm : c.members[i]? = some m) (hsending : m.sending = some r)
      (h : c.channel.isOpen = false) :
    Move p c [.lost i r] (c.put i (m.hear r .closed))
  | take {r channel sender} (hhand : c.inHand = none) (hreturned : c.returned = none)
      (h : c.channel.receive? = some (r, channel, sender)) :
    Move p c [] { c with channel, inHand := some r }
  | hand {r} (hhand : c.inHand = some r) :
    Move p c [.handed r (c.forwarder.hand p r).2]
      { c with
        forwarder := (c.forwarder.hand p r).1
        inHand := none
        channel := if (c.forwarder.hand p r).2 = .breakdown then c.channel.close.1 else c.channel }
  /-- the forwarder finds that no report is left and that nobody can send one any more -/
  | giveBack (hopen : c.channel.isOpen = true) (hqueue : c.channel.queue = []) (hhand : c.inHand = none)
      (hover : ∀ m ∈ c.members, m.runner.IsOver) (hreturned : c.returned = none) :
    Move p c [] { c with returned := some c.forwarder.published }

inductive Course (p : Publisher) (c₀ : Crew) : List Deed → Crew → Prop
  | start : Course p c₀ [] c₀
  | snoc {ds new c c'} (h : Course p c₀ ds c) (move : c.Move p new c') : Course p c₀ (ds ++ new) c'

/-! ## small laws -/

section
variable {c : Crew} {i j : Nat} {m m' : Member}

theorem member_put (hm : c.members[i]? = some m) (m' : Member) (j : Nat) :
    (c.put i m').members[j]? = if j = i then some m' else c.members[j]? := by
  rw [put, List.getElem?_set]
  by_cases h : i = j
  · subst h
    rw [if_pos rfl, if_pos (List.getElem?_eq_some_iff.1 hm).1, if_pos rfl]
  · rw [if_neg h, if_neg (Ne.symm h)]

theorem sending_put (hm : c.members[i]? = some m) (m' : Member) (j : Nat) :
    (c.put i m').sending j = if j = i then m'.sending else c.sending j := by
  rw [sending, member_put hm]
  by_cases h : j = i
  · rw [if_pos h, if_pos h]
    rfl
  · rw [if_neg h, if_neg h]
    rfl

theorem sending_of_member (hm : c.members[i]? = some m) : c.sending i = m.sending := by
  rw [sending, hm]
  rfl

theorem put_put (c : Crew) (i : Nat) (m m' : Member) : (c.put i m).put i m' = c.put i m' := by
  rw [put, put, put, List.set_set]

theorem put_self (hm : c.members[i]? = some m) : c.put i m = c := by
  obtain ⟨hi, rfl⟩ := List.getElem?_eq_some_iff.1 hm
  rw [put, List.set_getElem_self]

end

section
variable {p : Publisher} {c₀ c c' : Crew} {ds new : List Deed}

theorem Move.course (move : c.Move p new c') : c.Course p new c' := .snoc .start move

theorem Course.trans (h : c₀.Course p ds c) (h' : c.Course p new c') :
    c₀.Course p (ds ++ new) c' := by
  induction h' with
  | start => rwa [List.append_nil]
  | snoc _ move ih => rw [← List.append_assoc]; exact ih.snoc move

end

end Crew

end Rota
