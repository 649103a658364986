import Rota.Agent.Run
import Rota.Proofs.Agent.Crew
import Rota.Proofs.Runner.Own

/-!
# Modules in time

A crew may do anything at any time, which is enough where only the order of things matters.  Here the
modules live in time.  Time stands still while anybody can go on, whoever can go on may do so first, and
once all of them rest the next cue of a script is given: a millisecond passes, the wall clock is set, or
all are told to stop.

* `Callback`            what a module does in its runs, by what it has seen and done itself;
* `Player`              a module with its loop, `Player.act` what it does when it can go on, and
                        `Player.hear` what it hears of a report that it sends;
* `Cue`                 what happens to all modules;
* `Ensemble`            the players with the state directory, the channel and the forwarder;
* `Ensemble.gather`     an ensemble that was not started yet;
* `Ensemble.Move`, `Ensemble.Course`   one move, and any number of them;
* `Account`             what there is to see of one module, and `Ensemble.account` where to find it;
* `Ensemble.Course.tidy`   names are kept, and reports are delivered in the order in which they entered.
-/

namespace Rota

/-! ## players -/

/-- what a module does next in a run -/
inductive Deal where
  | work (ms : Nat)
  | send (r : Report)
  | finish (ending : RunEnd)

/-- what a module has seen and done -/
inductive Happening where
  | deed (e : RunnerEvent)
  | worked (ms : Nat)
  | sent (r : Report) (entered : Bool)

namespace Happening

def deed? : Happening → Option RunnerEvent
  | .deed e => some e
  | _ => none

def report? : Happening → Option Report
  | .sent r true => some r
  | _ => none

end Happening

/-- what a module does in its runs: it decides by what it has seen and done itself so far -/
abbrev Callback := List Happening → Deal

inductive Wait where
  | start
  | time (due : Nat)
  | room (r : Report)

variable [ZoneDatabase]

structure Player where
  runner : Runner
  callback : Callback
  wait : Wait := .start
  since : Nat := 0
  diary : List Happening := []

namespace Player

def name (pl : Player) : String := pl.runner.name

def deeds (pl : Player) : List RunnerEvent := pl.diary.filterMap Happening.deed?

def sent (pl : Player) : List Report := pl.diary.filterMap Happening.report?

def isReady (pl : Player) (elapsed : Nat) : Bool :=
  match pl.wait, pl.runner.phase with
  | _, .stopped => false
  | _, .brokenDown => false
  | .time due, _ => decide (due ≤ elapsed)
  | _, _ => false

/-- it can neither go on nor does it wait for a place in the channel -/
def Rests (pl : Player) (elapsed : Nat) : Prop :=
  pl.isReady elapsed = false ∧ ∀ r, pl.wait ≠ .room r

def after (pl : Player) (turn : Turn) : Player :=
  { pl with
    runner := turn.runner
    wait := .time 0
    diary := pl.diary ++ (turn.events.filter RunnerEvent.isDeed).map .deed }

def act (wake : Nat) (clock : SimClock) (store : Option StateStore) (pl : Player) :
    Player × Option StateStore :=
  match pl.runner.phase with
  | .fresh =>
    let turn := pl.runner.begin store clock.now (StateStore.loadFrom store pl.name)
    (pl.after turn, turn.store)
  | .waiting =>
    let turn := pl.runner.look store clock.now
    match turn.runner.phase with
    | .waiting =>
      ({ pl.after turn with wait := .time (clock.elapsed + turn.runner.pauseMs clock.now wake) },
        turn.store)
    | _ => ({ pl.after turn with since := clock.elapsed }, turn.store)
  | .running _ =>
    match pl.callback pl.diary with
    | .work ms =>
      ({ pl with wait := .time (clock.elapsed + ms), diary := pl.diary ++ [.worked ms] }, store)
    | .send r => ({ pl with wait := .room r }, store)
    | .finish ending =>
      let turn := pl.runner.finish store clock.now (clock.elapsed - pl.since) ending
      (pl.after turn, turn.store)
  | .stopped => (pl, store)
  | .brokenDown => (pl, store)

def hear (pl : Player) (r : Report) : SendResult → Player
  | .accepted => { pl with wait := .time 0, diary := pl.diary ++ [.sent r true] }
  | .waits => pl
  | .closed => { pl with wait := .time 0, diary := pl.diary ++ [.sent r false] }

end Player

/-! ## cues -/

/-- what happens to all modules, once they rest -/
inductive Cue where
  | start
  | tick
  | jump (ms : Int)
  | stop
deriving DecidableEq, Repr

def SimClock.cue (c : SimClock) : Cue → SimClock
  | .tick => c.pass 1
  | .jump ms => c.jump ms
  | _ => c

/-- a loop that waits for its slot looks at once when it is told to stop -/
def Player.cue (pl : Player) : Cue → Player
  | .start =>
    match pl.wait with
    | .start => { pl with wait := .time 0 }
    | _ => pl
  | .stop =>
    { pl with
      runner := pl.runner.stop
      wait := if pl.runner.phase = .waiting then .time 0 else pl.wait }
  | _ => pl

/-! ## all of them -/

structure Ensemble where
  wake : Nat
  clock : SimClock
  players : List Player
  store : Option StateStore
  channel : Channel
  forwarder : Forwarder := {}
  inHand : Option Report := none
  entered : List (String × Report) := []
  cues : Nat := 0

namespace Ensemble

def gather (settings : AgentSettings) (accepted : List Accepted) (callback : Accepted → Callback)
    (origin : Moment) (store : Option StateStore) : Ensemble where
  wake := Agent.wake settings
  clock := { origin }
  players := accepted.map fun x =>
    { runner := .fresh x.name x.schedule, callback := callback x }
  store
  channel := .ofCapacity settings.reportCapacity

def put (c : Ensemble) (i : Nat) (pl : Player) : Ensemble :=
  { c with players := c.players.set i pl }

def entering (r : Report) : SendResult → List Report
  | .accepted => [r]
  | .waits => []
  | .closed => []

def cue (c : Ensemble) (x : Cue) : Ensemble :=
  { c with
    clock := c.clock.cue x
    players := c.players.map (·.cue x)
    cues := c.cues + 1 }

structure AtRest (c : Ensemble) : Prop where
  players : ∀ pl ∈ c.players, pl.Rests c.clock.elapsed
  queue : c.channel.queue = []
  inHand : c.inHand = none

inductive Move (p : Publisher) (script : Nat → Cue) (c : Ensemble) : Ensemble → Prop
  | act {i pl} (hpl : c.players[i]? = some pl) (hready : pl.isReady c.clock.elapsed = true) :
    Move p script c
      { c.put i (pl.act c.wake c.clock c.store).1 with store := (pl.act c.wake c.clock c.store).2 }
  | send {i pl r channel result} (hpl : c.players[i]? = some pl) (hwait : pl.wait = .room r)
      (hfree : ∀ g ∈ c.channel.held, g.1 ≠ i) (h : c.channel.send i r = (channel, result)) :
    Move p script c
      { c.put i (pl.hear r result) with
        channel
        entered := c.entered ++ (entering r result).map (Prod.mk pl.name) }
  | enter {i pl r channel} (hpl : c.players[i]? = some pl) (hwait : pl.wait = .room r)
      (hgranted : c.channel.granted.lookup i = some r) (h : c.channel.enter? i = some channel) :
    Move p script c
      { c.put i (pl.hear r .accepted) with channel, entered := c.entered ++ [(pl.name, r)] }
  | giveUp {i pl r} (hpl : c.players[i]? = some pl) (hwait : pl.wait = .room r)
      (h : c.channel.isOpen = false) :
    Move p script c (c.put i (pl.hear r .closed))
  | take {r channel sender} (hhand : c.inHand = none)
      (h : c.channel.receive? = some (r, channel, sender)) :
    Move p script c { c with channel, inHand := some r }
  | hand {r} (hhand : c.inHand = some r) :
    Move p script c
      { c with
        forwarder := (c.forwarder.hand p r).1
        inHand := none
        channel := if (c.forwarder.hand p r).2 = .breakdown then c.channel.close.1 else c.channel }
  | cue (hrest : c.AtRest) : Move p script c (c.cue (script c.cues))

inductive Course (p : Publisher) (script : Nat → Cue) (c₀ : Ensemble) : Ensemble → Prop
  | start : Course p script c₀ c₀
  | snoc {c c'} (h : Course p script c₀ c) (move : c.Move p script c') : Course p script c₀ c'

section
variable {p : Publisher} {script : Nat → Cue} {c₀ c c' : Ensemble}

theorem Move.course (move : c.Move p script c') : c.Course p script c' := .snoc .start move

theorem Course.trans (h : c₀.Course p script c) (h' : c.Course p script c') :
    c₀.Course p script c' := by
  induction h' with
  | start => exact h
  | snoc _ move ih => exact ih.snoc move

end

end Ensemble

/-! ## what there is to see of a module -/

/-- what there is to see of one module -/
structure Account where
  status : Option ModuleStatus
  stats : Option RunStatistics
  deeds : List RunnerEvent
  saved : Option Entry
  reports : List Report

namespace Ensemble

def player? (c : Ensemble) (name : String) : Option Player := c.players.find? fun pl => pl.name = name

/-- the reports of a module that the publisher was handed: as many as it was handed at all are taken
from those that entered -/
def handedOf (c : Ensemble) (name : String) : List Report :=
  Assoc.values name (c.entered.take c.forwarder.handed.length)

def account (c : Ensemble) (name : String) : Account where
  status := (c.player? name).map (·.runner.status)
  stats := (c.player? name).bind fun pl =>
    if pl.runner.phase = .stopped then some pl.runner.stats else none
  deeds := ((c.player? name).map Player.deeds).getD []
  saved := c.store.bind (·.find? (fileName name))
  reports := c.handedOf name

def IsOver (c : Ensemble) (name : String) : Prop :=
  ∀ pl, c.player? name = some pl → pl.runner.IsOver

end Ensemble

/-! ## what a move leaves as it is -/

namespace Player

section
variable (pl : Player)

theorem isReady_iff {elapsed : Nat} :
    pl.isReady elapsed = true ↔ ¬pl.runner.IsOver ∧ ∃ due, due ≤ elapsed ∧ pl.wait = .time due := by
  unfold isReady Runner.IsOver
  cases pl.wait <;> cases pl.runner.phase <;> simp

theorem isReady_eq_false_iff {elapsed : Nat} : pl.isReady elapsed = false ↔
    ¬(¬pl.runner.IsOver ∧ ∃ due, due ≤ elapsed ∧ pl.wait = .time due) := by
  rw [← isReady_iff, Bool.not_eq_true]

theorem sent_after (turn : Turn) : (pl.after turn).sent = pl.sent := by
  rw [sent, sent, after, List.filterMap_append, List.filterMap_map]
  have hnone : (Happening.report? ∘ Happening.deed) = fun _ => none := rfl
  rw [hnone, List.filterMap_none, List.append_nil]

/-- a player that goes on keeps its name and its callback, sends nothing, and leaves the directory as it
is to modules with other files -/
structure GoesOn (store : Option StateStore) (pl' : Player) (store' : Option StateStore) : Prop where
  name : pl'.name = pl.name
  callback : pl'.callback = pl.callback
  sent : pl'.sent = pl.sent
  own : ∀ {other}, fileName other ≠ fileName pl.name →
    store'.map (StateStore.own other) = store.map (StateStore.own other)

variable {pl}

theorem GoesOn.of_step (input : RunnerInput) (store : Option StateStore) :
    pl.GoesOn store (pl.after (pl.runner.step store input)) (pl.runner.step store input).store where
  name := (pl.runner.step_does store input).name
  callback := rfl
  sent := pl.sent_after _
  own h := (pl.runner.step_does store input).own_of_ne h

theorem goesOn_act (wake : Nat) (clock : SimClock) (store : Option StateStore) :
    pl.GoesOn store (pl.act wake clock store).1 (pl.act wake clock store).2 := by
  have hstep : ∀ input, pl.GoesOn store (pl.after (pl.runner.step store input)) _ := fun input =>
    .of_step input store
  unfold act
  split
  case h_1 => exact hstep (.begin _ _)
  case h_2 =>
    obtain ⟨hname, hcallback, hsent, hown⟩ := hstep (.look clock.now)
    dsimp only
    split <;> exact ⟨hname, hcallback, hsent, hown⟩
  case h_3 =>
    split
    case h_1 ms _ =>
      refine ⟨rfl, rfl, ?_, fun _ => rfl⟩
      exact (List.filterMap_append ..).trans (List.append_nil _)
    case h_2 => exact ⟨rfl, rfl, rfl, fun _ => rfl⟩
    case h_3 => exact hstep (.finish _ _ _)
  case h_4 => exact ⟨rfl, rfl, rfl, fun _ => rfl⟩
  case h_5 => exact ⟨rfl, rfl, rfl, fun _ => rfl⟩

end

section
variable (pl : Player) (r : Report)

theorem name_hear (result : SendResult) : (pl.hear r result).name = pl.name := by
  cases result <;> rfl

theorem sent_hear (result : SendResult) :
    (pl.hear r result).sent = pl.sent ++ Ensemble.entering r result := by
  cases result with
  | accepted => exact List.filterMap_append ..
  | waits => exact (List.append_nil _).symm
  | closed => exact List.filterMap_append ..

theorem name_cue (x : Cue) : (pl.cue x).name = pl.name := by
  unfold cue
  split
  case h_1 => split <;> rfl
  case h_2 => rfl
  case h_3 => rfl

theorem diary_cue (x : Cue) : (pl.cue x).diary = pl.diary := by
  unfold cue
  split
  case h_1 => split <;> rfl
  case h_2 => rfl
  case h_3 => rfl

end

end Player

namespace Ensemble

variable {p : Publisher} {script : Nat → Cue} {c₀ c c' : Ensemble} {i j : Nat} {pl pl' : Player}

theorem player_put (hpl : c.players[i]? = some pl) (pl' : Player) (j : Nat) :
    (c.put i pl').players[j]? = if j = i then some pl' else c.players[j]? := by
  rw [put, List.getElem?_set]
  by_cases h : i = j
  · subst h
    rw [if_pos rfl, if_pos (List.getElem?_eq_some_iff.1 hpl).1, if_pos rfl]
  · rw [if_neg h, if_neg (Ne.symm h)]

/-- modules have different state files -/
def Distinct (c : Ensemble) : Prop :=
  ∀ (i j : Nat) (pl pl' : Player), c.players[i]? = some pl → c.players[j]? = some pl' →
    fileName pl.name = fileName pl'.name → i = j

/-- the channel is open, and the books are in order -/
structure Tidy (c : Ensemble) : Prop where
  isOpen : c.channel.isOpen = true
  distinct : c.Distinct
  inOrder : c.entered.map (·.2) =
    c.forwarder.handed.map (·.1) ++ (c.inHand.toList ++ c.channel.queue)
  own : ∀ (i : Nat) (pl : Player), c.players[i]? = some pl → pl.sent = Assoc.values pl.name c.entered

theorem Tidy.gather (settings : AgentSettings) {accepted : List Accepted}
    (callback : Accepted → Callback) (origin : Moment) (store : Option StateStore)
    (hfiles : (accepted.map fun x => fileName x.name).Nodup) :
    (gather settings accepted callback origin store).Tidy where
  isOpen := rfl
  distinct := by
    intro i j pl pl' hi hj h
    simp only [Ensemble.gather, List.getElem?_map, Option.map_eq_some_iff] at hi hj
    obtain ⟨x, hx, rfl⟩ := hi
    obtain ⟨y, hy, rfl⟩ := hj
    have hlt : i < (accepted.map fun x => fileName x.name).length := by
      rw [List.length_map]
      exact (List.getElem?_eq_some_iff.1 hx).1
    refine (List.getElem?_inj hlt hfiles).1 ?_
    rw [List.getElem?_map, List.getElem?_map, hx, hy]
    exact congrArg some h
  inOrder := rfl
  own i pl hi := by
    simp only [Ensemble.gather, List.getElem?_map, Option.map_eq_some_iff] at hi
    obtain ⟨x, -, rfl⟩ := hi
    rfl

theorem Tidy.put (h : c.Tidy) (hpl : c.players[i]? = some pl) (hname : pl'.name = pl.name)
    {reports : List Report} (hsent : pl'.sent = pl.sent ++ reports) :
    (c.put i pl').Distinct ∧ ∀ (j : Nat) (x : Player), (c.put i pl').players[j]? = some x →
      x.sent = Assoc.values x.name (c.entered ++ reports.map (Prod.mk pl.name)) := by
  constructor
  · intro j k x y hx hy he
    rw [player_put hpl] at hx hy
    split at hx <;> split at hy
    case isTrue.isTrue hj hk => exact hj.trans hk.symm
    case isTrue.isFalse hj _ =>
      rw [← Option.some.inj hx, hname] at he
      exact hj.trans (h.distinct _ _ _ _ hpl hy he)
    case isFalse.isTrue hj hk =>
      rw [← Option.some.inj hy, hname] at he
      exact (h.distinct _ _ _ _ hx hpl he).trans hk.symm
    case isFalse.isFalse => exact h.distinct _ _ _ _ hx hy he
  · intro j x hx
    rw [player_put hpl] at hx
    rw [Assoc.values_append, Assoc.values_map]
    split at hx
    case isTrue =>
      rw [← Option.some.inj hx, hsent, hname, if_pos rfl, h.own i pl hpl]
    case isFalse hj =>
      have hne : pl.name ≠ x.name := fun he => hj (h.distinct _ _ _ _ hx hpl (by rw [he]))
      rw [if_neg hne, List.append_nil]
      exact h.own j x hx

theorem Tidy.step (hp : p.Steady) (h : c.Tidy) (move : c.Move p script c') : c'.Tidy := by
  cases move with
  | @act i pl hpl hready =>
    obtain ⟨hname, -, hsent, -⟩ := pl.goesOn_act c.wake c.clock c.store
    obtain ⟨hdistinct, hown⟩ := h.put hpl hname (hsent.trans (List.append_nil _).symm)
    rw [List.map_nil, List.append_nil] at hown
    exact ⟨h.isOpen, hdistinct, h.inOrder, hown⟩
  | @send i pl r channel result hpl hwait hfree hsend =>
    obtain ⟨hdistinct, hown⟩ := h.put hpl (pl.name_hear r result) (pl.sent_hear r result)
    obtain ⟨hclosed, -⟩ | ⟨hopen, -, rfl, rfl⟩ | ⟨hopen, -, rfl, rfl⟩ := Channel.send_cases hsend
    · exact nomatch hclosed.symm.trans h.isOpen
    · refine ⟨hopen, hdistinct, ?_, hown⟩
      show (c.entered ++ [(pl.name, r)]).map (·.2) = _
      rw [List.map_append, h.inOrder, List.append_assoc, List.append_assoc]
      rfl
    · refine ⟨hopen, hdistinct, ?_, hown⟩
      rw [entering, List.map_nil, List.append_nil]
      exact h.inOrder
  | @enter i pl r channel hpl hwait hgranted henter =>
    obtain ⟨hdistinct, hown⟩ := h.put hpl (pl.name_hear r .accepted) (pl.sent_hear r .accepted)
    rw [Channel.enter?, hgranted] at henter
    obtain rfl := Option.some.inj henter
    refine ⟨h.isOpen, hdistinct, ?_, hown⟩
    show (c.entered ++ [(pl.name, r)]).map (·.2) = _
    rw [List.map_append, h.inOrder, List.append_assoc, List.append_assoc]
    rfl
  | giveUp hpl hwait hclosed => exact nomatch hclosed.symm.trans h.isOpen
  | @take r channel sender hhand hreceive =>
    refine ⟨(Channel.isOpen_of_receive? hreceive).trans h.isOpen, h.distinct, ?_, h.own⟩
    rw [h.inOrder, hhand, Channel.queue_of_receive? hreceive]
    rfl
  | @hand r hhand =>
    have hsteady : (c.forwarder.hand p r).2 ≠ .breakdown := hp _ _
    rw [if_neg hsteady]
    refine ⟨h.isOpen, h.distinct, ?_, h.own⟩
    rw [h.inOrder, hhand, Forwarder.handed_hand, List.map_append, List.append_assoc]
    rfl
  | cue hrest =>
    have hplayer : ∀ {j : Nat} {x : Player}, (c.cue (script c.cues)).players[j]? = some x →
        ∃ y : Player, c.players[j]? = some y ∧ x = y.cue (script c.cues) := by
      intro j x hx
      rw [Ensemble.cue, List.getElem?_map, Option.map_eq_some_iff] at hx
      obtain ⟨y, hy, rfl⟩ := hx
      exact ⟨y, hy, rfl⟩
    refine ⟨h.isOpen, fun j k x y hx hy he => ?_, h.inOrder, fun j x hx => ?_⟩
    · obtain ⟨x, hx', rfl⟩ := hplayer hx
      obtain ⟨y, hy', rfl⟩ := hplayer hy
      rw [x.name_cue, y.name_cue] at he
      exact h.distinct _ _ _ _ hx' hy' he
    · obtain ⟨x, hx', rfl⟩ := hplayer hx
      rw [x.name_cue, Player.sent, x.diary_cue]
      exact h.own j x hx'

theorem Course.tidy (hp : p.Steady) (h : c₀.Tidy) (course : c₀.Course p script c) : c.Tidy := by
  induction course with
  | start => exact h
  | snoc _ move ih => exact ih.step hp move

end Ensemble

end Rota
