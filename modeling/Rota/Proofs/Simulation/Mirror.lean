import Rota.Proofs.Simulation.Player
import Rota.Proofs.Simulation.Turns

/-!
# A session seen as an ensemble

The tasks of a session are the players of an ensemble, and each turn is made of moves of theirs.

* `Session.deedsOf`     what the loop of a module did, by the events of a session;
* `Session.Awaited`     what a task that is asleep, awake or about to send a report waits for;
* `Session.Mirrors`     a session and an ensemble stand at the same point;
* `Ensemble.Enacts`     some course of an ensemble leads to where a session is;
* `Ensemble.Enacts.act`, `Ensemble.Enacts.takeTurn`, `Ensemble.Enacts.drain`   turns;
* `Ensemble.Enacts.settle`   **all turns that can be taken without time passing**.
-/

namespace Rota

open StateStore

variable [ZoneDatabase]
variable {p : Publisher} {script : Nat → Cue} {s s' : Session} {c c₀ : Ensemble} {i : Nat} {t : Task}

def SessionEvent.deedOf? (name : String) : SessionEvent → Option RunnerEvent
  | .ofModule n e => if n = name ∧ e.isDeed = true then some e else none
  | .unpublished _ => none

namespace Session

def deedsOf (s : Session) (name : String) : List RunnerEvent :=
  s.events.filterMap (SessionEvent.deedOf? name)

theorem deedsOf_record (s : Session) (i : Nat) (turn : TaskTurn) (name : String) :
    (s.record i turn).deedsOf name =
      s.deedsOf name ++
        if turn.task.runner.name = name then turn.events.filter RunnerEvent.isDeed else [] := by
  rw [deedsOf, record, List.filterMap_append, List.filterMap_map, ← deedsOf]
  congr 1
  by_cases h : turn.task.runner.name = name
  · rw [if_pos h, ← List.filterMap_eq_filter]
    congr 1
    funext e
    simp [SessionEvent.deedOf?, h, Option.guard]
  · rw [if_neg h]
    exact List.filterMap_eq_nil_iff.2 fun e _ => if_neg fun h' => h h'.1

theorem events_callTasks (s : Session) (is : List Nat) : (s.callTasks is).events = s.events := by
  obtain ⟨line, hcalls, -⟩ := s.exists_callTasks is
  rw [hcalls]

theorem deedsOf_forward (s : Session) (r : Report) (name : String) :
    (s.forward r).deedsOf name = s.deedsOf name := by
  unfold forward
  dsimp only
  split
  case h_1 => rfl
  case h_2 =>
    show (s.events ++ [SessionEvent.unpublished r]).filterMap _ = _
    rw [List.filterMap_append]
    exact List.append_nil _
  case h_3 => exact congrArg _ (events_callTasks _ _)

/-- what a task waits for: to wake up, to have its turn, or for a place in the channel -/
inductive Awaited (sleepers : List Sleeper) (elapsed i : Nat) (t : Task) : Wait → Prop
  | asleep {z} (hz : z ∈ sleepers) (hi : z.task = i) : Awaited sleepers elapsed i t (.time z.due)
  | awake {due} (hi : i ∉ sleepers.map Sleeper.task) (hsilent : t.isSending = false)
    (hdue : due ≤ elapsed) : Awaited sleepers elapsed i t (.time due)
  | sending {r} (hr : t.report? = some r) : Awaited sleepers elapsed i t (.room r)

/-- a session and an ensemble stand at the same point -/
structure Mirrors (s : Session) (c : Ensemble) : Prop where
  wake : c.wake = s.wake
  clock : c.clock = s.clock
  store : c.store = s.store
  channel : c.channel = s.channel
  forwarder : c.forwarder = s.forwarder
  inHand : c.inHand = none
  length : c.players.length = s.tasks.length
  played : ∀ (i : Nat) (t : Task), s.tasks[i]? = some t → ∃ pl, c.players[i]? = some pl ∧
    t.PlayedBy s.store (s.deedsOf t.runner.name) pl ∧
    Awaited s.sleepers s.clock.elapsed i t pl.wait
  late : ∀ z ∈ s.sleepers, s.clock.elapsed < z.due

end Session

/-- some course of an ensemble leads to where a session is, with so many cues -/
def Ensemble.Enacts (p : Publisher) (script : Nat → Cue) (c₀ : Ensemble) (s : Session) (n : Nat) :
    Prop :=
  ∃ c, c₀.Course p script c ∧ s.Mirrors c ∧ c.cues = n

/-! ## who is asleep -/

namespace Session

section
variable {sleepers sleepers' : List Sleeper} {elapsed : Nat} {w : Wait}

theorem Awaited.congr (h : Awaited sleepers elapsed i t w)
    (hsame : ∀ z : Sleeper, z.task = i → (z ∈ sleepers' ↔ z ∈ sleepers)) :
    Awaited sleepers' elapsed i t w := by
  cases h with
  | asleep hz hi => exact .asleep ((hsame _ hi).2 hz) hi
  | awake hi hsilent hdue =>
    refine .awake (fun hmem => hi ?_) hsilent hdue
    obtain ⟨z, hz, he⟩ := List.mem_map.1 hmem
    exact List.mem_map.2 ⟨z, (hsame z he).1 hz, he⟩
  | sending hr => exact .sending hr

theorem Awaited.due (h : Awaited sleepers elapsed i t w) (hi : i ∉ sleepers.map Sleeper.task)
    (hsilent : t.isSending = false) : ∃ due, due ≤ elapsed ∧ w = .time due := by
  cases h with
  | asleep hz he => exact absurd (List.mem_map.2 ⟨_, hz, he⟩) hi
  | awake _ _ hdue => exact ⟨_, hdue, rfl⟩
  | sending hr =>
    simp [Task.report?, hsilent] at hr

theorem Awaited.room (h : Awaited sleepers elapsed i t w) (hi : i ∉ sleepers.map Sleeper.task)
    (hsending : t.isSending = true) : ∃ r, t.report? = some r ∧ w = .room r := by
  cases h with
  | asleep hz he => exact absurd (List.mem_map.2 ⟨_, hz, he⟩) hi
  | awake _ hsilent => exact nomatch hsilent.symm.trans hsending
  | sending hr => exact ⟨_, hr, rfl⟩

end

namespace Mirrors

theorem congr (h : s.Mirrors c) (line : List Job) (channel : Channel)
    (entered : List (String × Report)) {events : List SessionEvent}
    (hevents : ∀ name, events.filterMap (SessionEvent.deedOf? name) = s.deedsOf name)
    {forwarder forwarder' : Forwarder} (hforwarder : forwarder' = forwarder) :
    Mirrors { s with line, events, channel, forwarder }
      { c with entered, channel, forwarder := forwarder' } where
  wake := h.wake
  clock := h.clock
  store := h.store
  channel := rfl
  forwarder := hforwarder
  inHand := h.inHand
  length := h.length
  played i t ht := by
    obtain ⟨pl, hpl, hplayed, hwait⟩ := h.played i t ht
    refine ⟨pl, hpl, ?_, hwait⟩
    rw [deedsOf, hevents]
    exact hplayed
  late := h.late

theorem withLine (h : s.Mirrors c) (line : List Job) : Mirrors { s with line } c :=
  ⟨h.wake, h.clock, h.store, h.channel, h.forwarder, h.inHand, h.length, h.played, h.late⟩

/-- a task does something, and its player with it -/
theorem record (h : s.Mirrors c) (hdistinct : c.Distinct) (ht : s.tasks[i]? = some t) {pl pl' : Player}
    (hpl : c.players[i]? = some pl) {turn : TaskTurn}
    (hname : turn.task.runner.name = t.runner.name)
    (hown : ∀ {other}, fileName other ≠ fileName t.runner.name →
      turn.store.map (own other) = s.store.map (own other))
    (hplayed : turn.task.PlayedBy turn.store
      (s.deedsOf t.runner.name ++ turn.events.filter RunnerEvent.isDeed) pl')
    {sleepers : List Sleeper} (hothers : ∀ z : Sleeper, z.task ≠ i → (z ∈ sleepers ↔ z ∈ s.sleepers))
    (hlate : ∀ z ∈ sleepers, s.clock.elapsed < z.due)
    (hwait : Awaited sleepers s.clock.elapsed i turn.task pl'.wait) :
    Mirrors { s.record i turn with sleepers } { c.put i pl' with store := turn.store } where
  wake := h.wake
  clock := h.clock
  store := rfl
  channel := h.channel
  forwarder := h.forwarder
  inHand := h.inHand
  length := by
    show (c.players.set i pl').length = (s.tasks.set i turn.task).length
    rw [List.length_set, List.length_set, h.length]
  late := hlate
  played j x hx := by
    change (s.tasks.set i turn.task)[j]? = some x at hx
    have hdeeds : ∀ name, deedsOf { s.record i turn with sleepers } name = _ := deedsOf_record s i turn
    have hput : (c.put i pl').players[j]? = _ := Ensemble.player_put hpl pl' j
    dsimp only
    rw [hdeeds, hput]
    by_cases hj : j = i
    · subst hj
      rw [List.getElem?_set_self (List.getElem?_eq_some_iff.1 ht).1] at hx
      obtain rfl := Option.some.inj hx
      rw [if_pos rfl, if_pos rfl, hname]
      exact ⟨pl', rfl, hplayed, hwait⟩
    · rw [List.getElem?_set_ne (Ne.symm hj)] at hx
      rw [if_neg hj]
      obtain ⟨plx, hplx, hplayedx, hwaitx⟩ := h.played j x hx
      -- another module has another name and another file
      have hfile : fileName x.runner.name ≠ fileName t.runner.name := by
        obtain ⟨pl₀, hpl₀, hplayed₀, -⟩ := h.played i t ht
        intro he
        refine hj (hdistinct _ _ _ _ hplx hpl₀ ?_)
        rw [Player.name, Player.name, hplayedx.runner, hplayed₀.runner, he]
      have hne : turn.task.runner.name ≠ x.runner.name := fun he => hfile (by rw [← he, hname])
      rw [if_neg hne, List.append_nil]
      refine ⟨plx, hplx, ?_, hwaitx.congr fun z hz => hothers z (by rw [hz]; exact hj)⟩
      refine ⟨hplayedx.runner, hplayedx.callback, hplayedx.calls, hplayedx.deeds, fun hphase now => ?_,
        hplayedx.since, hplayedx.deal⟩
      exact (hplayedx.begins hphase now).trans (Runner.firstSlot_congr (hown hfile).symm now)

/-- the player of a task goes on as the task does in its turn; who sleeps then is left open -/
theorem follow (h : s.Mirrors c) (hdistinct : c.Distinct) (ht : s.tasks[i]? = some t) {pl₀ pl : Player}
    (hpl : c.players[i]? = some pl₀) (hrunner : pl.runner = t.runner) {turn : TaskTurn}
    (htaken : Task.TakenAlong s.wake s.clock s.store (s.deedsOf t.runner.name) pl turn) :
    ∃ pl', pl.Acts c.wake c.clock c.store pl' turn.store ∧
      Task.Awaits s.clock.elapsed pl'.wait turn.next ∧
      ∀ {sleepers : List Sleeper}, (∀ z : Sleeper, z.task ≠ i → (z ∈ sleepers ↔ z ∈ s.sleepers)) →
        (∀ z ∈ sleepers, s.clock.elapsed < z.due) →
        Awaited sleepers s.clock.elapsed i turn.task pl'.wait →
        Mirrors { s.record i turn with sleepers } { c.put i pl' with store := turn.store } := by
  obtain ⟨pl', hacts, hplayed, hwait⟩ := htaken
  obtain ⟨hname, -, -, hown⟩ := hacts.goesOn
  rw [Player.name, Player.name, hrunner, hplayed.runner] at hname
  rw [Player.name, hrunner] at hown
  rw [← h.wake, ← h.clock, ← h.store] at hacts
  exact ⟨pl', hacts, hwait, fun hothers hlate hawaited =>
    h.record hdistinct ht hpl hname hown hplayed hothers hlate hawaited⟩

/-- the report of a task entered, its run ends, and its player takes that along -/
theorem letIn (p : Publisher) (script : Nat → Cue) (h : s.Mirrors c) (hdistinct : c.Distinct)
    (ht : s.tasks[i]? = some t) (hi : i ∉ s.sleepers.map Sleeper.task) {started : Moment}
    (hphase : t.runner.phase = .running started) {pl : Player} (hpl : c.players[i]? = some pl)
    (r : Report) (channel : Channel) (entered : List (String × Report)) :
    ∃ c', Ensemble.Course p script { c.put i (pl.hear r .accepted) with channel, entered } c' ∧
      (s.letIn i channel).Mirrors c' ∧ c'.cues = c.cues := by
  obtain ⟨line, -, hletIn⟩ := exists_letIn ht channel
  obtain ⟨pl₀, hpl₀, hplayed, -⟩ := h.played i t ht
  obtain rfl := Option.some.inj (hpl₀.symm.trans hpl)
  have hquiet := h.congr line channel entered (fun _ => rfl) h.forwarder
  have hheard : (pl₀.hear r .accepted).runner = t.runner := hplayed.runner
  obtain ⟨pl', hacts, ⟨due, hdue, hwait⟩, hrecord⟩ := hquiet.follow hdistinct ht hpl₀ hheard
    (hplayed.answer s.wake s.clock hphase r)
  have hput : Ensemble.players { c.put i (pl₀.hear r .accepted) with channel, entered } =
      (c.put i (pl₀.hear r .accepted)).players := rfl
  have hcourse : Ensemble.Course p script { c.put i (pl₀.hear r .accepted) with channel, entered } _ :=
    hacts.course (i := i) (by rw [hput, Ensemble.player_put hpl₀, if_pos rfl])
  refine ⟨_, hcourse, ?_, rfl⟩
  have hmirrors := hrecord (fun _ _ => Iff.rfl) h.late (hwait ▸ .awake hi rfl hdue)
  rw [hletIn]
  simp only [Ensemble.put, List.set_set] at hmirrors ⊢
  exact hmirrors

theorem forward (script : Nat → Cue) (h : s.Mirrors c) (hp : p.Steady) (hpublisher : s.publisher = p)
    {r : Report} {channel : Channel} {w : Option Nat} (hreceive : s.channel.receive? = some (r, channel, w))
    (line : List Job) :
    ∃ c', c.Course p script c' ∧ (Session.forward { s with channel, line } r).Mirrors c' ∧
      c'.cues = c.cues := by
  have htake : c.Course p script _ := (Ensemble.Move.take h.inHand (h.channel ▸ hreceive)).course
  have hhand := htake.snoc (Ensemble.Move.hand rfl)
  rw [if_neg (hp.hand _ _)] at hhand
  obtain ⟨events, hforward⟩ := forward_eq (s := { s with channel, line }) hp hpublisher r
  have hevents : ∀ name, events.filterMap (SessionEvent.deedOf? name) = s.deedsOf name := by
    intro name
    have hsame := deedsOf_forward { s with channel, line } r name
    rwa [hforward] at hsame
  refine ⟨_, hhand, ?_, rfl⟩
  rw [hforward]
  have hforwarder : (c.forwarder.hand p r).1 = (s.forwarder.hand p r).1 := by rw [h.forwarder]
  have hquiet := h.congr line channel c.entered hevents hforwarder
  rw [h.inHand] at hquiet
  exact hquiet

end Mirrors

end Session

namespace Ensemble.Enacts

open Session

variable {n : Nat} {line : List Job}

theorem late (h : c₀.Enacts p script s n) : ∀ z ∈ s.sleepers, s.clock.elapsed < z.due := by
  obtain ⟨c, -, hmirrors, -⟩ := h
  exact hmirrors.late

theorem withLine (h : c₀.Enacts p script s n) (line : List Job) :
    c₀.Enacts p script { s with line } n := by
  obtain ⟨c, hcourse, hmirrors, hcues⟩ := h
  exact ⟨c, hcourse, hmirrors.withLine line, hcues⟩

/-- the forwarder takes reports out and hands them over -/
theorem drain (hp : p.Steady) (fuel : Nat) (hpublisher : s.publisher = p) (h : c₀.Enacts p script s n) :
    c₀.Enacts p script (Session.drain fuel s) n := by
  induction fuel generalizing s with
  | zero => exact h
  | succ fuel ih =>
    rw [Session.drain]
    split
    case h_2 => exact h
    case h_1 r channel w hreceive =>
      obtain ⟨line, hcalls, -⟩ := exists_callTasks { s with channel } w.toList
      obtain ⟨c, hcourse, hmirrors, hcues⟩ := h
      obtain ⟨c', hcourse', hmirrors', hcues'⟩ :=
        hmirrors.forward script hp hpublisher hreceive line
      obtain ⟨events, hforward⟩ := forward_eq (s := { s with channel, line }) hp hpublisher r
      rw [hcalls]
      refine ih ?_ ⟨c', hcourse.trans hcourse', hmirrors', hcues'.trans hcues⟩
      change (Session.forward { s with channel, line } r).publisher = p
      rw [hforward]
      exact hpublisher

section
variable (hp : p.Steady) (htidy : c₀.Tidy)
include hp htidy

section
variable {turn : TaskTurn}

theorem taken (hsound : s.Sound p (.task i :: s.line)) (ht : s.tasks[i]? = some t)
    (hsilent : t.isSending = false) (hturn : t.turn s.wake s.clock s.store = turn)
    (h : c₀.Enacts p script s n) :
    ∃ c pl, c₀.Course p script c ∧ c.cues = n ∧ c.channel = s.channel ∧ c.players[i]? = some pl ∧
      Task.Awaits s.clock.elapsed pl.wait turn.next ∧
      ∀ {sleepers : List Sleeper}, (∀ z : Sleeper, z.task ≠ i → (z ∈ sleepers ↔ z ∈ s.sleepers)) →
        (∀ z ∈ sleepers, s.clock.elapsed < z.due) →
        Awaited sleepers s.clock.elapsed i turn.task pl.wait →
        Mirrors { s.record i turn with sleepers } c := by
  have hi := hsound.placed.notMem_sleepers List.mem_cons_self
  obtain ⟨c, hcourse, hmirrors, hcues⟩ := h
  obtain ⟨pl₀, hpl₀, hplayed, hwait⟩ := hmirrors.played i t ht
  have htaken := hplayed.turn s.wake (hwait.due hi hsilent) hsilent
  rw [hturn] at htaken
  obtain ⟨pl, hacts, hwait, hrecord⟩ := hmirrors.follow (hcourse.tidy hp htidy).distinct ht hpl₀
    hplayed.runner htaken
  exact ⟨_, pl, hcourse.trans (hacts.course hpl₀), hcues, hmirrors.channel,
    (Ensemble.player_put hpl₀ pl i).trans (if_pos rfl), hwait, hrecord⟩

theorem awake (hsound : s.Sound p (.task i :: s.line)) (ht : s.tasks[i]? = some t)
    (hsilent : t.isSending = false) (hturn : t.turn s.wake s.clock s.store = turn)
    (hnext : turn.next = .again ∨ turn.next = .over) (h : c₀.Enacts p script s n) :
    c₀.Enacts p script (s.record i turn) n := by
  have htakes := t.turn_takes s.wake s.clock s.store
  rw [hturn] at htakes
  have hlate := h.late
  have hi := hsound.placed.notMem_sleepers List.mem_cons_self
  obtain ⟨c, pl, hcourse, hcues, -, -, hwait, hrecord⟩ := h.taken hp htidy hsound ht hsilent hturn
  have hsilent' : turn.task.isSending = false := htakes.silent hsilent fun r h => by
    rw [h] at hnext
    exact hnext.elim nofun nofun
  obtain ⟨due, hdue, hwait⟩ : ∃ due, due ≤ s.clock.elapsed ∧ pl.wait = .time due := by
    rcases hnext with hnext | hnext <;> rw [hnext] at hwait <;> exact hwait
  exact ⟨c, hcourse, hrecord (fun _ _ => Iff.rfl) hlate (hwait ▸ .awake hi hsilent' hdue), hcues⟩

theorem asleep (hsound : s.Sound p (.task i :: s.line)) (ht : s.tasks[i]? = some t)
    (hsilent : t.isSending = false) (hturn : t.turn s.wake s.clock s.store = turn) {ms : Nat}
    (hnext : turn.next = .sleep ms) (h : c₀.Enacts p script s n) :
    c₀.Enacts p script
      { s.record i turn with sleepers := s.sleepers ++ [⟨i, s.clock.elapsed + ms⟩] } n := by
  have hlate := h.late
  obtain ⟨c, pl, hcourse, hcues, -, -, hwait, hrecord⟩ := h.taken hp htidy hsound ht hsilent hturn
  rw [hnext] at hwait
  obtain ⟨hms, hwait⟩ := hwait
  refine ⟨c, hcourse, hrecord (fun z hz => ?_) (fun z hz => ?_) ?_, hcues⟩
  · rw [List.mem_append, List.mem_singleton]
    exact or_iff_left fun he => hz (by rw [he])
  · rcases List.mem_append.1 hz with hz | hz
    · exact hlate z hz
    · rw [List.mem_singleton.1 hz]
      exact Nat.lt_add_of_pos_right hms
  · rw [hwait]
    exact .asleep (z := ⟨i, s.clock.elapsed + ms⟩)
      (List.mem_append_right _ (List.mem_singleton.2 rfl)) rfl

theorem send (hsound : s.Sound p (.task i :: s.line)) (ht : s.tasks[i]? = some t)
    (hsilent : t.isSending = false) (hturn : t.turn s.wake s.clock s.store = turn) {r : Report}
    (hnext : turn.next = .send r) {channel : Channel} (h : c₀.Enacts p script s n) :
    (s.channel.send i r = (channel, .accepted) →
      c₀.Enacts p script ((s.record i turn).letIn i channel) n) ∧
    (s.channel.send i r = (channel, .waits) →
      c₀.Enacts p script { s.record i turn with channel } n) := by
  have htakes := t.turn_takes s.wake s.clock s.store
  rw [hturn, hnext] at htakes
  obtain ⟨htask, ⟨started, hphase⟩, hplan⟩ := htakes.sends
  have hlate := h.late
  have hi := hsound.placed.notMem_sleepers List.mem_cons_self
  obtain ⟨c, pl, hcourse, hcues, hchannel, hpl, hwait, hrecord⟩ :=
    h.taken hp htidy hsound ht hsilent hturn
  rw [hnext] at hwait
  have hreport : turn.task.report? = some r := by
    rw [htask]
    exact Task.report?_of_plan (t := t.sending) rfl hplan
  have hmirrors := hrecord (fun _ _ => Iff.rfl) hlate (hwait ▸ .sending hreport)
  have hfree : ∀ g ∈ c.channel.held, g.1 ≠ i :=
    hchannel ▸ hsound.faithful.free_of_silent ht hsilent
  constructor
  · intro hsend
    obtain ⟨c', hcourse', hletIn, hcues'⟩ := hmirrors.letIn p script (hcourse.tidy hp htidy).distinct
      (task_record ht turn) hi (by rw [htask]; exact hphase) hpl r channel _
    have hmove : c.Move p script _ := .send hpl hwait hfree (hchannel ▸ hsend)
    exact ⟨c', (hcourse.snoc hmove).trans hcourse', hletIn, hcues'.trans hcues⟩
  · intro hsend
    have hmove : c.Move p script _ := .send hpl hwait hfree (hchannel ▸ hsend)
    have hquiet := hmirrors.congr s.line channel (c.entered ++ []) (fun _ => rfl) hmirrors.forwarder
    refine ⟨_, hcourse.snoc hmove, ?_, hcues⟩
    have hself : c.put i pl = c := by
      obtain ⟨hlt, rfl⟩ := List.getElem?_eq_some_iff.1 hpl
      rw [Ensemble.put, List.set_getElem_self]
    change Mirrors _ { c.put i pl with channel, entered := c.entered ++ [] }
    rw [hself]
    exact hquiet

end

theorem act (fuel : Nat) (hsound : s.Sound p (.task i :: s.line)) (hsilent : s.isSending i = false)
    (h : c₀.Enacts p script s n) : c₀.Enacts p script (Session.act fuel s i) n := by
  induction fuel generalizing s with
  | zero =>
    obtain ⟨line, hcall, -⟩ := s.exists_call (.task i)
    rw [Session.act, hcall]
    exact h.withLine line
  | succ fuel ih =>
    obtain ⟨t, ht⟩ := hsound.placed.exists_task List.mem_cons_self
    rw [isSending_of_task ht] at hsilent
    rw [Session.act, ht]
    dsimp only
    have htakes := t.turn_takes s.wake s.clock s.store
    generalize hturn : t.turn s.wake s.clock s.store = turn at htakes
    have htask := task_record ht turn
    have hplaced := hsound.placed.record List.mem_cons_self turn
    cases hnext : turn.next with
    | sleep ms => exact h.asleep hp htidy hsound ht hsilent hturn hnext
    | again =>
      rw [hnext] at htakes
      have hquiet : ∀ r, turn.next ≠ .send r := fun r h => Next.noConfusion (hnext.symm.trans h)
      have hfaithful := (hsound.faithful.silentTurn hp ht hsilent (hnext ▸ htakes) hquiet).2
      refine ih ⟨hfaithful, hplaced⟩ ?_ (h.awake hp htidy hsound ht hsilent hturn (.inl hnext))
      rw [isSending_of_task htask]
      exact htakes.silent hsilent fun _ => Next.noConfusion
    | send r =>
      rw [hnext] at htakes
      dsimp only
      split
      case h_1 hsend =>
        exact absurd hsend (Channel.send_ne_closed hsound.faithful.places.isOpen)
      case h_2 channel hsend =>
        have hfaithful := (hsound.faithful.accept hp ht hsilent htakes hsend).2
        obtain ⟨hplaced', hsilent'⟩ :=
          hplaced.letIn htask r (List.Subset.refl _) (Channel.of_send_accepted hsend)
        exact ih ⟨hfaithful, hplaced'⟩ hsilent'
          ((h.send hp htidy hsound ht hsilent hturn hnext).1 hsend)
      case h_3 channel hsend => exact (h.send hp htidy hsound ht hsilent hturn hnext).2 hsend
    | _ => exact h.awake hp htidy hsound ht hsilent hturn (.inr hnext)

/-- a task uses the place that it was granted for its report, and its run ends -/
theorem enter (hsound : s.Sound p (.task i :: s.line)) (ht : s.tasks[i]? = some t)
    (hsending : t.isSending = true) {channel : Channel} (henter : s.channel.enter? i = some channel)
    (h : c₀.Enacts p script s n) : c₀.Enacts p script (s.letIn i channel) n := by
  obtain ⟨c, hcourse, hmirrors, hcues⟩ := h
  have hi := hsound.placed.notMem_sleepers List.mem_cons_self
  obtain ⟨pl, hpl, -, hwait⟩ := hmirrors.played i t ht
  obtain ⟨r, hreport, hwait⟩ := hwait.room hi hsending
  obtain ⟨started, -, hphase, -, -⟩ := (hsound.faithful.sane_of ht).report hsending
  -- the place was granted for the report that the task is about to send
  obtain ⟨r', hlookup, -⟩ := Option.map_eq_some_iff.1 henter
  obtain ⟨before, after, hgranted, -⟩ := List.lookup_eq_some_iff.1 hlookup
  have hsame := (hsound.faithful.places.held i r').1
    (List.mem_append_left _ (by show _ ∈ s.channel.granted; simp [hgranted]))
  rw [sending_crew ht, hreport] at hsame
  obtain rfl := Option.some.inj hsame
  have hmove : c.Move p script _ :=
    .enter hpl hwait (hmirrors.channel ▸ hlookup) (hmirrors.channel ▸ henter)
  obtain ⟨c', hcourse', hletIn, hcues'⟩ := hmirrors.letIn p script
    (hcourse.tidy hp htidy).distinct ht hi hphase hpl r channel _
  exact ⟨c', (hcourse.snoc hmove).trans hcourse', hletIn, hcues'.trans hcues⟩

theorem takeTurn (hsound : s.Sound p (.task i :: s.line)) (h : c₀.Enacts p script s n) :
    c₀.Enacts p script (s.takeTurn i) n := by
  unfold Session.takeTurn
  cases hsending : s.isSending i with
  | false => exact act hp htidy actFuel hsound hsending h
  | true =>
    obtain ⟨t, ht⟩ := hsound.placed.exists_task List.mem_cons_self
    rw [isSending_of_task ht] at hsending
    rw [if_pos rfl]
    have hopen : s.channel.isOpen = true := hsound.faithful.places.isOpen
    split
    case h_2 =>
      rw [if_pos hopen]
      exact h
    case h_1 channel henter =>
      have hfaithful := (hsound.faithful.enter hp ht hsending henter).2
      obtain ⟨r, -, hchannel⟩ := Channel.of_enter? henter
      obtain ⟨hplaced, hsilent⟩ := hsound.placed.letIn ht r List.filter_sublist.subset hchannel
      exact act hp htidy actFuel ⟨hfaithful, hplaced⟩ hsilent
        (h.enter hp htidy hsound ht hsending henter)

theorem work {j : Job} (hsound : s.Sound p (j :: s.line)) (h : c₀.Enacts p script s n) :
    c₀.Enacts p script (s.work j) n := by
  cases j with
  | task i => exact takeTurn hp htidy hsound h
  | forwarder => exact drain hp _ hsound.faithful.publisher h

theorem settle (fuel : Nat) (hsound : s.Sound p s.line) (h : c₀.Enacts p script s n) :
    c₀.Enacts p script (Session.settle fuel s) n := by
  induction fuel generalizing s with
  | zero => exact h
  | succ fuel ih =>
    rw [Session.settle]
    split
    case h_1 => exact h
    case h_2 j line hline =>
      have hnext := hsound.next hline
      exact ih (fares_work hp hnext).sound (work hp htidy hnext (h.withLine line))

end

end Ensemble.Enacts

end Rota
