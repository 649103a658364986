import Rota.Report.Channel
import Rota.Report.Forwarder
import Rota.Simulation.Task

/-!
# Sessions

A session runs tasks side by side in simulated time, with one state directory, one report channel
and one forwarder.  The tasks and the forwarder take turns: each of them goes on until it has to
wait, and whoever is called meanwhile gets in line at the end.

* `Session.settle`     all turns that can be taken without time passing;
* `Session.pass`       time passes, and everything that falls due in it is done at its time;
* `Session.jump`       the wall clock is set; nobody notices until the next look at it;
* `Session.shutdown`   all tasks are told to stop, and the session goes on until they have.

Tasks that wake up at the same time do so in the order in which they fell asleep.  Work takes
simulated time, everything else takes none.
-/

namespace Rota

inductive SessionEvent where
  | ofModule (name : String) (event : RunnerEvent)
  | unpublished (report : Report)

def SessionEvent.notice? : SessionEvent → Option Notice
  | .ofModule _ (.notice n) => some n
  | .unpublished _ => some .unpublishedReport
  | _ => none

def SessionEvent.start? : SessionEvent → Option Moment
  | .ofModule _ (.called _ started _) => some started
  | _ => none

def SessionEvent.isDismissal : SessionEvent → Bool
  | .ofModule _ .dismissed => true
  | _ => false

/-- who takes turns -/
inductive Job where
  | task (i : Nat)
  | forwarder
deriving DecidableEq, Repr

structure Sleeper where
  task : Nat
  due : Nat
deriving DecidableEq, Repr

variable [ZoneDatabase]

structure Session where
  clock : SimClock
  wake : Nat
  tasks : List Task
  store : Option StateStore := none
  channel : Channel := .ofCapacity 1
  publisher : Publisher := .all
  forwarder : Forwarder := {}
  isBroken : Bool := false
  /-- who is in line for a turn, the next one first -/
  line : List Job := (List.range tasks.length).map .task
  /-- the tasks that sleep, in the order in which they fell asleep -/
  sleepers : List Sleeper := []
  events : List SessionEvent := []

namespace Session

def call (s : Session) (j : Job) : Session :=
  if j ∈ s.line then s else { s with line := s.line ++ [j] }

def callTasks (s : Session) (is : List Nat) : Session := is.foldl (fun s i => s.call (.task i)) s

/-! ## tasks -/

def record (s : Session) (i : Nat) (t : TaskTurn) : Session :=
  { s with
    tasks := s.tasks.set i t.task
    store := t.store
    events := s.events ++ t.events.map (.ofModule t.task.runner.name) }

def answer (s : Session) (i : Nat) (sent : Bool) : Session :=
  match s.tasks[i]? with
  | none => s
  | some t => s.record i (t.answer s.clock s.store sent)

/-- a task goes on until it has to wait; after `fuel` steps the others get their turns first -/
def act : Nat → Session → Nat → Session
  | 0, s, i => s.call (.task i)
  | fuel + 1, s, i =>
    match s.tasks[i]? with
    | none => s
    | some t =>
      let turn := t.turn s.wake s.clock s.store
      let s := s.record i turn
      match turn.next with
      | .again => act fuel s i
      | .sleep ms => { s with sleepers := s.sleepers ++ [⟨i, s.clock.elapsed + ms⟩] }
      | .over => s
      | .send report =>
        match s.channel.send i report with
        | (_, .closed) => act fuel (s.answer i false) i
        | (channel, .accepted) =>
          act fuel (({ s with channel := channel }.call .forwarder).answer i true) i
        | (channel, .waits) => { s with channel := channel }

def actFuel : Nat := 1000

def isSending (s : Session) (i : Nat) : Bool := s.tasks[i]?.any fun t => t.isSending

/-- the turn of a task.  If it waited for a place in the channel it has one now, or the channel was
closed. -/
def takeTurn (s : Session) (i : Nat) : Session :=
  if s.isSending i then
    match s.channel.enter? i with
    | some channel =>
      act actFuel (({ s with channel := channel }.call .forwarder).answer i true) i
    | none => if s.channel.isOpen then s else act actFuel (s.answer i false) i
  else act actFuel s i

/-! ## reports -/

/-- the forwarder breaks down: the channel is closed, and who waits for a place is told so -/
def breakDown (s : Session) : Session :=
  let (channel, senders) := s.channel.close
  { s with channel := channel, isBroken := true }.callTasks senders

def forward (s : Session) (report : Report) : Session :=
  let (forwarder, verdict) := s.forwarder.hand s.publisher report
  match verdict with
  | .published => { s with forwarder := forwarder }
  | .refused _ =>
    { s with forwarder := forwarder, events := s.events ++ [.unpublished report] }
  | .breakdown => breakDown { s with forwarder := forwarder }

/-- the turn of the forwarder: it takes out up to `fuel` reports, and whoever gets a free place is
called -/
def drain : Nat → Session → Session
  | 0, s => s
  | fuel + 1, s =>
    match s.channel.receive? with
    | some (report, channel, sender) =>
      drain fuel (({ s with channel := channel }.callTasks sender.toList).forward report)
    | none => s

def work (s : Session) : Job → Session
  | .task i => s.takeTurn i
  | .forwarder => s.drain s.channel.queue.length

/-! ## time -/

def settle : Nat → Session → Session
  | 0, s => s
  | fuel + 1, s =>
    match s.line with
    | [] => s
    | j :: line => settle fuel ({ s with line := line }.work j)

/-- more turns than are taken without time passing -/
def settleFuel (s : Session) : Nat := 1000 * (s.tasks.length + 1)

def nextDue (s : Session) : Option Nat := (s.sleepers.map (·.due)).min?

/-- the time goes on to `elapsed`, and the tasks that are due then wake up -/
def wakeAt (s : Session) (elapsed : Nat) : Session :=
  let (due, asleep) := s.sleepers.partition fun z => z.due ≤ elapsed
  { s with clock := { s.clock with elapsed := elapsed }, sleepers := asleep }.callTasks
    (due.map Sleeper.task)

def runTo (target : Nat) : Nat → Session → Session
  | 0, s => { s with clock := { s.clock with elapsed := target } }
  | fuel + 1, s =>
    let s := s.settle s.settleFuel
    match s.nextDue with
    | some due =>
      if due ≤ target then runTo target fuel (s.wakeAt (max s.clock.elapsed due))
      else { s with clock := { s.clock with elapsed := target } }
    | none => { s with clock := { s.clock with elapsed := target } }

/-- time passes; every step before the last one takes a millisecond or more -/
def pass (s : Session) (ms : Nat) : Session := runTo (s.clock.elapsed + ms) (ms + 2) s

def jump (s : Session) (ms : Int) : Session := { s with clock := s.clock.jump ms }

def isWaiting (s : Session) (i : Nat) : Bool :=
  s.tasks[i]?.any fun t => decide (t.runner.phase = .waiting)

/-- tells all tasks to stop; those that wait for their slots wake up for it -/
def orderStop (s : Session) : Session :=
  let (waiting, working) := s.sleepers.partition fun z => s.isWaiting z.task
  let tasks := s.tasks.map fun t => { t with runner := t.runner.stop }
  { s with tasks := tasks, sleepers := working }.callTasks (waiting.map Sleeper.task)

def finish : Nat → Session → Session
  | 0, s => s
  | fuel + 1, s =>
    let s := s.settle s.settleFuel
    match s.nextDue with
    | some due => finish fuel (s.wakeAt (max s.clock.elapsed due))
    | none => s

/-- all tasks are told to stop, and the session goes on until they have; each one wakes up at most
once more, at the end of the run under way -/
def shutdown (s : Session) : Session := finish (s.tasks.length + 2) s.orderStop

end Session

end Rota
