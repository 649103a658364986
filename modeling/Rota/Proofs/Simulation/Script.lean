import Rota.Proofs.Agent.Reports
import Rota.Proofs.Simulation.Cues

/-!
# The script of an agent

What happens to an agent until all its loops have stopped is told as a script of cues.  At those cues the
modules of the agent, as an ensemble, come to where the session that runs the agent ends.

* `SimClock.Stays`       the wall clock is not at the end of the calendar;
* `Passage.cues`         the cues of an agent, and `Passage.toScript` the script;
* `Tells`                how a script goes on;
* `Session.InTime.undergo`, `Session.InTime.shutdown`   what happens to a session, as cues;
* `Agent.gather`         the modules of an agent, as an ensemble;
* `Agent.enacts_run`     **the session that runs an agent is an ensemble at its end**.
-/

namespace Rota

variable {script : Nat → Cue} {n : Nat}

/-! ## the wall clock -/

def SimClock.undergo (clock : SimClock) : Passage → SimClock
  | .time ms => clock.pass ms
  | .jump ms => clock.jump ms

/-- neither now nor after any of those passages is the wall clock at the end of the calendar -/
def SimClock.Stays (clock : SimClock) (passages : List Passage) : Prop :=
  ∀ clock' ∈ passages.scanl SimClock.undergo clock, clock'.now ≠ Moment.last

instance (clock : SimClock) (passages : List Passage) : Decidable (clock.Stays passages) :=
  inferInstanceAs (Decidable
    (∀ clock' ∈ passages.scanl SimClock.undergo clock, clock'.now ≠ Moment.last))

theorem SimClock.stays_cons {clock : SimClock} {x : Passage} {passages : List Passage} :
    clock.Stays (x :: passages) ↔ clock.now ≠ Moment.last ∧ (clock.undergo x).Stays passages := by
  rw [Stays, List.scanl_cons]
  exact List.forall_mem_cons

theorem SimClock.Stays.now {clock : SimClock} {passages : List Passage} (h : clock.Stays passages) :
    clock.now ≠ Moment.last := by
  cases passages with
  | nil => exact h clock List.mem_cons_self
  | cons x passages => exact (stays_cons.1 h).1

/-! ## scripts -/

namespace Passage

def cuesOn (passages : List Passage) : List Cue :=
  passages.flatMap (fun
    | .time ms => List.replicate ms Cue.tick
    | .jump ms => [.jump ms]) ++ [.stop]

theorem cuesOn_time (ms : Nat) (passages : List Passage) :
    cuesOn (.time ms :: passages) = List.replicate ms .tick ++ cuesOn passages := by
  rw [cuesOn, List.flatMap_cons, List.append_assoc, ← cuesOn]

theorem cuesOn_jump (ms : Int) (passages : List Passage) :
    cuesOn (.jump ms :: passages) = .jump ms :: cuesOn passages := rfl

def cues : List Passage → List Cue
  | [] => [.stop, .start]
  | .jump ms :: passages => .jump ms :: cues passages
  | .time ms :: passages => .start :: cuesOn (.time ms :: passages)

/-- the script of an agent; in the end time passes -/
def toScript (passages : List Passage) (n : Nat) : Cue := (cues passages).getD n .tick

end Passage

def Tells (script : Nat → Cue) (n : Nat) (cues : List Cue) : Prop :=
  ∀ k, script (n + k) = cues.getD k .tick

namespace Tells

variable {x : Cue} {cues : List Cue}

theorem head (h : Tells script n (x :: cues)) : script n = x := h 0

theorem tail (h : Tells script n (x :: cues)) : Tells script (n + 1) cues := fun k => by
  rw [Nat.add_right_comm]
  exact h (k + 1)

theorem ticks {ms : Nat} (h : Tells script n (List.replicate ms .tick ++ cues)) {j : Nat} (hj : j < ms) :
    script (n + j) = .tick := by
  have hlt : j < (List.replicate ms Cue.tick).length := by rwa [List.length_replicate]
  rw [h j, List.getD_eq_getElem?_getD, List.getElem?_append_left hlt, List.getElem?_replicate, if_pos hj]
  rfl

theorem after {ms : Nat} (h : Tells script n (List.replicate ms .tick ++ cues)) :
    Tells script (n + ms) cues := fun k => by
  have hle : (List.replicate ms Cue.tick).length ≤ ms + k := by
    rw [List.length_replicate]
    exact Nat.le_add_right _ _
  rw [Nat.add_assoc, h (ms + k), List.getD_eq_getElem?_getD, List.getElem?_append_right hle,
    List.length_replicate, Nat.add_sub_cancel_left, List.getD_eq_getElem?_getD]

end Tells

variable [ZoneDatabase]
variable {p : Publisher} {s : Session} {c c₀ : Ensemble}

namespace Session.InTime

theorem undergo (hp : p.Steady) (htidy : c₀.Tidy) (passages : List Passage) (h : s.InTime p script c₀ n)
    (hline : s.line = []) (hstays : s.clock.Stays passages)
    (htells : Tells script n (Passage.cuesOn passages)) :
    ∃ n', (s.undergo passages).InTime p script c₀ n' ∧ (s.undergo passages).line = [] ∧
      Tells script n' [.stop] := by
  induction passages generalizing s n with
  | nil => exact ⟨n, h, hline, htells⟩
  | cons x passages ih =>
    obtain ⟨hnow, hstays⟩ := SimClock.stays_cons.1 hstays
    cases x with
    | time ms =>
      rw [Passage.cuesOn_time] at htells
      obtain ⟨hpass, hline, hclock⟩ := h.pass hp htidy hnow hstays.now fun _ => htells.ticks
      exact ih hpass hline (hclock ▸ hstays) htells.after
    | jump ms =>
      rw [Passage.cuesOn_jump] at htells
      exact ih (h.jump hline htells.head) hline hstays htells.tail

theorem shutdown (hp : p.Steady) (htidy : c₀.Tidy) (h : s.InTime p script c₀ n) (hline : s.line = [])
    (htells : Tells script n [.stop]) : ∃ n', c₀.Enacts p script s.shutdown n' := by
  have hstop := h.enacted.cue (hline ▸ h.sound) htells.head fun hmirrors =>
    hmirrors.orderStop h.sound.faithful.sane
  exact hstop.finish hp htidy _ (fares_orderStop hp h.sound).sound s.closing_orderStop htells.tail

end Session.InTime

/-! ## the start -/

theorem Ensemble.atRest_of_idle (h : ∀ pl ∈ c.players, pl.wait = .start) (hqueue : c.channel.queue = [])
    (hhand : c.inHand = none) : c.AtRest where
  players pl hpl := by
    refine ⟨?_, fun r hw => nomatch (h pl hpl).symm.trans hw⟩
    rw [Player.isReady_eq_false_iff]
    rintro ⟨-, due, -, hw⟩
    exact nomatch (h pl hpl).symm.trans hw
  queue := hqueue
  inHand := hhand

namespace Agent

variable (host : Host) (settings : AgentSettings) (accepted : List Accepted) (origin : Moment)
  (store : Option StateStore)

def gather : Ensemble :=
  .gather settings accepted (fun x => (x.behaviour host).callback) origin store

variable (clock : SimClock) (cues : Nat)

theorem mirrors_start (p : Publisher) :
    Session.Mirrors { start host settings accepted origin store p with clock }
      (Ensemble.cue { gather host settings accepted origin store with clock, cues } .start) where
  wake := rfl
  clock := rfl
  store := rfl
  channel := rfl
  forwarder := rfl
  inHand := rfl
  length := by
    rw [Ensemble.cue, gather, Ensemble.gather, start, List.length_map, List.length_map, List.length_map]
  late := List.forall_mem_nil _
  played i t ht := by
    rw [start, List.getElem?_map, Option.map_eq_some_iff] at ht
    obtain ⟨x, hx, rfl⟩ := ht
    refine ⟨_, by
      rw [Ensemble.cue, gather, Ensemble.gather, List.getElem?_map, List.getElem?_map, hx]
      rfl, ?_, .awake List.not_mem_nil rfl (Nat.zero_le _)⟩
    refine ⟨rfl, rfl, rfl, rfl, fun _ now => ?_, fun _ h => Phase.noConfusion h,
      fun _ h => Phase.noConfusion h⟩
    cases store <;> rfl

theorem idle_gather {pl : Player} (hpl : pl ∈ (gather host settings accepted origin store).players) :
    pl.wait = .start ∧ pl.runner.phase = .fresh := by
  obtain ⟨x, -, rfl⟩ := List.mem_map.1 hpl
  exact ⟨rfl, rfl⟩

theorem atRest_gather :
    Ensemble.AtRest { gather host settings accepted origin store with clock, cues } :=
  Ensemble.atRest_of_idle (fun _ hpl => (idle_gather host settings accepted origin store hpl).1) rfl rfl

/-- modules that were not started may as well be told to stop before they are -/
theorem mirrors_stop (p : Publisher) :
    (Session.orderStop { start host settings accepted origin store p with clock }).Mirrors
      (Ensemble.cue (Ensemble.cue { gather host settings accepted origin store with clock, cues } .stop)
        .start) := by
  have hstop := (mirrors_start host settings accepted origin store clock cues p).orderStop
    (sound_start host settings accepted origin store p).faithful.sane
  have hplayers : ∀ pl ∈ (gather host settings accepted origin store).players,
      (pl.cue .stop).cue .start = (pl.cue .start).cue .stop := by
    intro pl hpl
    obtain ⟨hwait, hphase⟩ := idle_gather host settings accepted origin store hpl
    simp [Player.cue, hwait, hphase]
  have hsame : Ensemble.cue (Ensemble.cue { gather host settings accepted origin store with clock, cues } .stop)
        .start =
      Ensemble.cue (Ensemble.cue { gather host settings accepted origin store with clock, cues } .start)
        .stop := by
    simp only [Ensemble.cue, List.map_map]
    congr 1
    exact List.map_congr_left hplayers
  rw [hsame]
  exact hstop

variable {host settings accepted origin store clock cues} {passages : List Passage}

theorem enacts_undergo (hp : p.Steady) (htidy : (gather host settings accepted origin store).Tidy)
    (hscheduled : ∀ x ∈ accepted, x.schedule.cadence.Accepted)
    (hcourse : (gather host settings accepted origin store).Course p script
      { gather host settings accepted origin store with clock, cues })
    (hstays : clock.Stays passages) (htells : Tells script cues (Passage.cues passages)) :
    ∃ n, (gather host settings accepted origin store).Enacts p script
      (Session.undergo { start host settings accepted origin store p with clock } passages).shutdown n := by
  have hsound := fun clock => ((sound_start host settings accepted origin store p).clock clock).sound
  have hrest := atRest_gather host settings accepted origin store clock cues
  induction passages generalizing clock cues with
  | nil =>
    have hrest' :
        (Ensemble.cue { gather host settings accepted origin store with clock, cues } .stop).AtRest := by
      refine Ensemble.atRest_of_idle (fun pl hpl => ?_) rfl rfl
      obtain ⟨pl, hpl', rfl⟩ := List.mem_map.1 hpl
      obtain ⟨hwait, hphase⟩ := idle_gather host settings accepted origin store hpl'
      simp [Player.cue, hwait, hphase]
    have henacts : (gather host settings accepted origin store).Enacts p script
        (Session.orderStop { start host settings accepted origin store p with clock }) (cues + 1 + 1) :=
      ⟨_, (hcourse.cue hrest htells.head).cue hrest' htells.tail.head,
        mirrors_stop host settings accepted origin store clock cues p, rfl⟩
    exact henacts.finish hp htidy _ (Session.fares_orderStop hp (hsound clock)).sound
      (Session.closing_orderStop _) htells.tail.tail
  | cons x passages ih =>
    obtain ⟨hnow, hstays⟩ := SimClock.stays_cons.1 hstays
    cases x with
    | jump ms =>
      have hcue := hcourse.cue hrest htells.head
      rw [Ensemble.cue_eq fun _ => rfl] at hcue
      exact ih hcue hstays htells.tail (atRest_gather host settings accepted origin store _ _)
    | time ms =>
      have hstarted : Session.InTime p script (gather host settings accepted origin store)
          { start host settings accepted origin store p with clock } (cues + 1) := {
        sound := hsound clock
        scheduled := fun t ht => by
          obtain ⟨x, hx, rfl⟩ := List.mem_map.1 ht
          exact hscheduled x hx
        enacted := ⟨_, hcourse.cue hrest htells.head,
          mirrors_start host settings accepted origin store clock cues p, rfl⟩ }
      have htells := htells.tail
      rw [Passage.cuesOn_time] at htells
      obtain ⟨hpass, hline, hclock⟩ := hstarted.pass hp htidy hnow hstays.now fun _ => htells.ticks
      obtain ⟨n, hundergo, hline, hstop⟩ :=
        hpass.undergo hp htidy passages hline (hclock ▸ hstays) htells.after
      exact hundergo.shutdown hp htidy hline hstop

/-- the session that runs an agent is an ensemble at its end -/
theorem enacts_run (host : Host) (settings : AgentSettings) (store : Option StateStore) (hp : p.Steady)
    (hfiles : (accepted.map fun x => fileName x.name).Nodup)
    (hscheduled : ∀ x ∈ accepted, x.schedule.cadence.Accepted)
    (hstays : ({ origin } : SimClock).Stays passages) :
    ∃ c, (gather host settings accepted origin store).Course p (Passage.toScript passages) c ∧
      (run host settings accepted origin store p passages).Mirrors c ∧ c.AtRest ∧
      ∀ name, c.IsOver name := by
  have htidy : (gather host settings accepted origin store).Tidy := .gather _ _ _ _ hfiles
  have htells : Tells (Passage.toScript passages) 0 (Passage.cues passages) := fun k => by
    rw [Nat.zero_add]
    rfl
  have hstart : (gather host settings accepted origin store).Course p (Passage.toScript passages)
      { gather host settings accepted origin store with clock := { origin }, cues := 0 } := .start
  obtain ⟨n, c, hcourse, hmirrors, -⟩ := enacts_undergo hp htidy hscheduled hstart hstays htells
  have hundergo := Session.fares_undergo hp (sound_start host settings accepted origin store p) passages
  obtain ⟨hover, hqueue⟩ := Session.over_shutdown hp hundergo.sound
  obtain ⟨hrest, hplayers⟩ := hmirrors.atRest_of_over
    (Session.fares_shutdown hp hundergo.sound).sound.faithful.sane hover hqueue
  exact ⟨c, hcourse, hmirrors, hrest, fun name pl hpl => hplayers pl (List.mem_of_find?_eq_some hpl)⟩

end Agent

end Rota
