import Mathlib.Algebra.Order.BigOperators.Group.List
import Mathlib.Data.List.Perm.Subperm
import Rota.Proofs.Simulation.Turns

/-!
# A session settles

Runs that take no time follow each other only so often.  After a run that started at the time the clock
reads now, the next slot lies ahead, unless the calendar is at its end.  So no module can start a second
such run before time passes, and a session always comes to the point where nobody is in line.  A task that
is told to stop starts no run at all.

* `Task.zeal`           how eager a task is to go on, and `Task.Takes.calms` that every step makes it less;
* `Session.Keeps`       what no turn changes;
* `Session.stir`        how much is left to do before time passes;
* `Session.work_stir`   a turn makes it less;
* `Session.settled`     **nobody is in line when the session has settled**.
-/

namespace Rota

theorem length_le_of_bounded {l : List Nat} {n : Nat} (hnodup : l.Nodup) (h : ∀ i ∈ l, i < n) :
    l.length ≤ n := by
  have hsub : l ⊆ List.range n := fun i hi => List.mem_range.2 (h i hi)
  have hlength := (List.Nodup.subperm hnodup hsub).length_le
  rwa [List.length_range] at hlength

variable [ZoneDatabase]

theorem Runner.Does.ahead {r r' : Runner} {store store' : Option StateStore} {now : Moment} {ms : Nat}
    {ending : RunEnd} {deeds : List RunnerEvent} {done : Option Run}
    (does : r.Does store (.finish now ms ending) r' store' deeds done) (hnow : now ≠ Moment.last)
    (hc : r.schedule.cadence.Accepted) (hphase : r.phase = .running now) :
    r'.phase = .brokenDown ∨ r'.phase = .waiting ∧ r'.slot.isAfter now = true := by
  cases does with
  | nothing h => exact absurd hphase (h now)
  | collapse => exact .inl rfl
  | strand => exact .inl rfl
  | @goOn _ _ started _ next hphase' hnext =>
    obtain rfl : started = now := Phase.running.inj (hphase'.symm.trans hphase)
    have hlt : started < next := by
      rcases hc.lt_nextAfter (le_refl started) hnext with hlast | hlt
      · rw [hlast]
        exact lt_of_le_of_ne started.le_last_moment hnow
      · exact hlt
    exact .inr ⟨rfl, decide_eq_true hlt⟩

/-! ## tasks -/

namespace Task

variable {t t' : Task} {now : Moment} {next : Next}

/-- a task that is told to stop, or whose next slot lies ahead after a run that started just now -/
def Tame (now : Moment) (t : Task) : Prop :=
  t.runner.stopping = true ∨ now ≠ Moment.last ∧ t.runner.schedule.cadence.Accepted

/-- how eager a task is to go on: for every three it may send a report yet before time passes -/
def zeal (now : Moment) (t : Task) : Nat :=
  match t.runner.phase with
  | .fresh => 5
  | .waiting => if t.runner.stopping = true ∨ t.runner.slot.isAfter now = true then 1 else 4
  | .running started => (if started = now then 2 else 5) + (if t.isSending then 0 else 1)
  | .stopped => 0
  | .brokenDown => 0

theorem zeal_le (t : Task) (now : Moment) : t.zeal now ≤ 6 := by
  unfold zeal
  split <;> (try split_ifs) <;> decide

theorem zeal_of_running {started : Moment} (hphase : t.runner.phase = .running started) :
    t.zeal now = (if started = now then 2 else 5) + (if t.isSending then 0 else 1) := by
  rw [zeal, hphase]

theorem zeal_of_waiting_le (h : t.runner.phase = .waiting) : t.zeal now ≤ 4 := by
  rw [zeal, h]
  dsimp only
  split <;> decide

theorem zeal_of_ahead (h : t.runner.phase = .brokenDown ∨ t.runner.phase = .waiting ∧
    (t.runner.stopping = true ∨ t.runner.slot.isAfter now = true)) : t.zeal now ≤ 1 := by
  rcases h with h | ⟨h, hwaits⟩
  · rw [zeal, h]
    exact Nat.zero_le _
  · rw [zeal, h]
    exact (if_pos hwaits).le

theorem zeal_ended (htame : t.Tame now) {started : Moment} (hphase : t.runner.phase = .running started)
    (store : Option StateStore) (ms : Nat) (ending : RunEnd) :
    (t.ended store now ms ending).zeal now < t.zeal now := by
  have hdoes := t.runner.finish_does store now ms ending
  rw [zeal_of_running hphase]
  by_cases hstarted : started = now
  · subst hstarted
    rw [if_pos rfl]
    have hahead : (t.ended store started ms ending).zeal started ≤ 1 := by
      refine zeal_of_ahead ?_
      rcases htame with hstop | ⟨hnow, hc⟩
      · exact (hdoes.finished hphase).imp_right fun h => ⟨h.1, .inl (hdoes.stopping hstop)⟩
      · exact (hdoes.ahead hnow hc hphase).imp_right fun h => ⟨h.1, .inr h.2⟩
    omega
  · rw [if_neg hstarted]
    have hnext : (t.ended store now ms ending).zeal now ≤ 4 := by
      rcases hdoes.finished hphase with h | ⟨h, -⟩
      · exact (zeal_of_ahead (t := t.ended store now ms ending) (.inl h)).trans (by decide)
      · exact zeal_of_waiting_le (t := t.ended store now ms ending) h
    omega

theorem Takes.tame (h : t.Takes now t' next) (htame : t.Tame now) : t'.Tame now := by
  obtain ⟨hschedule, hstopping⟩ := h.keeps
  exact htame.imp hstopping fun hc => hschedule ▸ hc

/-- a step makes a task less eager, unless it falls asleep or is over; to send a report costs three -/
theorem Takes.calms (h : t.Takes now t' next) (htame : t.Tame now) (hsilent : t.isSending = false) :
    t'.zeal now ≤ t.zeal now ∧ (next = .again → t'.zeal now < t.zeal now) ∧
      ∀ r, next = .send r → t'.zeal now / 3 < t.zeal now / 3 := by
  cases h with
  | begun hphase store =>
    have hzeal : t.zeal now = 5 := by rw [zeal, hphase]
    have hbegun : Task.zeal now { t with runner := (t.runner.begin store now t.saved).runner } ≤ 4 := by
      rcases ((t.runner.begin_does store now t.saved).begun hphase).1 with h | h
      · exact (zeal_of_ahead (.inl h)).trans (by decide)
      · exact zeal_of_waiting_le h
    exact ⟨by omega, fun _ => by omega, nofun⟩
  | waits => exact ⟨le_rfl, nofun, nofun⟩
  | leaves => exact ⟨Nat.zero_le _, nofun, nofun⟩
  | works hphase hstop hdue since hnext =>
    have hzeal : t.zeal now = 4 := by
      rw [zeal, hphase]
      dsimp only
      rw [hstop, hdue]
      rfl
    have hcalling : (t.calling now since).zeal now = 3 := by
      have hphase : (t.calling now since).runner.phase = .running now := rfl
      rw [zeal_of_running hphase, if_pos rfl, calling, hsilent]
      rfl
    refine ⟨by omega, fun _ => by omega, fun r he => ?_⟩
    exact hnext.elim (fun h => nomatch h.symm.trans he) fun ⟨_, h⟩ => nomatch h.symm.trans he
  | @reports started hphase r hplan =>
    have hsending : t.sending.zeal now = if started = now then 2 else 5 :=
      zeal_of_running (t := t.sending) hphase
    rw [hsending, zeal_of_running hphase, hsilent]
    exact ⟨by split <;> decide, nofun, fun _ _ => by split <;> decide⟩
  | ends hphase hplan store ms =>
    have hended := zeal_ended htame hphase store ms t.plan.ending
    exact ⟨hended.le, fun _ => hended, nofun⟩
  | rests => exact ⟨le_rfl, nofun, nofun⟩

end Task

namespace Session

variable {p : Publisher} {s s' s'' : Session} {i : Nat} {t : Task} {line : List Job}

/-! ## what no turn changes -/

def Closing (s : Session) : Prop := ∀ t ∈ s.tasks, t.runner.stopping = true

def Scheduled (s : Session) : Prop := ∀ t ∈ s.tasks, t.runner.schedule.cadence.Accepted

/-- turns take no time, they change no schedule and take back no order to stop; and whoever is told to
stop does not fall asleep -/
structure Keeps (s s' : Session) : Prop where
  clock : s'.clock = s.clock
  tasks : ∀ t' ∈ s'.tasks, ∃ t ∈ s.tasks, t'.runner.schedule = t.runner.schedule ∧
    (t.runner.stopping = true → t'.runner.stopping = true)
  sleepers : s.Closing → s'.sleepers = s.sleepers

namespace Keeps

theorem of_eq (hclock : s'.clock = s.clock) (htasks : s'.tasks = s.tasks)
    (hsleepers : s'.sleepers = s.sleepers) : Keeps s s' :=
  ⟨hclock, fun t ht => ⟨t, htasks ▸ ht, rfl, id⟩, fun _ => hsleepers⟩

theorem refl (s : Session) : Keeps s s := .of_eq rfl rfl rfl

theorem closing (h : Keeps s s') (hclosing : s.Closing) : s'.Closing := fun t' ht' => by
  obtain ⟨t, ht, -, hstop⟩ := h.tasks t' ht'
  exact hstop (hclosing t ht)

theorem scheduled (h : Keeps s s') (hs : s.Scheduled) : s'.Scheduled := fun t' ht' => by
  obtain ⟨t, ht, hschedule, -⟩ := h.tasks t' ht'
  exact hschedule ▸ hs t ht

theorem trans (h : Keeps s s') (h' : Keeps s' s'') : Keeps s s'' where
  clock := h'.clock.trans h.clock
  tasks t'' ht'' := by
    obtain ⟨t', ht', hschedule', hstop'⟩ := h'.tasks t'' ht''
    obtain ⟨t, ht, hschedule, hstop⟩ := h.tasks t' ht'
    exact ⟨t, ht, hschedule'.trans hschedule, hstop' ∘ hstop⟩
  sleepers hclosing := (h'.sleepers (h.closing hclosing)).trans (h.sleepers hclosing)

theorem record (ht : s.tasks[i]? = some t) {turn : TaskTurn}
    (hturn : turn.task.runner.schedule = t.runner.schedule ∧
      (t.runner.stopping = true → turn.task.runner.stopping = true)) : Keeps s (s.record i turn) where
  clock := rfl
  tasks t' ht' := (List.mem_or_eq_of_mem_set ht').elim (fun h => ⟨t', h, rfl, id⟩) fun he =>
    ⟨t, List.mem_of_getElem? ht, he ▸ hturn⟩
  sleepers _ := rfl

end Keeps

theorem keeps_answer (s : Session) (i : Nat) (sent : Bool) : Keeps s (s.answer i sent) := by
  unfold answer
  split
  case h_1 => exact .refl s
  case h_2 t ht =>
    have hdoes := t.runner.finish_does s.store s.clock.now (s.clock.elapsed - t.since)
      (t.plan.endingAfter sent)
    exact .record ht ⟨hdoes.schedule, hdoes.stopping⟩

theorem keeps_letIn (s : Session) (i : Nat) (channel : Channel) : Keeps s (s.letIn i channel) := by
  obtain ⟨line, hcall, -⟩ := exists_call { s with channel } .forwarder
  rw [letIn, hcall]
  have hcalled : Keeps s { s with channel, line } := .of_eq rfl rfl rfl
  exact hcalled.trans (keeps_answer _ i true)

theorem keeps_act (fuel : Nat) (s : Session) (i : Nat) : Keeps s (act fuel s i) := by
  induction fuel generalizing s with
  | zero =>
    obtain ⟨line, hcall, -⟩ := s.exists_call (.task i)
    rw [act, hcall]
    exact .of_eq rfl rfl rfl
  | succ fuel ih =>
    rw [act]
    split
    case h_1 => exact .refl s
    case h_2 t ht =>
      have htakes := t.turn_takes s.wake s.clock s.store
      have hrecord : Keeps s (s.record i (t.turn s.wake s.clock s.store)) := .record ht htakes.keeps
      dsimp only
      cases hnext : (t.turn s.wake s.clock s.store).next with
      | again => exact hrecord.trans (ih _)
      | sleep ms =>
        exact ⟨rfl, hrecord.tasks, fun hclosing =>
          absurd hnext (htakes.awake (hclosing t (List.mem_of_getElem? ht)) ms)⟩
      | send r =>
        dsimp only
        split
        case h_1 => exact (hrecord.trans (keeps_answer _ i false)).trans (ih _)
        case h_2 channel _ => exact (hrecord.trans (keeps_letIn _ i channel)).trans (ih _)
        case h_3 => exact hrecord.trans (.of_eq rfl rfl rfl)
      | _ => exact hrecord

theorem keeps_takeTurn (s : Session) (i : Nat) : Keeps s (s.takeTurn i) := by
  unfold takeTurn
  split
  case isFalse => exact keeps_act _ s i
  case isTrue =>
    split
    case h_1 channel _ => exact (keeps_letIn s i channel).trans (keeps_act _ _ i)
    case h_2 =>
      split
      case isTrue => exact .refl s
      case isFalse => exact (keeps_answer s i false).trans (keeps_act _ _ i)

/-! ## what is left to do -/

/-- how many turns are left: one for each job in line, and more for whoever will be called -/
def load (s : Session) (line : List Job) : Nat :=
  line.length + 2 * s.channel.granted.length + 4 * s.channel.waiting.length

/-- how many reports may be sent yet before time passes -/
def eager (s : Session) : Nat := (s.tasks.map fun t => t.zeal s.clock.now / 3).sum

/-- how much is left to do before time passes: a report that is sent brings five turns at most -/
def stir (s : Session) (line : List Job) : Nat := s.load line + 5 * s.eager

theorem eager_record (ht : s.tasks[i]? = some t) (turn : TaskTurn) :
    (s.record i turn).eager + t.zeal s.clock.now / 3 =
      s.eager + turn.task.zeal s.clock.now / 3 := by
  obtain ⟨hi, rfl⟩ := List.getElem?_eq_some_iff.1 ht
  have hbefore := List.sum_take_add_sum_drop (s.tasks.map fun t => t.zeal s.clock.now / 3) i
  have hafter := List.sum_set (s.tasks.map fun t => t.zeal s.clock.now / 3) i
    (turn.task.zeal s.clock.now / 3)
  rw [if_pos (by rwa [List.length_map]), ← List.map_set] at hafter
  rw [List.drop_eq_getElem_cons (by rwa [List.length_map]), List.sum_cons, List.getElem_map] at hbefore
  rw [eager, eager, ← hbefore]
  refine (congrArg (· + _) hafter).trans ?_
  omega

theorem stir_record (ht : s.tasks[i]? = some t) {turn : TaskTurn}
    (hle : turn.task.zeal s.clock.now ≤ t.zeal s.clock.now) (line : List Job) :
    (s.record i turn).stir line ≤ s.stir line := by
  have heager := eager_record ht turn
  have hdiv := Nat.div_le_div_right (c := 3) hle
  have hload : (s.record i turn).load line = s.load line := rfl
  rw [stir, stir, hload]
  omega

theorem stir_record_of_send (ht : s.tasks[i]? = some t) {turn : TaskTurn}
    (hlt : turn.task.zeal s.clock.now / 3 < t.zeal s.clock.now / 3) (line : List Job) :
    (s.record i turn).stir line + 5 ≤ s.stir line := by
  have heager := eager_record ht turn
  have hload : (s.record i turn).load line = s.load line := rfl
  rw [stir, stir, hload]
  omega

theorem stir_await (s : Session) (w : Nat × Report) (line : List Job) :
    stir { s with channel := { s.channel with waiting := s.channel.waiting ++ [w] } } line =
      s.stir line + 4 := by
  have heager : eager { s with channel := { s.channel with waiting := s.channel.waiting ++ [w] } } =
      s.eager := rfl
  simp only [stir, load, heager, List.length_append, List.length_singleton]
  omega

/-- a report entered and the run of its sender ended, which made it less eager -/
structure LetsIn (s : Session) (i : Nat) (t : Task) (channel : Channel) (s' : Session) : Prop where
  entered : s'.channel = channel
  task : ∃ t', s'.tasks[i]? = some t' ∧ t'.isSending = false ∧ t'.Tame s.clock.now ∧
    t'.zeal s.clock.now < t.zeal s.clock.now
  stir_le : s'.stir s'.line ≤ stir { s with channel } s.line + 1

theorem letsIn (ht : s.tasks[i]? = some t) (htame : t.Tame s.clock.now) {started : Moment}
    (hphase : t.runner.phase = .running started) (channel : Channel) :
    LetsIn s i t channel (s.letIn i channel) := by
  obtain ⟨line, hjoined, hletIn⟩ := exists_letIn ht channel
  have hdoes := t.runner.finish_does s.store s.clock.now (s.clock.elapsed - t.since)
    (t.plan.endingAfter true)
  have htame' : (t.answer s.clock s.store true).task.Tame s.clock.now :=
    htame.imp hdoes.stopping fun hc => ⟨hc.1, hdoes.schedule ▸ hc.2⟩
  have hless : (t.answer s.clock s.store true).task.zeal s.clock.now < t.zeal s.clock.now :=
    Task.zeal_ended htame hphase _ _ _
  have hstir := stir_record (s := { s with channel, line }) ht hless.le line
  rw [hletIn]
  refine ⟨rfl, ⟨_, task_record (s := { s with channel, line }) ht _, rfl, htame', hless⟩,
    hstir.trans ?_⟩
  have hline : line.length ≤ s.line.length + 1 := hjoined.length_le
  have heager : eager { s with channel, line } = eager { s with channel } := rfl
  simp only [stir, load, heager]
  omega

/-! ## turns -/

theorem act_stir (fuel : Nat) (hopen : s.channel.isOpen = true) (ht : s.tasks[i]? = some t)
    (htame : t.Tame s.clock.now) (hsilent : t.isSending = false) (hfuel : t.zeal s.clock.now < fuel) :
    (act fuel s i).stir (act fuel s i).line ≤ s.stir s.line := by
  induction fuel generalizing s t with
  | zero => exact absurd hfuel (Nat.not_lt_zero _)
  | succ fuel ih =>
    rw [act, ht]
    dsimp only
    have htakes := t.turn_takes s.wake s.clock s.store
    obtain ⟨hle, hagain, hsends⟩ := htakes.calms htame hsilent
    generalize t.turn s.wake s.clock s.store = turn at htakes hle hagain hsends ⊢
    have hrecorded := task_record ht turn
    have hstir := stir_record ht hle s.line
    cases hnext : turn.next with
    | again =>
      rw [hnext] at htakes
      refine (ih (s := s.record i turn) hopen hrecorded (htakes.tame htame)
        (htakes.silent hsilent fun _ => Next.noConfusion) ?_).trans hstir
      exact Nat.lt_of_lt_of_le (hagain hnext) (Nat.le_of_lt_succ hfuel)
    | sleep ms => exact hstir
    | send r =>
      rw [hnext] at htakes
      obtain ⟨hturn, ⟨started, hphase⟩, -⟩ := htakes.sends
      have hstir := stir_record_of_send ht (hsends r hnext) s.line
      dsimp only
      split
      case h_1 hsend => exact absurd hsend (Channel.send_ne_closed hopen)
      case h_2 channel hsend =>
        have hrunning : turn.task.runner.phase = .running started := by rw [hturn]; exact hphase
        obtain ⟨hchannel, ⟨t', ht', hsilent', htame', hless⟩, hletIn⟩ :=
          letsIn hrecorded (htakes.tame htame) hrunning channel
        have hclock := (keeps_letIn (s.record i turn) i channel).clock
        have hentered := Channel.of_send_accepted hsend
        change (act fuel ((s.record i turn).letIn i channel) i).stir _ ≤ _
        refine (ih ?_ ht' (hclock.symm ▸ htame') hsilent' ?_).trans (hletIn.trans ?_)
        · rw [hchannel, hentered]
          exact hopen
        · rw [hclock]
          exact hless.trans_le (hle.trans (Nat.le_of_lt_succ hfuel))
        · have hsame : stir { s.record i turn with channel } s.line = (s.record i turn).stir s.line := by
            rw [hentered]
            rfl
          rw [← hsame] at hstir
          exact (Nat.add_le_add_left (by decide) _).trans hstir
      case h_3 channel hsend =>
        obtain ⟨-, rfl⟩ := Channel.of_send_waits hsend
        exact (stir_await (s.record i turn) (i, r) s.line).le.trans
          ((Nat.add_le_add_left (by decide) _).trans hstir)
    | _ => exact hstir

def Tame (s : Session) : Prop := ∀ t ∈ s.tasks, t.Tame s.clock.now

theorem Closing.tame (h : s.Closing) : s.Tame := fun t ht => .inl (h t ht)

theorem Scheduled.tame (h : s.Scheduled) (hnow : s.clock.now ≠ Moment.last) : s.Tame := fun t ht =>
  .inr ⟨hnow, h t ht⟩

theorem Keeps.tame (h : Keeps s s') (hs : s.Tame) : s'.Tame := fun t' ht' => by
  obtain ⟨t, ht, hschedule, hstop⟩ := h.tasks t' ht'
  rw [h.clock]
  exact (hs t ht).imp hstop fun hc => ⟨hc.1, hschedule ▸ hc.2⟩

/-- the turn of a task leaves less to do -/
theorem takeTurn_stir (h : s.Sound p (.task i :: s.line)) (hs : s.Tame) :
    (s.takeTurn i).stir (s.takeTurn i).line ≤ s.stir s.line := by
  obtain ⟨t, ht⟩ := h.placed.exists_task List.mem_cons_self
  have htame := hs t (List.mem_of_getElem? ht)
  have hopen : s.channel.isOpen = true := h.faithful.places.isOpen
  have hzeal : ∀ t : Task, t.zeal s.clock.now < actFuel := fun t =>
    Nat.lt_of_le_of_lt (t.zeal_le _) (by decide)
  have hsending := isSending_of_task ht
  unfold takeTurn
  cases hsilent : t.isSending with
  | false =>
    rw [hsending, hsilent, if_neg Bool.false_ne_true]
    exact act_stir actFuel hopen ht htame hsilent (hzeal t)
  | true =>
    rw [hsending, hsilent, if_pos rfl]
    split
    case h_2 =>
      rw [if_pos hopen]
    case h_1 channel henter =>
      -- the sender gives its place up, and calls the forwarder at most
      obtain ⟨started, -, hphase, -⟩ := (h.faithful.sane_of ht).report hsilent
      obtain ⟨hentered, ⟨t', ht', hsilent', htame', -⟩, hstir⟩ := letsIn ht htame hphase channel
      have hclock := (keeps_letIn s i channel).clock
      obtain ⟨r, hgranted, hchannel⟩ := Channel.of_enter? henter
      have hless : channel.granted.length < s.channel.granted.length := by
        rw [hchannel]
        exact List.length_filter_lt_length_iff_exists.2 ⟨(i, r), hgranted, by simp⟩
      have hwaiting : channel.waiting = s.channel.waiting := by rw [hchannel]
      have hbefore : stir { s with channel } s.line + 1 ≤ s.stir s.line := by
        have heager : eager { s with channel } = s.eager := rfl
        simp only [stir, load, heager, hwaiting]
        omega
      refine (act_stir actFuel ?_ ht' (hclock.symm ▸ htame') hsilent' ?_).trans (hstir.trans hbefore)
      · rw [hentered, hchannel]
        exact hopen
      · rw [hclock]
        exact hzeal t'

theorem exists_drain (hp : p.Steady) (fuel : Nat) (hpublisher : s.publisher = p) :
    ∃ channel line forwarder events,
      drain fuel s = { s with channel, line, forwarder, events } ∧
        (drain fuel s).load (drain fuel s).line ≤ s.load s.line := by
  induction fuel generalizing s with
  | zero => exact ⟨_, _, _, _, rfl, le_rfl⟩
  | succ fuel ih =>
    rw [drain]
    split
    case h_2 => exact ⟨_, _, _, _, rfl, le_rfl⟩
    case h_1 r channel w hreceive =>
      obtain ⟨line, hcalls, hjoined⟩ := exists_callTasks { s with channel } w.toList
      obtain ⟨events, hforward⟩ := forward_eq (s := { s with channel, line }) hp hpublisher r
      rw [hcalls]
      change ∃ _ _ _ _, drain fuel (forward { s with channel, line } r) = _ ∧ _
      rw [hforward]
      obtain ⟨channel', line', forwarder', events', hdrain, hload⟩ := ih (s := { s with
        channel, line, forwarder := (s.forwarder.hand p r).1, events }) hpublisher
      refine ⟨channel', line', forwarder', events', hdrain, hload.trans ?_⟩
      have hline := hjoined.length_le
      obtain ⟨rest, -, ⟨-, rfl, rfl⟩ | ⟨g, later, hwaiting, rfl, rfl⟩⟩ :=
        Channel.of_receive? hreceive
      · simpa [load] using hline
      · simp only [load, hwaiting, List.length_append, List.length_cons, List.length_nil,
          Option.toList, List.map_cons, List.map_nil] at hline ⊢
        omega

theorem keeps_work (hp : p.Steady) {j : Job} (h : s.Sound p (j :: s.line)) : Keeps s (s.work j) := by
  cases j with
  | task i => exact keeps_takeTurn s i
  | forwarder =>
    obtain ⟨_, _, _, _, hdrain, -⟩ := exists_drain hp s.channel.queue.length h.faithful.publisher
    rw [work, hdrain]
    exact .of_eq rfl rfl rfl

theorem work_stir (hp : p.Steady) {j : Job} (h : s.Sound p (j :: s.line)) (hs : s.Tame) :
    (s.work j).stir (s.work j).line ≤ s.stir s.line := by
  cases j with
  | task i => exact takeTurn_stir h hs
  | forwarder =>
    obtain ⟨_, _, _, _, hdrain, hload⟩ := exists_drain hp s.channel.queue.length h.faithful.publisher
    have heager : (drain s.channel.queue.length s).eager = s.eager := by
      rw [hdrain]
      rfl
    rw [work, stir, stir, heager]
    exact Nat.add_le_add_right hload _

/-! ## turn after turn -/

theorem keeps_settle (hp : p.Steady) (fuel : Nat) (h : s.Sound p s.line) : Keeps s (settle fuel s) := by
  induction fuel generalizing s with
  | zero => exact .refl s
  | succ fuel ih =>
    rw [settle]
    split
    case h_1 => exact .refl s
    case h_2 j line hline =>
      have hnext := h.next hline
      have hquiet : Keeps s { s with line } := .of_eq rfl rfl rfl
      exact hquiet.trans ((keeps_work hp hnext).trans (ih (fares_work hp hnext).sound))

theorem settle_line (hp : p.Steady) (fuel : Nat) (h : s.Sound p s.line) (hs : s.Tame)
    (hfuel : s.stir s.line ≤ fuel) : (settle fuel s).line = [] := by
  induction fuel generalizing s with
  | zero =>
    rw [stir, load] at hfuel
    exact List.length_eq_zero_iff.1 (show s.line.length = 0 by omega)
  | succ fuel ih =>
    rw [settle]
    split
    case h_1 hline => exact hline
    case h_2 j line hline =>
      have hnext := h.next hline
      have hstir := work_stir (s := { s with line }) hp hnext hs
      have hless : stir { s with line } line + 1 ≤ s.stir s.line := by
        have heager : eager { s with line } = s.eager := rfl
        simp only [stir, load, heager, hline, List.length_cons]
        omega
      exact ih (fares_work hp hnext).sound ((keeps_work hp hnext).tame hs)
        (hstir.trans (Nat.le_of_succ_le_succ (hless.trans hfuel)))

/-! ## enough turns -/

theorem Sound.load_le (h : s.Sound p s.line) : s.load s.line ≤ 5 * s.tasks.length + 1 := by
  have hline : s.line.length ≤ s.tasks.length + 1 := by
    have hsub : s.line ⊆ .forwarder :: (List.range s.tasks.length).map .task := fun j hj => by
      cases j with
      | forwarder => exact List.mem_cons_self
      | task i =>
        exact List.mem_cons_of_mem _
          (List.mem_map.2 ⟨i, List.mem_range.2 (h.placed.bounded i hj), rfl⟩)
    have hlength := (List.Nodup.subperm h.placed.nodup hsub).length_le
    rwa [List.length_cons, List.length_map, List.length_range] at hlength
  have hheld : (s.channel.held.map (·.1)).length ≤ s.tasks.length := by
    refine length_le_of_bounded h.faithful.places.nodup fun i hi => ?_
    obtain ⟨g, hg, rfl⟩ := List.mem_map.1 hi
    obtain ⟨t, ht, -⟩ := h.faithful.sending_of_held hg
    exact (List.getElem?_eq_some_iff.1 ht).1
  rw [List.length_map, Channel.held, List.length_append] at hheld
  rw [load]
  omega

theorem eager_le (s : Session) : s.eager ≤ s.tasks.length * 2 := by
  have h := List.sum_le_card_nsmul (s.tasks.map fun t => t.zeal s.clock.now / 3) 2 fun n hn => by
    obtain ⟨t, -, rfl⟩ := List.mem_map.1 hn
    have hzeal := t.zeal_le s.clock.now
    omega
  rw [List.length_map] at h
  exact h

theorem settled (hp : p.Steady) (h : s.Sound p s.line) (hs : s.Tame) :
    (settle s.settleFuel s).line = [] := by
  refine settle_line hp _ h hs ?_
  have hload := h.load_le
  have heager := s.eager_le
  rw [stir, settleFuel]
  omega

end Session

end Rota
