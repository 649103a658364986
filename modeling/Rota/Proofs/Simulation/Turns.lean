import Rota.Proofs.Simulation.Crew

/-!
# Every step of a session is one of a crew

Turn after turn a session does what a crew may do, and everybody stays in a place of theirs.

* `Session.Sound`   the books are in order and everybody is somewhere;
* `Session.Fares`   a session goes on to a sound one by moves of its crew;
* `Session.fares_act`, `fares_takeTurn`, `fares_drain`, `fares_settle`   turns;
* `Session.fares_pass`, `fares_jump`, `fares_orderStop`, `fares_shutdown`   time, and the end.
-/

namespace Rota.Session

variable [ZoneDatabase]
variable {p : Publisher} {s s' s'' : Session} {line line' : List Job} {i : Nat} {t : Task}

/-- a session in which the books are in order and everybody is somewhere -/
structure Sound (p : Publisher) (s : Session) (line : List Job) : Prop where
  faithful : s.Faithful p
  placed : s.Placed line

theorem Sound.next {j : Job} (h : s.Sound p s.line) (hline : s.line = j :: line) :
    Sound p { s with line } (j :: line) where
  faithful := ⟨h.faithful.publisher, h.faithful.unbroken, h.faithful.sane, h.faithful.places⟩
  placed := hline ▸ h.placed.congr rfl rfl rfl

/-- a session goes on to a sound one by moves of its crew -/
structure Fares (p : Publisher) (s s' : Session) : Prop where
  leads : Leads p s s'
  sound : s'.Sound p s'.line

theorem Fares.refl (h : s.Sound p s.line) : Fares p s s := ⟨.of_eq rfl, h⟩

theorem Fares.after (h : Fares p s' s'') (hleads : Leads p s s') : Fares p s s'' :=
  ⟨hleads.trans h.leads, h.sound⟩

theorem Faithful.congr (h : s.Faithful p) (hpublisher : s'.publisher = s.publisher)
    (hbroken : s'.isBroken = s.isBroken) (htasks : s'.tasks = s.tasks) (hcrew : s'.crew = s.crew) :
    s'.Faithful p where
  publisher := hpublisher.trans h.publisher
  unbroken := hbroken.trans h.unbroken
  sane := by rw [htasks]; exact h.sane
  places := by rw [hcrew]; exact h.places

/-! ## the turn of a task -/

theorem isSending_of_task (ht : s.tasks[i]? = some t) : s.isSending i = t.isSending := by
  rw [isSending, ht]
  rfl

theorem Placed.exists_task (h : s.Placed line) (hi : .task i ∈ line) : ∃ t, s.tasks[i]? = some t :=
  ⟨_, List.getElem?_eq_getElem (h.bounded i hi)⟩

theorem Placed.letIn (h : s.Placed (.task i :: s.line)) (ht : s.tasks[i]? = some t) (r : Report)
    {granted : List (Nat × Report)} (hgranted : granted ⊆ s.channel.granted) {channel : Channel}
    (hchannel : channel = { s.channel with granted, queue := s.channel.queue ++ [r] }) :
    (s.letIn i channel).Placed (.task i :: (s.letIn i channel).line) ∧
      (s.letIn i channel).isSending i = false := by
  obtain ⟨line, hjoined, hletIn⟩ := exists_letIn ht channel
  subst hchannel
  rw [hletIn]
  constructor
  · have hcalled := h.callForwarder (hjoined.cons (by simp))
    have hpush := hcalled.push ((hjoined.cons (by simp)).mem _ |>.2 (.inr (List.mem_singleton.2 rfl))) r
      hgranted
    have hline : Placed { s with channel := _, line } (.task i :: line) := hpush.congr rfl rfl rfl
    exact hline.record List.mem_cons_self _
  · exact isSending_of_task (task_record (s := { s with channel := _, line }) ht _)

theorem fares_act (hp : p.Steady) (fuel : Nat) (h : s.Sound p (.task i :: s.line))
    (hsilent : s.isSending i = false) : Fares p s (act fuel s i) := by
  induction fuel generalizing s with
  | zero =>
    obtain ⟨line, hcall, hjoined⟩ := s.exists_call (.task i)
    rw [act, hcall]
    refine ⟨.of_eq rfl, h.faithful.congr rfl rfl rfl rfl, ?_⟩
    refine (h.placed.relabel (fun j => ?_) (hjoined.nodup (List.nodup_cons.1 h.placed.nodup).2)).congr
      rfl rfl rfl
    rw [hjoined.mem, List.mem_singleton, List.mem_cons, or_comm]
  | succ fuel ih =>
    obtain ⟨t, ht⟩ := h.placed.exists_task List.mem_cons_self
    rw [isSending_of_task ht] at hsilent
    rw [act, ht]
    dsimp only
    have htakes := t.turn_takes s.wake s.clock s.store
    have hfree : ∀ g ∈ s.channel.granted, g.1 ≠ i := fun g hg =>
      h.faithful.free_of_silent ht hsilent g (List.mem_append_left _ hg)
    generalize t.turn s.wake s.clock s.store = turn at htakes ⊢
    have hrecorded := task_record ht turn
    have hplaced := h.placed.record List.mem_cons_self turn
    obtain ⟨task, store, events, next⟩ := turn
    cases next with
    | again =>
      obtain ⟨hleads, hfaithful⟩ := h.faithful.silentTurn hp ht hsilent htakes fun _ => Next.noConfusion
      refine (ih ⟨hfaithful, hplaced⟩ ?_).after hleads
      rw [isSending_of_task hrecorded]
      exact htakes.silent hsilent fun _ => Next.noConfusion
    | sleep ms =>
      obtain ⟨hleads, hfaithful⟩ := h.faithful.silentTurn hp ht hsilent htakes fun _ => Next.noConfusion
      refine ⟨hleads.trans (.of_eq rfl), hfaithful.congr rfl rfl rfl rfl, ?_⟩
      exact hplaced.sleep hrecorded (htakes.silent hsilent fun _ => Next.noConfusion) hfree _
    | send r =>
      have hopen := h.faithful.places.isOpen
      dsimp only
      split
      case h_1 hsend => exact absurd hsend (Channel.send_ne_closed hopen)
      case h_2 channel hsend =>
        obtain ⟨hleads, hfaithful⟩ := h.faithful.accept hp ht hsilent htakes hsend
        obtain ⟨hplaced', hsilent⟩ :=
          hplaced.letIn hrecorded r (List.Subset.refl _) (Channel.of_send_accepted hsend)
        exact (ih ⟨hfaithful, hplaced'⟩ hsilent).after hleads
      case h_3 channel hsend =>
        obtain ⟨hleads, hfaithful⟩ := h.faithful.wait hp ht hsilent htakes hsend
        obtain ⟨hroom, rfl⟩ := Channel.of_send_waits hsend
        refine ⟨hleads, hfaithful, (hplaced.await hroom (i, r)).leave hfree fun t' ht' => ?_⟩
        have he := hrecorded.symm.trans ht'
        have hsending : task.isSending = true := congrArg Task.isSending htakes.sends.1
        exact .inr (Option.some.inj he ▸ hsending)
    | _ =>
      obtain ⟨hleads, hfaithful⟩ := h.faithful.silentTurn hp ht hsilent htakes fun _ => Next.noConfusion
      refine ⟨hleads, hfaithful, hplaced.leave hfree fun t ht => ?_⟩
      rw [hrecorded] at ht
      exact .inl (Option.some.inj ht ▸ htakes.isOver)

theorem fares_takeTurn (hp : p.Steady) (h : s.Sound p (.task i :: s.line)) :
    Fares p s (s.takeTurn i) := by
  unfold takeTurn
  cases hsending : s.isSending i with
  | false => exact fares_act hp actFuel h hsending
  | true =>
    obtain ⟨t, ht⟩ := h.placed.exists_task List.mem_cons_self
    rw [isSending_of_task ht] at hsending
    rw [if_pos rfl]
    split
    case h_1 channel henter =>
      obtain ⟨hleads, hfaithful⟩ := h.faithful.enter hp ht hsending henter
      obtain ⟨r, -, hchannel⟩ := Channel.of_enter? henter
      obtain ⟨hplaced', hsilent⟩ := h.placed.letIn ht r List.filter_sublist.subset hchannel
      exact (fares_act hp actFuel ⟨hfaithful, hplaced'⟩ hsilent).after hleads
    case h_2 henter =>
      have hopen : s.channel.isOpen = true := h.faithful.places.isOpen
      rw [if_pos hopen]
      refine ⟨.of_eq rfl, h.faithful, h.placed.leave (fun g hg he => ?_) fun t' ht' => ?_⟩
      · obtain ⟨channel, hsome⟩ := Channel.enter?_isSome (List.mem_map.2 ⟨g, hg, he⟩)
        exact nomatch henter.symm.trans hsome
      · rw [ht] at ht'
        exact .inr (Option.some.inj ht' ▸ hsending)

/-! ## the turn of the forwarder -/

theorem fares_drain (hp : p.Steady) (fuel : Nat) (h : s.Sound p (.forwarder :: s.line))
    (hfuel : s.channel.queue.length ≤ fuel) : Fares p s (drain fuel s) := by
  induction fuel generalizing s with
  | zero =>
    exact ⟨.of_eq rfl, h.faithful, h.placed.leaveForwarder (List.length_eq_zero_iff.1 (by omega))⟩
  | succ fuel ih =>
    rw [drain]
    split
    case h_2 hreceive =>
      refine ⟨.of_eq rfl, h.faithful, h.placed.leaveForwarder ?_⟩
      unfold Channel.receive? at hreceive
      split at hreceive
      case h_1 hqueue => exact hqueue
      case h_2 => exact nomatch hreceive
    case h_1 r channel w hreceive =>
      obtain ⟨line, hcalls, hjoined⟩ := exists_callTasks { s with channel } w.toList
      rw [hcalls]
      obtain ⟨hleads, hfaithful⟩ := h.faithful.forward hp hreceive line
      have hplaced := h.placed.receive List.mem_cons_self hreceive
        (fun g hg => h.faithful.sending_of_held (List.mem_append_right _ hg))
        (hjoined.cons (by simp))
      obtain ⟨events, hforward⟩ := forward_eq (s := { s with channel, line }) hp h.faithful.publisher r
      change Leads p s (Session.forward { s with channel, line } r) at hleads
      refine (ih ⟨hfaithful, ?_⟩ ?_).after hleads
      · rw [hforward]
        exact hplaced.congr rfl rfl rfl
      · rw [hforward]
        rw [Channel.queue_of_receive? hreceive, List.length_cons] at hfuel
        exact Nat.le_of_succ_le_succ hfuel

/-! ## turn after turn -/

theorem fares_work (hp : p.Steady) {j : Job} (h : s.Sound p (j :: s.line)) : Fares p s (s.work j) := by
  cases j with
  | task i => exact fares_takeTurn hp h
  | forwarder => exact fares_drain hp _ h le_rfl

theorem fares_settle (hp : p.Steady) (fuel : Nat) (h : s.Sound p s.line) :
    Fares p s (settle fuel s) := by
  induction fuel generalizing s with
  | zero => exact .refl h
  | succ fuel ih =>
    rw [settle]
    split
    case h_1 => exact .refl h
    case h_2 j line hline =>
      have hwork := fares_work hp (h.next hline)
      exact (ih hwork.sound).after ((Leads.of_eq rfl).trans hwork.leads)

/-! ## time -/

/-- some of those that sleep wake up, and nothing else happens but that time passes -/
theorem Sound.wake (h : s.Sound p s.line) (q : Sleeper → Bool) (clock : SimClock) :
    Fares p s
      (callTasks { s with clock, sleepers := s.sleepers.filter fun z => !q z }
        ((s.sleepers.filter q).map Sleeper.task)) := by
  obtain ⟨line, hcalls, hjoined⟩ := exists_callTasks
    { s with clock, sleepers := s.sleepers.filter fun z => !q z } ((s.sleepers.filter q).map Sleeper.task)
  rw [hcalls]
  exact ⟨.of_eq rfl, h.faithful.congr rfl rfl rfl rfl, (h.placed.wake hjoined).congr rfl rfl rfl⟩

theorem wakeAt_eq (s : Session) (elapsed : Nat) :
    s.wakeAt elapsed =
      callTasks
        { s with
          clock := { s.clock with elapsed }
          sleepers := s.sleepers.filter fun z => !decide (z.due ≤ elapsed) }
        ((s.sleepers.filter fun z => decide (z.due ≤ elapsed)).map Sleeper.task) := by
  rw [wakeAt, List.partition_eq_filter_filter]
  rfl

theorem exists_wakeAt (s : Session) (elapsed : Nat) :
    ∃ line, s.wakeAt elapsed =
      { s with
        clock := { s.clock with elapsed }
        sleepers := s.sleepers.filter fun z => !decide (z.due ≤ elapsed)
        line } := by
  rw [wakeAt_eq]
  obtain ⟨line, hcalls, -⟩ := exists_callTasks { s with
      clock := { s.clock with elapsed }
      sleepers := s.sleepers.filter fun z => !decide (z.due ≤ elapsed) }
    ((s.sleepers.filter fun z => decide (z.due ≤ elapsed)).map Sleeper.task)
  exact ⟨line, hcalls⟩

theorem fares_wakeAt (h : s.Sound p s.line) (elapsed : Nat) : Fares p s (s.wakeAt elapsed) := by
  rw [wakeAt_eq]
  exact h.wake _ _

theorem Sound.clock (h : s.Sound p s.line) (clock : SimClock) : Fares p s { s with clock } :=
  ⟨.of_eq rfl, h.faithful.congr rfl rfl rfl rfl, h.placed.congr rfl rfl rfl⟩

theorem fares_runTo (hp : p.Steady) (target fuel : Nat) (h : s.Sound p s.line) :
    Fares p s (runTo target fuel s) := by
  induction fuel generalizing s with
  | zero => exact h.clock _
  | succ fuel ih =>
    have hsettle := fares_settle hp s.settleFuel h
    rw [runTo]
    dsimp only
    split
    case h_1 due _ =>
      split
      case isTrue =>
        have hwake := fares_wakeAt hsettle.sound (max (settle s.settleFuel s).clock.elapsed due)
        exact ((ih hwake.sound).after hwake.leads).after hsettle.leads
      case isFalse => exact (hsettle.sound.clock _).after hsettle.leads
    case h_2 => exact (hsettle.sound.clock _).after hsettle.leads

theorem fares_pass (hp : p.Steady) (h : s.Sound p s.line) (ms : Nat) : Fares p s (s.pass ms) :=
  fares_runTo hp _ _ h

theorem fares_jump (h : s.Sound p s.line) (ms : Int) : Fares p s (s.jump ms) := h.clock _

/-! ## the end -/

def stopAll (s : Session) : Session :=
  { s with tasks := s.tasks.map fun t => { t with runner := t.runner.stop } }

theorem orderStop_eq (s : Session) :
    s.orderStop =
      callTasks { s.stopAll with sleepers := s.sleepers.filter fun z => !s.isWaiting z.task }
        ((s.sleepers.filter fun z => s.isWaiting z.task).map Sleeper.task) := by
  rw [orderStop, List.partition_eq_filter_filter]
  rfl

theorem exists_orderStop (s : Session) :
    ∃ line, s.orderStop =
      { s.stopAll with sleepers := s.sleepers.filter fun z => !s.isWaiting z.task, line } := by
  rw [orderStop_eq]
  obtain ⟨line, hcalls, -⟩ := exists_callTasks
    { s.stopAll with sleepers := s.sleepers.filter fun z => !s.isWaiting z.task }
    ((s.sleepers.filter fun z => s.isWaiting z.task).map Sleeper.task)
  exact ⟨line, hcalls⟩

/-- one member after the other makes a move of its own -/
theorem course_map {c : Crew} {f : Member → Member}
    (hf : ∀ (c : Crew) i m, c.members[i]? = some m → c.Move p [] (c.put i (f m))) (n : Nat)
    (hn : n ≤ c.members.length) :
    c.Course p [] { c with members := (c.members.take n).map f ++ c.members.drop n } := by
  induction n with
  | zero => exact .start
  | succ n ih =>
    have hcourse := ih (Nat.le_of_succ_le hn)
    have hlength : ((c.members.take n).map f).length = n := by
      rw [List.length_map, List.length_take, min_eq_left (Nat.le_of_succ_le hn)]
    rw [List.drop_eq_getElem_cons hn] at hcourse
    have hmove := hf
      { c with members := (c.members.take n).map f ++ c.members[n] :: c.members.drop (n + 1) } n
      c.members[n] (by
        rw [List.getElem?_append_right hlength.le, hlength, Nat.sub_self]
        rfl)
    have hnext := hcourse.snoc hmove
    rw [Crew.put, List.set_append_right _ _ hlength.le, hlength, Nat.sub_self, List.set_cons_zero,
      List.append_cons] at hnext
    rw [List.take_succ_eq_append_getElem hn, List.map_append]
    exact hnext

theorem leads_stopAll (s : Session) : Leads p s s.stopAll := by
  have hcourse := course_map (p := p) (c := s.crew) (f := fun m => { m with runner := m.runner.stop })
    (fun c i m hm => @Crew.Move.loop _ p c i m hm .stop (fun _ _ _ h => nomatch h) none)
    s.crew.members.length le_rfl
  rw [List.take_length, List.drop_length, List.append_nil] at hcourse
  refine ⟨[], ?_⟩
  have hcrew : s.stopAll.crew =
      { s.crew with members := s.crew.members.map fun m => { m with runner := m.runner.stop } } := by
    simp only [crew, stopAll, List.map_map]
    rfl
  rw [hcrew]
  exact hcourse

theorem Sound.stopAll (hp : p.Steady) (h : s.Sound p s.line) : Fares p s s.stopAll := by
  have hleads := leads_stopAll (p := p) s
  refine ⟨hleads, h.faithful.of_leads hp hleads rfl rfl fun t ht => ?_, ?_⟩
  · obtain ⟨t₀, ht₀, rfl⟩ := List.mem_map.1 ht
    have hs := h.faithful.sane t₀ ht₀
    exact ⟨hs.idle, hs.atWork, hs.sends⟩
  · have htask : ∀ (i : Nat) (t' : Task), s.stopAll.tasks[i]? = some t' →
        ∃ t : Task, s.tasks[i]? = some t ∧ t' = { t with runner := t.runner.stop } := by
      intro i t' ht'
      rw [Session.stopAll, List.getElem?_map] at ht'
      obtain ⟨t, ht, rfl⟩ := Option.map_eq_some_iff.1 ht'
      exact ⟨t, ht, rfl⟩
    exact {
      nodup := h.placed.nodup
      bounded := fun i hi => by
        rw [Session.stopAll, List.length_map]
        exact h.placed.bounded i hi
      asleepNodup := h.placed.asleepNodup
      asleep := fun i hi => by
        obtain ⟨hline, t, ht, hsilent⟩ := h.placed.asleep i hi
        refine ⟨hline, { t with runner := t.runner.stop }, ?_, hsilent⟩
        rw [Session.stopAll, List.getElem?_map, ht]
        rfl
      somewhere := fun i t' ht' => by
        obtain ⟨t, ht, rfl⟩ := htask i t' ht'
        exact h.placed.somewhere i t ht
      granted := h.placed.granted
      queued := h.placed.queued
      waiting := h.placed.waiting
      roomy := h.placed.roomy }

theorem fares_orderStop (hp : p.Steady) (h : s.Sound p s.line) : Fares p s s.orderStop := by
  rw [orderStop_eq]
  have hstop := h.stopAll hp
  exact (hstop.sound.wake (fun z => s.isWaiting z.task) s.clock).after hstop.leads

theorem fares_finish (hp : p.Steady) (fuel : Nat) (h : s.Sound p s.line) :
    Fares p s (finish fuel s) := by
  induction fuel generalizing s with
  | zero => exact .refl h
  | succ fuel ih =>
    have hsettle := fares_settle hp s.settleFuel h
    rw [finish]
    split
    case h_1 due _ =>
      have hwake := fares_wakeAt hsettle.sound (max (settle s.settleFuel s).clock.elapsed due)
      exact ((ih hwake.sound).after hwake.leads).after hsettle.leads
    case h_2 => exact hsettle

theorem fares_shutdown (hp : p.Steady) (h : s.Sound p s.line) : Fares p s s.shutdown := by
  have hstop := fares_orderStop hp h
  exact (fares_finish hp _ hstop.sound).after hstop.leads

end Rota.Session
