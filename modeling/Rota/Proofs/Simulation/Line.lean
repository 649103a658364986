import Rota.Simulation.Session
import Rota.Proofs.Simulation.Task

/-!
# Who is where in a session

A task of a session is in line for a turn, asleep, about to send a report, or over.  A sender with a
place is called, and so is the forwarder when there is a report to take out.  Each step of a session
keeps it so.

* `Session.Placed`   all that, for a line of jobs that is given apart from the session: the job whose
                     turn it is has left the line of the session and stands here as if it had not;
* `Session.exists_call`, `Session.exists_callTasks`   calling somebody changes the line only.
-/

namespace Rota.Session

/-! ## calls -/

/-- `line'` is `line` with those jobs in it, nobody twice -/
structure Joined (line : List Job) (new : List Job) (line' : List Job) : Prop where
  mem : ∀ j, j ∈ line' ↔ j ∈ line ∨ j ∈ new
  nodup : line.Nodup → line'.Nodup
  length_le : line'.length ≤ line.length + new.length

theorem Joined.nil (line : List Job) : Joined line [] line :=
  ⟨fun _ => by simp, id, le_rfl⟩

theorem Joined.cons {line new line' : List Job} (h : Joined line new line') {j : Job} (hj : j ∉ new) :
    Joined (j :: line) new (j :: line') where
  mem k := by rw [List.mem_cons, List.mem_cons, h.mem, or_assoc]
  nodup hnodup := by
    obtain ⟨hnot, hnodup⟩ := List.nodup_cons.1 hnodup
    refine List.nodup_cons.2 ⟨fun hin => ?_, h.nodup hnodup⟩
    exact ((h.mem j).1 hin).elim hnot hj
  length_le := by
    have hlength := h.length_le
    rw [List.length_cons, List.length_cons]
    omega

variable [ZoneDatabase]
variable {s s' : Session} {line line' : List Job} {i : Nat} {t : Task}

theorem exists_call (s : Session) (j : Job) :
    ∃ line, s.call j = { s with line } ∧ Joined s.line [j] line := by
  unfold call
  by_cases hj : j ∈ s.line
  · rw [if_pos hj]
    refine ⟨s.line, rfl, fun k => ?_, id, Nat.le_succ _⟩
    rw [List.mem_singleton]
    exact (or_iff_left_of_imp fun h => h ▸ hj).symm
  · rw [if_neg hj]
    refine ⟨s.line ++ [j], rfl, fun k => List.mem_append, fun h => ?_, List.length_append.le⟩
    rw [List.nodup_append]
    refine ⟨h, List.nodup_singleton j, fun a ha b hb => ?_⟩
    rw [List.mem_singleton] at hb
    exact fun he => hj (hb ▸ he ▸ ha)

theorem exists_callTasks (s : Session) (is : List Nat) :
    ∃ line, s.callTasks is = { s with line } ∧ Joined s.line (is.map .task) line := by
  induction is generalizing s with
  | nil => exact ⟨s.line, rfl, .nil _⟩
  | cons i is ih =>
    obtain ⟨line, hcall, hjoined⟩ := s.exists_call (.task i)
    obtain ⟨line', hcalls, hjoined'⟩ := ih (s.call (.task i))
    rw [hcall] at hcalls hjoined'
    refine ⟨line', ?_, fun k => ?_, fun h => hjoined'.nodup (hjoined.nodup h), ?_⟩
    · rw [callTasks, List.foldl_cons, hcall]
      exact hcalls
    · rw [hjoined'.mem, hjoined.mem, List.map_cons, List.mem_singleton, List.mem_cons, or_assoc]
    · have hone := hjoined.length_le
      have hrest := hjoined'.length_le
      simp only [List.length_map, List.length_cons, List.length_nil] at hone hrest ⊢
      omega

/-! ## places -/

/-- where the tasks of a session and its forwarder are, for a line of jobs -/
structure Placed (s : Session) (line : List Job) : Prop where
  nodup : line.Nodup
  bounded : ∀ i, .task i ∈ line → i < s.tasks.length
  asleepNodup : (s.sleepers.map Sleeper.task).Nodup
  asleep : ∀ i ∈ s.sleepers.map Sleeper.task,
    .task i ∉ line ∧ ∃ t, s.tasks[i]? = some t ∧ t.isSending = false
  somewhere : ∀ i t, s.tasks[i]? = some t →
    t.runner.IsOver ∨ t.isSending = true ∨ .task i ∈ line ∨ i ∈ s.sleepers.map Sleeper.task
  granted : ∀ g ∈ s.channel.granted, .task g.1 ∈ line
  queued : s.channel.queue ≠ [] → .forwarder ∈ line
  waiting : s.channel.waiting ≠ [] → s.channel.queue ≠ [] ∨ s.channel.granted ≠ []
  roomy : 1 ≤ s.channel.capacity

namespace Placed

theorem notMem_sleepers {i : Nat} (h : s.Placed line) (hi : .task i ∈ line) :
    i ∉ s.sleepers.map Sleeper.task :=
  fun hmem => (h.asleep i hmem).1 hi

theorem congr (h : s.Placed line) (htasks : s'.tasks = s.tasks) (hsleepers : s'.sleepers = s.sleepers)
    (hchannel : s'.channel = s.channel) : s'.Placed line where
  nodup := h.nodup
  bounded := by rw [htasks]; exact h.bounded
  asleepNodup := by rw [hsleepers]; exact h.asleepNodup
  asleep := by rw [hsleepers, htasks]; exact h.asleep
  somewhere := by rw [hsleepers, htasks]; exact h.somewhere
  granted := by rw [hchannel]; exact h.granted
  queued := by rw [hchannel]; exact h.queued
  waiting := by rw [hchannel]; exact h.waiting
  roomy := by rw [hchannel]; exact h.roomy

theorem relabel (h : s.Placed line) (hmem : ∀ j, j ∈ line' ↔ j ∈ line) (hnodup : line'.Nodup) :
    s.Placed line' where
  nodup := hnodup
  bounded i hi := h.bounded i ((hmem _).1 hi)
  asleepNodup := h.asleepNodup
  asleep i hi := ⟨fun hline => (h.asleep i hi).1 ((hmem _).1 hline), (h.asleep i hi).2⟩
  somewhere i t ht := by
    rw [hmem]
    exact h.somewhere i t ht
  granted g hg := (hmem _).2 (h.granted g hg)
  queued hq := (hmem _).2 (h.queued hq)
  waiting := h.waiting
  roomy := h.roomy

theorem record (h : s.Placed line) (hi : .task i ∈ line) (turn : TaskTurn) :
    (s.record i turn).Placed line where
  nodup := h.nodup
  bounded j hj := by
    rw [Session.record, List.length_set]
    exact h.bounded j hj
  asleepNodup := h.asleepNodup
  asleep j hj := by
    obtain ⟨hline, hsilent⟩ := h.asleep j hj
    have hne : i ≠ j := fun he => hline (by rwa [← he])
    refine ⟨hline, ?_⟩
    change ∃ t, (s.tasks.set i turn.task)[j]? = some t ∧ t.isSending = false
    rw [List.getElem?_set_ne hne]
    exact hsilent
  somewhere j t ht := by
    by_cases hj : i = j
    · exact .inr (.inr (.inl (hj ▸ hi)))
    · rw [Session.record, List.getElem?_set_ne hj] at ht
      exact h.somewhere j t ht
  granted := h.granted
  queued := h.queued
  waiting := h.waiting
  roomy := h.roomy

theorem callForwarder (h : s.Placed line) (hjoined : Joined line [.forwarder] line') :
    s.Placed line' where
  nodup := hjoined.nodup h.nodup
  bounded i hi := h.bounded i (((hjoined.mem _).1 hi).resolve_right (by simp))
  asleepNodup := h.asleepNodup
  asleep i hi :=
    ⟨fun hline => (h.asleep i hi).1 (((hjoined.mem _).1 hline).resolve_right (by simp)),
      (h.asleep i hi).2⟩
  somewhere i t ht := (h.somewhere i t ht).imp_right
    (Or.imp_right (Or.imp_left fun hline => (hjoined.mem _).2 (.inl hline)))
  granted g hg := (hjoined.mem _).2 (.inl (h.granted g hg))
  queued hq := (hjoined.mem _).2 (.inl (h.queued hq))
  waiting := h.waiting
  roomy := h.roomy

theorem push (h : s.Placed line) (hline : .forwarder ∈ line) (r : Report)
    {granted : List (Nat × Report)} (hgranted : granted ⊆ s.channel.granted) :
    Placed { s with channel := { s.channel with granted, queue := s.channel.queue ++ [r] } } line where
  nodup := h.nodup
  bounded := h.bounded
  asleepNodup := h.asleepNodup
  asleep := h.asleep
  somewhere := h.somewhere
  granted g hg := h.granted g (hgranted hg)
  queued _ := hline
  waiting _ := .inl (by simp)
  roomy := h.roomy

theorem await (h : s.Placed line) (hroom : s.channel.hasRoom = false) (w : Nat × Report) :
    Placed { s with channel := { s.channel with waiting := s.channel.waiting ++ [w] } } line where
  nodup := h.nodup
  bounded := h.bounded
  asleepNodup := h.asleepNodup
  asleep := h.asleep
  somewhere := h.somewhere
  granted := h.granted
  queued := h.queued
  waiting _ := by
    have hfull : s.channel.capacity ≤ s.channel.queue.length + s.channel.granted.length := by
      simpa [Channel.hasRoom] using hroom
    by_contra hne
    obtain ⟨hqueue, hgranted⟩ := not_or.1 hne
    rw [not_not.1 hqueue, not_not.1 hgranted] at hfull
    exact absurd (h.roomy.trans hfull) (by simp)
  roomy := h.roomy

theorem receive (h : s.Placed line) (hline : .forwarder ∈ line) {r : Report} {channel : Channel}
    {w : Option Nat} (hreceive : s.channel.receive? = some (r, channel, w))
    (hsenders : ∀ g ∈ s.channel.waiting, ∃ t, s.tasks[g.1]? = some t ∧ t.isSending = true)
    (hjoined : Joined line (w.toList.map .task) line') :
    Placed { s with channel } line' := by
  obtain ⟨rest, hqueue, ⟨hwaiting, rfl, rfl⟩ | ⟨g, later, hwaiting, rfl, rfl⟩⟩ :=
    Channel.of_receive? hreceive
  · have hmem : ∀ j, j ∈ line' ↔ j ∈ line := fun j => by simp [hjoined.mem]
    have h' := h.relabel hmem (hjoined.nodup h.nodup)
    exact {
      nodup := h'.nodup
      bounded := h'.bounded
      asleepNodup := h'.asleepNodup
      asleep := h'.asleep
      somewhere := h'.somewhere
      granted := h'.granted
      queued := fun _ => (hmem _).2 hline
      waiting := fun hne => absurd hwaiting hne
      roomy := h.roomy }
  · obtain ⟨t, ht, hsending⟩ := hsenders g (by rw [hwaiting]; exact List.mem_cons_self)
    have hmem : ∀ j, j ∈ line' ↔ j ∈ line ∨ j = .task g.1 := fun j => by simp [hjoined.mem]
    exact {
      nodup := hjoined.nodup h.nodup
      bounded := fun i hi => by
        rcases (hmem _).1 hi with hi | hi
        · exact h.bounded i hi
        · rw [Job.task.inj hi]
          exact (List.getElem?_eq_some_iff.1 ht).1
      asleepNodup := h.asleepNodup
      asleep := fun i hi => by
        obtain ⟨hnot, t', ht', hsilent⟩ := h.asleep i hi
        refine ⟨fun hin => ?_, t', ht', hsilent⟩
        rcases (hmem _).1 hin with hin | hin
        · exact hnot hin
        · rw [Job.task.inj hin, ht] at ht'
          rw [Option.some.inj ht', hsilent] at hsending
          exact nomatch hsending
      somewhere := fun i t ht => (h.somewhere i t ht).imp_right
        (Or.imp_right (Or.imp_left fun hin => (hmem _).2 (.inl hin)))
      granted := fun x hx => by
        rcases List.mem_append.1 hx with hx | hx
        · exact (hmem _).2 (.inl (h.granted x hx))
        · exact (hmem _).2 (.inr (by rw [List.mem_singleton.1 hx]))
      queued := fun _ => (hmem _).2 (.inl hline)
      waiting := fun _ => .inr (by simp)
      roomy := h.roomy }

/-! ## leaving the line -/

theorem sleep (h : s.Placed (.task i :: line)) (ht : s.tasks[i]? = some t) (hsilent : t.isSending = false)
    (hfree : ∀ g ∈ s.channel.granted, g.1 ≠ i) (due : Nat) :
    Placed { s with sleepers := s.sleepers ++ [⟨i, due⟩] } line where
  nodup := (List.nodup_cons.1 h.nodup).2
  bounded j hj := h.bounded j (List.mem_cons_of_mem _ hj)
  asleepNodup := by
    rw [List.map_append, List.nodup_append]
    refine ⟨h.asleepNodup, List.nodup_singleton _, fun a ha b hb he => ?_⟩
    rw [he, List.mem_singleton.1 hb] at ha
    exact (h.asleep i ha).1 List.mem_cons_self
  asleep j hj := by
    rw [List.map_append, List.mem_append] at hj
    rcases hj with hj | hj
    · obtain ⟨hline, hsilent⟩ := h.asleep j hj
      exact ⟨fun hin => hline (List.mem_cons_of_mem _ hin), hsilent⟩
    · rw [List.mem_singleton.1 hj]
      exact ⟨(List.nodup_cons.1 h.nodup).1, t, ht, hsilent⟩
  somewhere j t ht := by
    rw [List.map_append, List.mem_append]
    rcases h.somewhere j t ht with hover | hsending | hin | hasleep
    · exact .inl hover
    · exact .inr (.inl hsending)
    · rcases List.mem_cons.1 hin with he | hin
      · exact .inr (.inr (.inr (.inr (List.mem_singleton.2 (Job.task.inj he)))))
      · exact .inr (.inr (.inl hin))
    · exact .inr (.inr (.inr (.inl hasleep)))
  granted g hg := (List.mem_cons.1 (h.granted g hg)).resolve_left fun he => hfree g hg (Job.task.inj he)
  queued hq := (List.mem_cons.1 (h.queued hq)).resolve_left (by simp)
  waiting := h.waiting
  roomy := h.roomy

theorem dequeue {j : Job} (h : s.Placed (j :: line))
    (hfree : ∀ g ∈ s.channel.granted, .task g.1 ≠ j) (hqueue : s.channel.queue ≠ [] → .forwarder ≠ j)
    (hdone : ∀ i t, .task i = j → s.tasks[i]? = some t → t.runner.IsOver ∨ t.isSending = true) :
    s.Placed line where
  nodup := (List.nodup_cons.1 h.nodup).2
  bounded i hi := h.bounded i (List.mem_cons_of_mem _ hi)
  asleepNodup := h.asleepNodup
  asleep i hi := ⟨fun hin => (h.asleep i hi).1 (List.mem_cons_of_mem _ hin), (h.asleep i hi).2⟩
  somewhere i t ht := by
    rcases h.somewhere i t ht with hover | hsending | hin | hasleep
    · exact .inl hover
    · exact .inr (.inl hsending)
    · rcases List.mem_cons.1 hin with he | hin
      · exact (hdone i t he ht).imp_right .inl
      · exact .inr (.inr (.inl hin))
    · exact .inr (.inr (.inr hasleep))
  granted g hg := (List.mem_cons.1 (h.granted g hg)).resolve_left (hfree g hg)
  queued hq := (List.mem_cons.1 (h.queued hq)).resolve_left (hqueue hq)
  waiting := h.waiting
  roomy := h.roomy

theorem leave (h : s.Placed (.task i :: line)) (hfree : ∀ g ∈ s.channel.granted, g.1 ≠ i)
    (hdone : ∀ t, s.tasks[i]? = some t → t.runner.IsOver ∨ t.isSending = true) : s.Placed line :=
  h.dequeue (fun g hg he => hfree g hg (Job.task.inj he)) (fun _ => nofun)
    fun _ t he ht => hdone t (Job.task.inj he ▸ ht)

theorem leaveForwarder (h : s.Placed (.forwarder :: line)) (hqueue : s.channel.queue = []) :
    s.Placed line :=
  h.dequeue (fun _ _ => nofun) (fun hq => absurd hqueue hq) fun _ _ he => nomatch he

/-! ## waking up -/

theorem wake (h : s.Placed line) {q : Sleeper → Bool}
    (hjoined : Joined line (((s.sleepers.filter q).map Sleeper.task).map .task) line') :
    Placed { s with sleepers := s.sleepers.filter fun z => !q z } line' := by
  have hmem : ∀ j, .task j ∈ line' ↔
      .task j ∈ line ∨ j ∈ (s.sleepers.filter q).map Sleeper.task := fun j => by
    rw [hjoined.mem, List.mem_map]
    simp
  exact {
    nodup := hjoined.nodup h.nodup
    bounded := fun j hj => by
      rcases (hmem j).1 hj with hj | hj
      · exact h.bounded j hj
      · obtain ⟨t, ht, -⟩ := (h.asleep j ((List.filter_sublist.map _).subset hj)).2
        exact (List.getElem?_eq_some_iff.1 ht).1
    asleepNodup := h.asleepNodup.sublist (List.filter_sublist.map _)
    asleep := fun j hj => by
      obtain ⟨hline, hsilent⟩ := h.asleep j ((List.filter_sublist.map _).subset hj)
      refine ⟨fun hin => ?_, hsilent⟩
      rcases (hmem j).1 hin with hin | hin
      · exact hline hin
      · -- nobody sleeps twice
        obtain ⟨z, hz, rfl⟩ := List.mem_map.1 hj
        obtain ⟨z', hz', he⟩ := List.mem_map.1 hin
        rw [List.mem_filter] at hz hz'
        rw [← List.inj_on_of_nodup_map h.asleepNodup hz'.1 hz.1 he, hz'.2] at hz
        exact nomatch hz.2
    somewhere := fun j t ht => by
      rcases h.somewhere j t ht with hover | hsending | hin | hasleep
      · exact .inl hover
      · exact .inr (.inl hsending)
      · exact .inr (.inr (.inl ((hmem j).2 (.inl hin))))
      · obtain ⟨z, hz, rfl⟩ := List.mem_map.1 hasleep
        by_cases hq : q z = true
        · exact .inr (.inr (.inl ((hmem _).2 (.inr
            (List.mem_map.2 ⟨z, List.mem_filter.2 ⟨hz, hq⟩, rfl⟩)))))
        · exact .inr (.inr (.inr (List.mem_map.2 ⟨z, List.mem_filter.2 ⟨hz, by simpa using hq⟩, rfl⟩)))
    granted := fun g hg => (hjoined.mem _).2 (.inl (h.granted g hg))
    queued := fun hq => (hjoined.mem _).2 (.inl (h.queued hq))
    waiting := h.waiting
    roomy := h.roomy }

end Placed

end Rota.Session
