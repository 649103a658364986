import Rota.Proofs.Simulation.Script
import Rota.Proofs.Status.Registry
import Rota.Proofs.Agent.Solo

/-!
# What a session shows of a module

The status, the statistics, the deeds and the state file of a module are found in a session by its name,
and its reports by the name that they bear.  An ensemble that stands at the same point shows the same.

* `Behaviour.Signs`          a module whose reports bear its name;
* `Ensemble.Signed`          all reports of an ensemble bear the names of their senders;
* `Session.account`          what a session shows of a module;
* `Session.Mirrors.account_eq`   **it is what the ensemble shows**;
* `Agent.account_run_eq`     **agents with a module in common show the same of it at their ends**.
-/

namespace Rota

/-! ## signatures -/

def Behaviour.Signs (b : Behaviour) (name : String) : Prop :=
  ∀ n r, (b n).report? = some r → r.module = name

theorem Behaviour.plan_of_callback {b : Behaviour} {diary : List Happening} {r : Report}
    (h : b.callback diary = .send r) : ∃ n, (b n).report? = some r := by
  unfold callback at h
  dsimp only at h
  split at h
  case h_1 =>
    split at h
    case h_1 hplan => exact ⟨_, hplan.trans (congrArg _ (Deal.send.inj h))⟩
    case h_2 => exact nomatch h
  case h_2 => exact nomatch h
  case h_3 => exact nomatch h

theorem CommandModule.module_of_run {m : CommandModule} {e : Execution} {isOpen : Bool} {r : Report}
    (h : (m.run e isOpen).2 = some r) : r.module = m.name := by
  unfold run at h
  split at h
  case h_1 => exact nomatch h
  case h_2 => exact nomatch h
  case h_3 =>
    split at h
    case h_1 => exact nomatch h
    case h_2 =>
      split at h
      case isTrue => exact Option.some.inj h ▸ rfl
      case isFalse => exact nomatch h

theorem ModuleSettings.signs_behaviour (m : ModuleSettings) (host : Host) :
    (m.behaviour host).Signs m.name := by
  intro n r h
  cases hkind : m.kind with
  | heartbeat =>
    rw [behaviour, hkind] at h
    exact Option.some.inj h ▸ rfl
  | command program args timeout =>
    rw [behaviour, hkind] at h
    exact CommandModule.module_of_run h

variable [ZoneDatabase]
variable {p q : Publisher} {script : Nat → Cue} {s : Session} {c c' c₀ : Ensemble} {i : Nat} {t : Task}
  {pl : Player}

structure Player.Signs (pl : Player) : Prop where
  plans : ∀ diary r, pl.callback diary = .send r → r.module = pl.name
  waits : ∀ r, pl.wait = .room r → r.module = pl.name

namespace Player.Signs

theorem act (h : pl.Signs) (wake : Nat) (clock : SimClock) (store : Option StateStore) :
    (pl.act wake clock store).1.Signs := by
  obtain ⟨hname, hcallback, -, -⟩ := pl.goesOn_act wake clock store
  refine ⟨by rw [hcallback, hname]; exact h.plans, fun r hw => ?_⟩
  rw [hname]
  unfold Player.act at hw
  split at hw
  case h_1 => exact nomatch hw
  case h_2 =>
    dsimp only at hw
    split at hw <;> exact nomatch hw
  case h_3 =>
    split at hw
    case h_1 => exact nomatch hw
    case h_2 hdeal => exact h.plans _ _ (Wait.room.inj hw ▸ hdeal)
    case h_3 => exact nomatch hw
  case h_4 => exact h.waits r hw
  case h_5 => exact h.waits r hw

theorem hear (h : pl.Signs) (r : Report) (result : SendResult) : (pl.hear r result).Signs := by
  cases result with
  | accepted => exact ⟨h.plans, fun _ hw => nomatch hw⟩
  | waits => exact h
  | closed => exact ⟨h.plans, fun _ hw => nomatch hw⟩

theorem cue (h : pl.Signs) (x : Cue) : (pl.cue x).Signs := by
  unfold Player.cue
  split
  case h_1 =>
    split
    · exact ⟨h.plans, fun _ hw => nomatch hw⟩
    · exact h
  case h_2 =>
    refine ⟨h.plans, fun r hw => ?_⟩
    dsimp only at hw
    split at hw
    · exact nomatch hw
    · exact h.waits r hw
  case h_3 => exact h

end Player.Signs

namespace Ensemble

structure Signed (c : Ensemble) : Prop where
  players : ∀ pl ∈ c.players, pl.Signs
  entered : ∀ x ∈ c.entered, x.2.module = x.1

theorem Signed.put (h : c.Signed) (i : Nat) {pl' : Player} (hpl : pl'.Signs) :
    ∀ x ∈ (c.put i pl').players, x.Signs := fun x hx =>
  (List.mem_or_eq_of_mem_set hx).elim (h.players x) fun he => he ▸ hpl

theorem Signed.step (h : c.Signed) (move : c.Move p script c') : c'.Signed := by
  have hplayer : ∀ {i : Nat} {pl : Player}, c.players[i]? = some pl → pl.Signs := fun hpl =>
    h.players _ (List.mem_of_getElem? hpl)
  cases move with
  | act hpl => exact ⟨h.put _ ((hplayer hpl).act _ _ _), h.entered⟩
  | @send i pl r channel result hpl hwait =>
    refine ⟨h.put i ((hplayer hpl).hear r result), fun x hx => ?_⟩
    rcases List.mem_append.1 hx with hx | hx
    · exact h.entered x hx
    · obtain ⟨r', hr', rfl⟩ := List.mem_map.1 hx
      cases result with
      | accepted => exact List.mem_singleton.1 hr' ▸ (hplayer hpl).waits r hwait
      | waits => exact nomatch hr'
      | closed => exact nomatch hr'
  | @enter i pl r channel hpl hwait =>
    refine ⟨h.put i ((hplayer hpl).hear r .accepted), fun x hx => ?_⟩
    rcases List.mem_append.1 hx with hx | hx
    · exact h.entered x hx
    · rw [List.mem_singleton.1 hx]
      exact (hplayer hpl).waits r hwait
  | @giveUp i pl r hpl => exact ⟨h.put i ((hplayer hpl).hear r .closed), h.entered⟩
  | take => exact ⟨h.players, h.entered⟩
  | hand => exact ⟨h.players, h.entered⟩
  | cue =>
    refine ⟨fun x hx => ?_, h.entered⟩
    obtain ⟨pl, hpl, rfl⟩ := List.mem_map.1 hx
    exact (h.players pl hpl).cue _

theorem Course.signed (h : c₀.Signed) (course : c₀.Course p script c) : c.Signed := by
  induction course with
  | start => exact h
  | snoc _ move ih => exact ih.step move

end Ensemble

/-! ## accounts -/

namespace Session

def account (s : Session) (name : String) : Account where
  status := s.registry.get? name
  stats := s.summary.modules.lookup name
  deeds := s.deedsOf name
  saved := s.store.bind (·.find? (fileName name))
  reports := (s.forwarder.handed.map (·.1)).filter fun r => r.module = name

section
variable (hnames : (s.tasks.map fun t => t.runner.name).Nodup) (ht : t ∈ s.tasks)
include hnames ht

theorem status_of_task : s.registry.get? t.runner.name = some t.runner.status := by
  have hregistry : s.registry =
      Registry.ofList {} (s.tasks.map fun t => (t.runner.name, t.runner.status)) := by
    rw [Registry.ofList, List.foldl_map]
    rfl
  rw [hregistry, Registry.get?, Registry.find?_ofList (by rwa [List.map_map])
    (List.mem_map.2 ⟨t, ht, rfl⟩)]
  rfl

theorem stats_of_task : s.summary.modules.lookup t.runner.name =
    if t.runner.phase = .stopped then some t.runner.stats else none := by
  have hkeys : (s.summary.modules.map (·.1)).Nodup := by
    rw [summary, List.map_map]
    exact hnames.sublist (List.filter_sublist.map _)
  split
  case isTrue hstopped =>
    refine Assoc.lookup_of_mem hkeys (List.mem_map.2 ⟨t, List.mem_filter.2 ⟨ht, ?_⟩, rfl⟩)
    exact decide_eq_true hstopped
  case isFalse hstopped =>
    refine List.lookup_eq_none_iff.2 fun x hx => bne_iff_ne.2 fun he => hstopped ?_
    obtain ⟨t', ht', rfl⟩ := List.mem_map.1 hx
    obtain ⟨ht', hstopped'⟩ := List.mem_filter.1 ht'
    rw [List.inj_on_of_nodup_map hnames ht ht' he]
    exact of_decide_eq_true hstopped'

end

theorem Mirrors.account_eq (h : s.Mirrors c) (htidy : c.Tidy) (hsigned : c.Signed)
    (hpl : c.players[i]? = some pl) : s.account pl.name = c.account pl.name := by
  have hnames : (s.tasks.map fun t => t.runner.name).Nodup := by
    refine List.nodup_iff_getElem?_ne_getElem?.2 fun j k hjk hk he => ?_
    rw [List.length_map] at hk
    rw [List.getElem?_map, List.getElem?_map, List.getElem?_eq_getElem (hjk.trans hk),
      List.getElem?_eq_getElem hk] at he
    obtain ⟨x, hx, hplayedx, -⟩ := h.played j _ (List.getElem?_eq_getElem (hjk.trans hk))
    obtain ⟨y, hy, hplayedy, -⟩ := h.played k _ (List.getElem?_eq_getElem hk)
    refine hjk.ne (htidy.distinct _ _ _ _ hx hy ?_)
    rw [Player.name, Player.name, hplayedx.runner, hplayedy.runner]
    exact congrArg fileName (Option.some.inj he)
  obtain ⟨j, t, hj, ht, hplayed, -⟩ := h.exists_task (List.mem_of_getElem? hpl)
  have ht := List.mem_of_getElem? ht
  have hname : pl.name = t.runner.name := congrArg Runner.name hplayed.runner
  -- what was handed over are the first reports that entered
  have hhanded : c.forwarder.handed.map (·.1) =
      (c.entered.take c.forwarder.handed.length).map (·.2) := by
    rw [List.map_take, htidy.inOrder, List.take_left']
    exact List.length_map _
  have hreports : (s.forwarder.handed.map (·.1)).filter (fun r => r.module = pl.name) =
      c.handedOf pl.name := by
    rw [← h.forwarder, hhanded, List.filter_map, Ensemble.handedOf, Assoc.values]
    refine congrArg _ (List.filter_congr fun x hx => ?_)
    rw [Function.comp, hsigned.entered x ((List.take_sublist _ _).subset hx)]
  rw [htidy.account_eq hpl, account, hreports, hname, status_of_task hnames ht, stats_of_task hnames ht,
    ← hplayed.deeds, hplayed.runner, h.store]

end Session

/-! ## agents -/

namespace Agent

variable {host : Host} {settings : AgentSettings} {accepted accepted' : List Accepted} {origin : Moment}
  {store : Option StateStore} {passages : List Passage}

theorem signed_gather (hsigns : ∀ x ∈ accepted, (x.behaviour host).Signs x.name) :
    (gather host settings accepted origin store).Signed where
  players pl hpl := by
    obtain ⟨x, hx, rfl⟩ := List.mem_map.1 hpl
    refine ⟨fun diary r h => ?_, fun r hw => nomatch hw⟩
    obtain ⟨n, hplan⟩ := Behaviour.plan_of_callback h
    exact hsigns x hx n r hplan
  entered x hx := nomatch hx

/-- the session that runs an agent shows of its modules what an ensemble at its end shows -/
theorem account_run (host : Host) (settings : AgentSettings) (store : Option StateStore) (hp : p.Steady)
    (hfiles : (accepted.map fun x => fileName x.name).Nodup)
    (hscheduled : ∀ x ∈ accepted, x.schedule.cadence.Accepted)
    (hsigns : ∀ x ∈ accepted, (x.behaviour host).Signs x.name)
    (hstays : ({ origin } : SimClock).Stays passages) :
    ∃ c, (gather host settings accepted origin store).Course p (Passage.toScript passages) c ∧ c.AtRest ∧
      (∀ name, c.IsOver name) ∧
      ∀ x ∈ accepted, (run host settings accepted origin store p passages).account x.name =
        c.account x.name := by
  obtain ⟨c, hcourse, hmirrors, hrest, hover⟩ := enacts_run host settings store hp hfiles hscheduled
    hstays
  have htidy : (gather host settings accepted origin store).Tidy := .gather _ _ _ _ hfiles
  refine ⟨c, hcourse, hrest, hover, fun x hx => ?_⟩
  obtain ⟨i, hi⟩ := List.mem_iff_getElem?.1 hx
  obtain ⟨-, n, hshows⟩ := hcourse.shows hp htidy (Ensemble.shows_gather _ _ _ _ hi)
  have haccount := hmirrors.account_eq (hcourse.tidy hp htidy) (hcourse.signed (signed_gather hsigns))
    hshows.player
  rwa [Solo.name_run] at haccount

/-- agents with a module in common show the same of it when all has stopped -/
theorem account_run_eq (hp : p.Steady) (hq : q.Steady)
    (hfiles : (accepted.map fun x => fileName x.name).Nodup)
    (hfiles' : (accepted'.map fun x => fileName x.name).Nodup)
    (hscheduled : ∀ x ∈ accepted, x.schedule.cadence.Accepted)
    (hscheduled' : ∀ x ∈ accepted', x.schedule.cadence.Accepted)
    (hsigns : ∀ x ∈ accepted, (x.behaviour host).Signs x.name)
    (hsigns' : ∀ x ∈ accepted', (x.behaviour host).Signs x.name)
    (hstays : ({ origin } : SimClock).Stays passages) {x : Accepted} (hx : x ∈ accepted)
    (hx' : x ∈ accepted') :
    (run host settings accepted origin store p passages).account x.name =
      (run host settings accepted' origin store q passages).account x.name := by
  obtain ⟨c, hcourse, hrest, hover, haccount⟩ := account_run host settings store hp hfiles
    hscheduled hsigns hstays
  obtain ⟨c', hcourse', hrest', hover', haccount'⟩ := account_run host settings store hq hfiles'
    hscheduled' hsigns' hstays
  rw [haccount x hx, haccount' x hx']
  exact (Ensemble.undisturbed settings _ origin store hp hq hfiles hfiles' hcourse hcourse' hx hx').settled
    hrest hrest' (.inr ⟨hover _, hover' _⟩)

end Agent

end Rota
