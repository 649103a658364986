import Rota.Proofs.Agent.Ensemble

/-!
# A module alone

What a module of an ensemble sees and does is what it would see and do alone, in the same time and with
the same state file.  Alone it has no choice: it goes on when it can, its reports enter at once, and
otherwise the next cue is given.  So whatever the other modules are, and whatever the order of the moves
is, the module goes the same way.

* `Solo`, `Solo.step`, `Solo.run`   a module alone, and its way;
* `Ensemble.Shows`          a player stands where it would stand alone;
* `Ensemble.Course.shows`   **every course of an ensemble takes its players along their own ways**;
* `Solo.diary_prefix`, `Solo.run_of_rests`, `Solo.facts_of_over`   how far two points of a way can differ;
* `Ensemble.Undisturbed`    two ensembles show the same of a module, as far as they have come;
* `Ensemble.undisturbed`    **any two ensembles with the module do**.
-/

namespace Rota

open StateStore

theorem StateStore.saved_of_own {name : String} {store store' : Option StateStore}
    (h : store.map (own name) = store'.map (own name)) :
    store.bind (·.find? (fileName name)) = store'.bind (·.find? (fileName name)) := by
  obtain ⟨rfl, rfl⟩ | ⟨s, t, rfl, rfl, hown⟩ := map_own_cases h
  · rfl
  · exact find?_of_own hown

/-! ## one module -/

variable [ZoneDatabase]

/-- a module alone -/
structure Solo where
  clock : SimClock
  store : Option StateStore
  player : Player
  cues : Nat := 0

namespace Solo

def cue (a : Solo) (x : Cue) : Solo :=
  { a with clock := a.clock.cue x, player := a.player.cue x, cues := a.cues + 1 }

/-- the next thing that happens to a module alone -/
def step (wake : Nat) (script : Nat → Cue) (a : Solo) : Solo :=
  if a.player.isReady a.clock.elapsed then
    { a with
      player := (a.player.act wake a.clock a.store).1
      store := (a.player.act wake a.clock a.store).2 }
  else
    match a.player.wait with
    | .room r => { a with player := a.player.hear r .accepted }
    | _ => a.cue (script a.cues)

def run (wake : Nat) (script : Nat → Cue) (a : Solo) : Nat → Solo
  | 0 => a
  | n + 1 => (a.run wake script n).step wake script

section
variable {wake : Nat} {script : Nat → Cue} {a : Solo}

theorem step_of_ready (h : a.player.isReady a.clock.elapsed = true) :
    a.step wake script = { a with
      player := (a.player.act wake a.clock a.store).1
      store := (a.player.act wake a.clock a.store).2 } := if_pos h

theorem step_of_room {r : Report} (h : a.player.wait = .room r) :
    a.step wake script = { a with player := a.player.hear r .accepted } := by
  have hready : a.player.isReady a.clock.elapsed = false := by
    refine a.player.isReady_eq_false_iff.2 ?_
    rintro ⟨-, due, -, hdue⟩
    exact nomatch h.symm.trans hdue
  rw [step, hready, if_neg Bool.false_ne_true, h]

theorem step_of_rests (h : a.player.Rests a.clock.elapsed) :
    a.step wake script = a.cue (script a.cues) := by
  rw [step, h.1, if_neg Bool.false_ne_true]
  cases hwait : a.player.wait with
  | room r => exact absurd hwait (h.2 r)
  | _ => rfl

theorem run_add (m n : Nat) :
    a.run wake script (m + n) = (a.run wake script m).run wake script n := by
  induction n with
  | zero => rfl
  | succ n ih => exact congrArg (step wake script) ih

end

end Solo

/-! ## what an ensemble has to do with it -/

theorem Player.after_of_seenBy {t t' : Turn} {name : String} (h : t.seenBy name = t'.seenBy name)
    (pl : Player) : pl.after t = pl.after t' ∧ t.runner = t'.runner ∧
      t.store.map (own name) = t'.store.map (own name) := by
  obtain ⟨hrunner, hrest⟩ := Prod.mk.inj h
  obtain ⟨hevents, hstore⟩ := Prod.mk.inj hrest
  exact ⟨by rw [after, after, hrunner, hevents], hrunner, hstore⟩

theorem Player.act_congr {pl : Player} {store store' : Option StateStore}
    (h : store.map (own pl.name) = store'.map (own pl.name)) (wake : Nat) (clock : SimClock) :
    (pl.act wake clock store).1 = (pl.act wake clock store').1 ∧
      (pl.act wake clock store).2.map (own pl.name) =
        (pl.act wake clock store').2.map (own pl.name) := by
  unfold act
  split
  case h_1 =>
    obtain ⟨hafter, -, hstore⟩ := pl.after_of_seenBy
      (Runner.seenBy_begin h (Runner.firstSlot_congr h clock.now))
    exact ⟨hafter, hstore⟩
  case h_2 =>
    obtain ⟨hafter, hrunner, hstore⟩ := pl.after_of_seenBy (Runner.seenBy_look h clock.now)
    dsimp only
    rw [hafter, hrunner]
    split <;> exact ⟨rfl, hstore⟩
  case h_3 =>
    split
    case h_1 => exact ⟨rfl, h⟩
    case h_2 => exact ⟨rfl, h⟩
    case h_3 ending _ =>
      obtain ⟨hafter, -, hstore⟩ := pl.after_of_seenBy
        (Runner.seenBy_finish h clock.now (clock.elapsed - pl.since) ending)
      exact ⟨hafter, hstore⟩
  case h_4 => exact ⟨rfl, h⟩
  case h_5 => exact ⟨rfl, h⟩

namespace Ensemble

variable {p : Publisher} {script : Nat → Cue} {c₀ c c' : Ensemble} {i : Nat} {a : Solo}

/-- a player of an ensemble stands where the module would stand alone -/
structure Shows (c : Ensemble) (i : Nat) (a : Solo) : Prop where
  player : c.players[i]? = some a.player
  clock : c.clock = a.clock
  cues : c.cues = a.cues
  own : c.store.map (own a.player.name) = a.store.map (own a.player.name)

/-- every move takes a player along its own way, or leaves it where it is -/
theorem Move.shows (htidy : c.Tidy) (move : c.Move p script c') (h : c.Shows i a) :
    ∃ n, c'.Shows i (a.run c.wake script n) := by
  have hplayer := h.player
  cases move with
  | @act j pl hpl hready =>
    by_cases hj : i = j
    · subst hj
      obtain rfl := Option.some.inj (h.player.symm.trans hpl)
      obtain ⟨hact, hown⟩ := Player.act_congr h.own c.wake a.clock
      refine ⟨1, ?_⟩
      rw [h.clock] at hready
      rw [Solo.run, Solo.run, Solo.step_of_ready hready, h.clock]
      have hname := (a.player.goesOn_act c.wake a.clock a.store).name
      refine ⟨?_, h.clock, h.cues, ?_⟩
      · exact (player_put hpl _ i).trans ((if_pos rfl).trans (congrArg some hact))
      · dsimp only
        rw [hname]
        exact hown
    · -- another module has another file
      have hne : fileName a.player.name ≠ fileName pl.name := fun he =>
        hj (htidy.distinct _ _ _ _ hplayer hpl he)
      have hown := (pl.goesOn_act c.wake c.clock c.store).own hne
      refine ⟨0, ?_, h.clock, h.cues, hown.trans h.own⟩
      exact (player_put hpl _ i).trans ((if_neg hj).trans hplayer)
  | @send j pl r channel result hpl hwait hfree hsend =>
    by_cases hj : i = j
    · subst hj
      obtain rfl := Option.some.inj (h.player.symm.trans hpl)
      have hput : ∀ pl', (c.put i pl').players[i]? = some pl' := fun pl' =>
        (player_put hpl pl' i).trans (if_pos rfl)
      obtain ⟨hclosed, -⟩ | ⟨-, -, rfl, -⟩ | ⟨-, -, rfl, -⟩ := Channel.send_cases hsend
      · exact nomatch hclosed.symm.trans htidy.isOpen
      · refine ⟨1, ?_⟩
        rw [Solo.run, Solo.run, Solo.step_of_room hwait]
        exact ⟨hput _, h.clock, h.cues, h.own⟩
      · exact ⟨0, hput _, h.clock, h.cues, h.own⟩
    · exact ⟨0, (player_put hpl _ i).trans ((if_neg hj).trans hplayer), h.clock, h.cues, h.own⟩
  | @enter j pl r channel hpl hwait =>
    by_cases hj : i = j
    · subst hj
      obtain rfl := Option.some.inj (h.player.symm.trans hpl)
      refine ⟨1, ?_⟩
      rw [Solo.run, Solo.run, Solo.step_of_room hwait]
      exact ⟨(player_put hpl _ i).trans (if_pos rfl), h.clock, h.cues, h.own⟩
    · exact ⟨0, (player_put hpl _ i).trans ((if_neg hj).trans hplayer), h.clock, h.cues, h.own⟩
  | giveUp hpl hwait hclosed => exact nomatch hclosed.symm.trans htidy.isOpen
  | take => exact ⟨0, hplayer, h.clock, h.cues, h.own⟩
  | hand => exact ⟨0, hplayer, h.clock, h.cues, h.own⟩
  | cue hrest =>
    have hrests := hrest.players _ (List.mem_of_getElem? hplayer)
    rw [h.clock] at hrests
    refine ⟨1, ?_⟩
    rw [Solo.run, Solo.run, Solo.step_of_rests hrests]
    refine ⟨?_, ?_, congrArg (· + 1) h.cues, ?_⟩
    · rw [Ensemble.cue, Solo.cue, List.getElem?_map, hplayer, h.cues]
      rfl
    · rw [Ensemble.cue, Solo.cue, h.clock, h.cues]
    · rw [Solo.cue, Player.name_cue]
      exact h.own

theorem Move.wake (move : c.Move p script c') : c'.wake = c.wake := by
  cases move <;> rfl

/-- every course of an ensemble takes its players along their own ways -/
theorem Course.shows (hp : p.Steady) (htidy : c₀.Tidy) (h : c₀.Shows i a)
    (course : c₀.Course p script c) : c.wake = c₀.wake ∧ ∃ n, c.Shows i (a.run c₀.wake script n) := by
  induction course with
  | start => exact ⟨rfl, 0, h⟩
  | snoc course move ih =>
    obtain ⟨hwake, n, hshows⟩ := ih
    obtain ⟨k, hnext⟩ := move.shows (course.tidy hp htidy) hshows
    rw [hwake, ← Solo.run_add] at hnext
    exact ⟨move.wake.trans hwake, n + k, hnext⟩

end Ensemble

/-! ## how far two points of a way can differ -/

theorem Player.diary_act (pl : Player) (wake : Nat) (clock : SimClock) (store : Option StateStore) :
    pl.diary <+: (pl.act wake clock store).1.diary := by
  unfold act
  split
  case h_1 => exact List.prefix_append _ _
  case h_2 =>
    dsimp only
    split <;> exact List.prefix_append _ _
  case h_3 =>
    split
    case h_1 => exact List.prefix_append _ _
    case h_2 => exact List.prefix_refl _
    case h_3 => exact List.prefix_append _ _
  case h_4 => exact List.prefix_refl _
  case h_5 => exact List.prefix_refl _

def Player.facts (pl : Player) : ModuleStatus × Phase × RunStatistics × List Happening :=
  (pl.runner.status, pl.runner.phase, pl.runner.stats, pl.diary)

theorem Player.facts_cue (pl : Player) (x : Cue) : (pl.cue x).facts = pl.facts := by
  unfold cue
  split
  case h_1 => split <;> rfl
  case h_2 => rfl
  case h_3 => rfl

theorem Player.wait_cue {pl : Player} (h : ∀ r, pl.wait ≠ .room r) (x : Cue) (r : Report) :
    (pl.cue x).wait ≠ .room r := by
  unfold cue
  split
  case h_1 =>
    split
    · exact nofun
    · exact h r
  case h_2 =>
    dsimp only
    split
    · exact nofun
    · exact h r
  case h_3 => exact h r

namespace Solo

variable {wake : Nat} {script : Nat → Cue} {a : Solo}

theorem name_step : (a.step wake script).player.name = a.player.name := by
  unfold step
  split
  case isTrue => exact (a.player.goesOn_act wake a.clock a.store).name
  case isFalse =>
    split
    case h_1 => rfl
    case h_2 => exact a.player.name_cue _

theorem diary_step : a.player.diary <+: (a.step wake script).player.diary := by
  unfold step
  split
  case isTrue => exact a.player.diary_act wake a.clock a.store
  case isFalse =>
    split
    case h_1 => exact List.prefix_append _ _
    case h_2 => exact (a.player.diary_cue _).symm ▸ List.prefix_refl _

theorem cues_step : a.cues ≤ (a.step wake script).cues := by
  unfold step
  split
  case isTrue => exact le_rfl
  case isFalse =>
    split
    case h_1 => exact le_rfl
    case h_2 => exact Nat.le_succ _

theorem name_run (n : Nat) : (a.run wake script n).player.name = a.player.name := by
  induction n with
  | zero => rfl
  | succ n ih => exact name_step.trans ih

theorem diary_prefix (n : Nat) : a.player.diary <+: (a.run wake script n).player.diary := by
  induction n with
  | zero => exact List.prefix_refl _
  | succ n ih => exact ih.trans diary_step

theorem cues_le (n : Nat) : a.cues ≤ (a.run wake script n).cues := by
  induction n with
  | zero => exact le_rfl
  | succ n ih => exact ih.trans cues_step

theorem run_of_rests (hrests : a.player.Rests a.clock.elapsed) {n : Nat}
    (h : (a.run wake script n).cues = a.cues) : a.run wake script n = a := by
  cases n with
  | zero => rfl
  | succ n =>
    have hcues : (a.step wake script).cues ≤ ((a.step wake script).run wake script n).cues := cues_le n
    have hrun : a.run wake script (n + 1) = (a.step wake script).run wake script n := by
      rw [Nat.add_comm, run_add]
      rfl
    rw [← hrun, h, step_of_rests hrests] at hcues
    exact absurd hcues (Nat.not_succ_le_self _)

theorem facts_of_over (hover : a.player.runner.IsOver) (hwait : ∀ r, a.player.wait ≠ .room r)
    (n : Nat) :
    (a.run wake script n).player.facts = a.player.facts ∧ (a.run wake script n).store = a.store ∧
      ∀ r, (a.run wake script n).player.wait ≠ .room r := by
  induction n with
  | zero => exact ⟨rfl, rfl, hwait⟩
  | succ n ih =>
    obtain ⟨hfacts, hstore, hwait⟩ := ih
    have hphase : (a.run wake script n).player.runner.phase = a.player.runner.phase :=
      congrArg (·.2.1) hfacts
    have hrests : (a.run wake script n).player.Rests (a.run wake script n).clock.elapsed := by
      refine ⟨?_, hwait⟩
      rw [Player.isReady_eq_false_iff, Runner.IsOver, hphase]
      exact fun h => h.1 hover
    rw [run, step_of_rests hrests]
    exact ⟨(Player.facts_cue _ _).trans hfacts, hstore, Player.wait_cue hwait _⟩

end Solo

/-! ## two ensembles -/

def Accepted.solo (x : Accepted) (callback : Accepted → Callback) (origin : Moment)
    (store : Option StateStore) : Solo where
  clock := { origin }
  store
  player := { runner := .fresh x.name x.schedule, callback := callback x }

namespace Ensemble

variable {p q : Publisher} {script : Nat → Cue} {c c' : Ensemble} {i i' : Nat} {pl pl' : Player}
  {name : String}

/-- two ensembles show the same of a module, as far as they have come: at any point what one of them
shows continues what the other one shows, and it is the same once all rest after the same cues, or once
the loop of the module is over in both -/
structure Undisturbed (name : String) (c c' : Ensemble) : Prop where
  deeds : (c.account name).deeds <+: (c'.account name).deeds ∨
    (c'.account name).deeds <+: (c.account name).deeds
  reports : (c.account name).reports <+: (c'.account name).reports ∨
    (c'.account name).reports <+: (c.account name).reports
  settled : c.AtRest → c'.AtRest → c.cues = c'.cues ∨ c.IsOver name ∧ c'.IsOver name →
    c.account name = c'.account name

theorem Undisturbed.symm (h : Undisturbed name c c') : Undisturbed name c' c where
  deeds := h.deeds.symm
  reports := h.reports.symm
  settled hrest hrest' hend :=
    (h.settled hrest' hrest (hend.imp Eq.symm And.symm)).symm

theorem Tidy.player?_eq (h : c.Tidy) (hpl : c.players[i]? = some pl) :
    c.player? pl.name = some pl := by
  cases hfind : c.player? pl.name with
  | none =>
    have hne := List.find?_eq_none.1 hfind pl (List.mem_of_getElem? hpl)
    exact absurd (decide_eq_true rfl) hne
  | some pl' =>
    obtain ⟨j, hj⟩ := List.mem_iff_getElem?.1 (List.mem_of_find?_eq_some hfind)
    have hname := List.find?_some hfind
    rw [decide_eq_true_eq] at hname
    have hij := h.distinct _ _ _ _ hj hpl (by rw [hname])
    rw [hij] at hj
    exact hj.symm.trans hpl

theorem Tidy.handed_prefix (h : c.Tidy) (hpl : c.players[i]? = some pl) :
    c.handedOf pl.name <+: pl.sent := by
  rw [h.own i pl hpl]
  exact ((List.take_prefix _ _).filter _).map _

theorem Tidy.handed_eq (h : c.Tidy) (hpl : c.players[i]? = some pl) (hrest : c.AtRest) :
    c.handedOf pl.name = pl.sent := by
  have hlength := congrArg List.length h.inOrder
  rw [hrest.queue, hrest.inHand, Option.toList_none, List.append_nil, List.append_nil, List.length_map,
    List.length_map] at hlength
  rw [handedOf, ← hlength, List.take_length, h.own i pl hpl]

theorem Tidy.account_eq (h : c.Tidy) (hpl : c.players[i]? = some pl) :
    c.account pl.name = {
      status := some pl.runner.status
      stats := if pl.runner.phase = .stopped then some pl.runner.stats else none
      deeds := pl.deeds
      saved := c.store.bind (·.find? (fileName pl.name))
      reports := c.handedOf pl.name } := by
  rw [account, h.player?_eq hpl]
  rfl

theorem account_congr (h : c.Tidy) (h' : c'.Tidy) (hpl : c.players[i]? = some pl)
    (hpl' : c'.players[i']? = some pl') (hname : pl.name = pl'.name) (hfacts : pl.facts = pl'.facts)
    (hown : c.store.map (own pl.name) = c'.store.map (own pl.name)) (hrest : c.AtRest)
    (hrest' : c'.AtRest) : c.account pl.name = c'.account pl.name := by
  obtain ⟨hstatus, hfacts⟩ := Prod.mk.inj hfacts
  obtain ⟨hphase, hfacts⟩ := Prod.mk.inj hfacts
  obtain ⟨hstats, hdiary⟩ := Prod.mk.inj hfacts
  have haccount := h'.account_eq hpl'
  rw [h'.handed_eq hpl' hrest', ← hname] at haccount
  rw [h.account_eq hpl, haccount, h.handed_eq hpl hrest, saved_of_own hown, hstatus, hphase, hstats,
    Player.deeds, Player.deeds, Player.sent, Player.sent, hdiary]

theorem Undisturbed.of_shows {a : Solo} {wake n : Nat} (h : c.Tidy) (h' : c'.Tidy)
    (hshows : c.Shows i a) (hshows' : c'.Shows i' (a.run wake script n)) :
    Undisturbed a.player.name c c' := by
  have hname : (a.run wake script n).player.name = a.player.name := Solo.name_run n
  have haccount := h.account_eq hshows.player
  have haccount' := h'.account_eq hshows'.player
  have hdiary : a.player.diary <+: (a.run wake script n).player.diary := Solo.diary_prefix n
  have hsent : a.player.sent <+: (a.run wake script n).player.sent := hdiary.filterMap _
  have hhanded := (h.handed_prefix hshows.player).trans hsent
  have hhanded' := h'.handed_prefix hshows'.player
  have hown' := hshows'.own
  rw [hname] at haccount' hhanded' hown'
  refine ⟨?_, ?_, fun hrest hrest' hend => ?_⟩
  · rw [haccount, haccount']
    exact .inl (hdiary.filterMap _)
  · rw [haccount, haccount']
    exact List.prefix_or_prefix_of_prefix hhanded hhanded'
  · have hrests := hrest.players _ (List.mem_of_getElem? hshows.player)
    rw [hshows.clock] at hrests
    have hsame : (a.run wake script n).player.facts = a.player.facts ∧
        (a.run wake script n).store = a.store := by
      rcases hend with hcues | ⟨hover, -⟩
      · rw [hshows.cues, hshows'.cues] at hcues
        rw [Solo.run_of_rests hrests hcues.symm]
        exact ⟨rfl, rfl⟩
      · have hover := hover _ (h.player?_eq hshows.player)
        obtain ⟨hfacts, hstore, -⟩ := Solo.facts_of_over hover hrests.2 n
        exact ⟨hfacts, hstore⟩
    refine account_congr h h' hshows.player hshows'.player hname.symm hsame.1.symm ?_ hrest hrest'
    rw [hshows.own, hown', hsame.2]

section
variable (settings : AgentSettings) {accepted accepted' : List Accepted} (callback : Accepted → Callback)
  (origin : Moment) (store : Option StateStore)

theorem shows_gather {x : Accepted} (hx : accepted[i]? = some x) :
    (gather settings accepted callback origin store).Shows i (x.solo callback origin store) where
  player := by
    rw [gather, List.getElem?_map, hx]
    rfl
  clock := rfl
  cues := rfl
  own := rfl

/-- any two ensembles with a module show the same of it, whatever their other modules are -/
theorem undisturbed (hp : p.Steady) (hq : q.Steady)
    (hfiles : (accepted.map fun x => fileName x.name).Nodup)
    (hfiles' : (accepted'.map fun x => fileName x.name).Nodup)
    (course : (gather settings accepted callback origin store).Course p script c)
    (course' : (gather settings accepted' callback origin store).Course q script c')
    {x : Accepted} (hx : x ∈ accepted) (hx' : x ∈ accepted') : Undisturbed x.name c c' := by
  obtain ⟨i, hi⟩ := List.mem_iff_getElem?.1 hx
  obtain ⟨i', hi'⟩ := List.mem_iff_getElem?.1 hx'
  have hstart := Tidy.gather settings callback origin store hfiles
  have hstart' := Tidy.gather settings callback origin store hfiles'
  obtain ⟨-, n, hshows⟩ := course.shows hp hstart (shows_gather settings callback origin store hi)
  obtain ⟨-, n', hshows'⟩ := course'.shows hq hstart' (shows_gather settings callback origin store hi')
  have hname : ∀ n, ((x.solo callback origin store).run (Agent.wake settings) script n).player.name =
      x.name := fun n => Solo.name_run n
  have htidy := course.tidy hp hstart
  have htidy' := course'.tidy hq hstart'
  rcases Nat.le_total n n' with hle | hle
  · obtain ⟨k, rfl⟩ := Nat.exists_eq_add_of_le hle
    rw [Solo.run_add] at hshows'
    exact hname n ▸ .of_shows htidy htidy' hshows hshows'
  · obtain ⟨k, rfl⟩ := Nat.exists_eq_add_of_le hle
    rw [Solo.run_add] at hshows
    exact hname n' ▸ (Undisturbed.of_shows htidy' htidy hshows' hshows).symm

end

end Ensemble

end Rota
