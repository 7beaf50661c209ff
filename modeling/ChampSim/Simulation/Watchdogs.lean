/-
The two watchdogs of a phase.

Between two livelock checks every core of a phase that goes on has retired more
than a hundredth of the period, so the phase ends. A phase is aborted only when
the back end of no core has changed for the passes of a deadlock, or when some
core has retired too little since the last livelock check.
-/

import ChampSim.Simulation.Completion

set_option autoImplicit false

namespace ChampSim.Simulation

open Transition
open ChampSim.Core (O3Cpu)

variable {Module Others Source : Type} {parts : Parts Module Others Source}
  {info : PhaseInfo} {begun : System Module Others Source}

/-- What a core retires at least between two checks that it passes. -/
def livelockLeast : Nat := 100001

def System.backEnds (system : System Module Others Source) : List Core.BackEnd :=
  system.cpus.map (fun one => one.core.backEnd)

theorem simInstr_mono {progress : Int} {one after : Cpu Module}
    (cycled : Cycled progress one after) : one.simInstr ≤ after.simInstr := by
  have retired := cycled.numRetired
  have begins : after.beginPhaseInstr = one.beginPhaseInstr :=
    (congrArg Cpu.beginPhaseInstr cycled.core).trans rfl
  unfold Cpu.simInstr
  rw [begins]
  omega

/-- Every value of a list is at least what stood in its place. -/
def Rises (earlier later : List Int) : Prop :=
  ∀ (place : Nat) (value : Int), later[place]? = some value →
    ∃ before, earlier[place]? = some before ∧ before ≤ value

theorem Rises.refl (values : List Int) : Rises values values :=
  fun _place value present => ⟨value, present, Int.le_refl value⟩

theorem Rises.trans {first second third : List Int} (early : Rises first second)
    (late : Rises second third) : Rises first third := by
  intro place value present
  obtain ⟨middle, isMiddle, more⟩ := late place value present
  obtain ⟨before, isBefore, less⟩ := early place middle isMiddle
  exact ⟨before, isBefore, Int.le_trans less more⟩

theorem allCycled_simInstrs {progress : Int} {system next : System Module Others Source}
    (cycled : AllCycled progress system.cpus next.cpus) :
    Rises system.simInstrs next.simInstrs := by
  intro place value present
  unfold System.simInstrs at present ⊢
  rw [List.getElem?_map] at present ⊢
  obtain ⟨after, isAfter, same⟩ := Option.map_eq_some_iff.mp present
  rcases cycled.at place with ⟨_, none⟩ | ⟨one, other, isOne, isOther, here⟩
  · rw [none] at isAfter
    cases isAfter
  · rw [isOther] at isAfter
    cases isAfter
    rw [isOne, ← same]
    exact ⟨one.simInstr, rfl, simInstr_mono here⟩

theorem allCycled_backEnds {system next : System Module Others Source}
    (cycled : AllCycled 0 system.cpus next.cpus) : next.backEnds = system.backEnds := by
  unfold System.backEnds
  apply List.ext_getElem?
  intro place
  rw [List.getElem?_map, List.getElem?_map]
  rcases cycled.at place with ⟨none, noneAfter⟩ | ⟨one, after, isOne, isAfter, here⟩
  · rw [none, noneAfter]
  · rw [isOne, isAfter]
    exact congrArg some (here.idle rfl)

theorem endPhases_map {Seen : Type} (parts : Parts Module Others Source) (see : Cpu Module → Seen)
    (blind : ∀ one after : Cpu Module, after.core = one.core →
      after.beginPhaseInstr = one.beginPhaseInstr → see after = see one)
    (finished : List Nat) (system : System Module Others Source) :
    (finished.foldl (System.endPhase parts) system).cpus.map see = system.cpus.map see := by
  induction finished generalizing system with
  | nil => rfl
  | cons cpu rest ih =>
      refine (ih _).trans ?_
      apply List.ext_getElem?
      intro place
      rw [List.getElem?_map, List.getElem?_map, System.endPhase_at]
      cases system.cpus[place]? with
      | none => rfl
      | some one =>
          have closed := Cpu.endPhase_closed (parts.config place) (decide (cpu = place)) one
          exact congrArg some (blind one _ closed.core closed.beginPhaseInstr)

namespace Phase

variable {phase next : Phase Module Others Source} {order : List Part}

/-- What a pass without an abort does to what the watchdogs see. -/
structure Watches (phase : Phase Module Others Source) (progress : Int)
    (next : Phase Module Others Source) : Prop where
  stalledCycle : next.stalledCycle = phase.countStalled progress
  moving : phase.countStalled progress < deadlockCycle
  livelock : phase.checkLivelock next.system.simInstrs =
    (false, next.livelockTimer, next.livelockInstr)
  retired : Rises phase.system.simInstrs next.system.simInstrs
  backEnds : progress = 0 → next.system.backEnds = phase.system.backEnds

theorem step_watches (stepped : phase.step parts info order = some next)
    (alive : next.aborted = false) : ∃ progress, phase.Watches progress next := by
  obtain ⟨_, _, progress, system, cycled, aborted | goesOn⟩ := step_cases stepped
  · rw [aborted.2] at alive
    cases alive
  · have all := System.doCycle_cycled info.traceIndex order progress cycled
    have simInstrs : next.system.simInstrs = system.simInstrs := by
      rw [goesOn.2]
      exact endPhases_map parts Cpu.simInstr (fun one after core begins => by
        unfold Cpu.simInstr
        rw [core, begins]) _ system
    have backEnds : next.system.backEnds = system.backEnds := by
      rw [goesOn.2]
      exact endPhases_map parts (fun one => one.core.backEnd) (fun one after core _begins => by
        rw [core]) _ system
    have quiet : (phase.checkLivelock system.simInstrs).1 = false :=
      Bool.not_eq_true _ |>.mp (fun triggered => goesOn.1 (Or.inr triggered))
    refine ⟨progress, ?_, ?_, ?_, ?_, ?_⟩
    · rw [goesOn.2]
    · exact Nat.not_le.mp (fun deadlock => goesOn.1 (Or.inl deadlock))
    · rw [simInstrs, goesOn.2, ← quiet]
    · rw [simInstrs]
      exact allCycled_simInstrs all
    · intro idle
      rw [idle] at all
      rw [backEnds]
      exact allCycled_backEnds all

theorem step_length (stepped : phase.step parts info order = some next) (count : Nat)
    (flags : phase.phaseComplete.length = count) (cores : phase.system.cpus.length = count) :
    next.phaseComplete.length = count ∧ next.system.cpus.length = count := by
  obtain ⟨_, _, progress, system, cycled, ends⟩ := step_cases stepped
  have cpus : system.cpus.length = count :=
    (System.doCycle_cycled info.traceIndex order progress cycled).2.length_eq.symm.trans cores
  rcases ends with aborted | goesOn
  · rw [aborted.2]
    exact ⟨flags, cpus⟩
  · rw [goesOn.2]
    have ended := congrArg List.length (endPhases_map parts (fun _one => ()) (fun _ _ _ _ => rfl)
      (finishing parts phase.phaseComplete (phase.nextComplete parts info system)) system)
    rw [List.length_map, List.length_map] at ended
    refine ⟨?_, ended.trans cpus⟩
    change (List.zipWith _ _ _).length = _
    unfold System.simInstrs
    rw [List.length_zipWith, List.length_map, flags, cpus, Nat.min_self]

end Phase

/-! ### The livelock check -/

/-- A core that passes a check has retired more than a hundredth of the period. -/
theorem livelockLeast_le {earlier later : Int} (retired : earlier ≤ later)
    (passes : isLivelock later (earlier % 2 ^ 64).toNat = false) :
    earlier + livelockLeast ≤ later := by
  unfold isLivelock livelockRetired at passes
  have slow := of_decide_eq_false passes
  have word : (2 : Int) ^ 64 = 18446744073709551616 := rfl
  unfold livelockPeriod at slow
  unfold livelockLeast
  rw [word] at slow
  omega

structure Checked (parts : Parts Module Others Source) (info : PhaseInfo)
    (begun : System Module Others Source) (labels : List (List Part))
    (reached : Phase Module Others Source) (checks : Nat) (earlier since : List (List Part))
    (before : Phase Module Others Source) : Prop where
  split : labels = earlier ++ since
  length : earlier.length = checks * livelockPeriod
  timer : since.length = reached.livelockTimer
  within : reached.livelockTimer < livelockPeriod
  ran : (passes parts info).run (Phase.start parts info begun) earlier = some before
  livelockInstr : reached.livelockInstr =
    before.system.simInstrs.map (fun simInstr => (simInstr % 2 ^ 64).toNat)
  least : ∀ simInstr ∈ before.system.simInstrs, (checks * livelockLeast : Int) ≤ simInstr
  retired : Rises before.system.simInstrs reached.system.simInstrs

theorem start_simInstrs (parts : Parts Module Others Source) (info : PhaseInfo)
    (begun : System Module Others Source) :
    (Phase.start parts info begun).system.simInstrs = List.replicate begun.cpus.length 0 := by
  apply List.ext_getElem?
  intro place
  unfold System.simInstrs
  rw [List.getElem?_map, List.getElem?_replicate]
  refine (congrArg (Option.map Cpu.simInstr)
    (System.beginPhase_at parts info.isWarmup begun place)).trans ?_
  by_cases within : place < begun.cpus.length
  · rw [if_pos within, List.getElem?_eq_getElem within]
    exact congrArg some (Int.sub_self _)
  · rw [if_neg within, List.getElem?_eq_none (Nat.not_lt.mp within)]
    rfl

theorem start_checked : Checked parts info begun [] (Phase.start parts info begun) 0 [] []
    (Phase.start parts info begun) := by
  refine ⟨rfl, (Nat.zero_mul _).symm, rfl, Nat.succ_pos _, rfl, ?_, ?_, ?_⟩
  · rw [start_simInstrs, List.map_replicate]
    rfl
  · intro simInstr member
    rw [start_simInstrs] at member
    rw [List.eq_of_mem_replicate member]
    decide
  · exact .refl _

theorem any_zipWith_false {First Second : Type} {test : First → Second → Bool}
    {items : List First} {others : List Second} (none : (List.zipWith test items others).any id = false)
    (place : Nat) (item : First) (other : Second) (isItem : items[place]? = some item)
    (isOther : others[place]? = some other) : test item other = false := by
  rw [List.any_eq_false] at none
  have member : test item other ∈ List.zipWith test items others := by
    apply List.mem_of_getElem? (i := place)
    rw [List.getElem?_zipWith, isItem, isOther]
  exact Bool.not_eq_true _ |>.mp (none _ member)

theorem Checked.step {labels : List (List Part)} {reached next : Phase Module Others Source}
    {order : List Part} {checks : Nat} {earlier since : List (List Part)}
    {before : Phase Module Others Source}
    (checked : Checked parts info begun labels reached checks earlier since before)
    (ran : (passes parts info).run (Phase.start parts info begun) (labels ++ [order]) = some next)
    (stepped : reached.step parts info order = some next) (alive : next.aborted = false) :
    ∃ checks earlier since before,
      Checked parts info begun (labels ++ [order]) next checks earlier since before := by
  obtain ⟨progress, watches⟩ := Phase.step_watches stepped alive
  have livelock := watches.livelock
  unfold Phase.checkLivelock at livelock
  have retired := checked.retired.trans watches.retired
  split at livelock
  · rename_i due
    have quiet := congrArg Prod.fst livelock
    have timer := congrArg (fun result => result.2.1) livelock
    have instrs := congrArg (fun result => result.2.2) livelock
    dsimp only at quiet timer instrs
    refine ⟨checks + 1, labels ++ [order], [], next, ?_, ?_, ?_, ?_, ran, instrs.symm, ?_, ?_⟩
    · rw [List.append_nil]
    · have within := checked.within
      have length := checked.length
      have sinceLength := checked.timer
      rw [List.length_append, List.length_singleton, checked.split, List.length_append, length,
        Nat.add_mul]
      omega
    · exact timer
    · rw [← timer]
      decide
    · intro simInstr member
      obtain ⟨place, isLater⟩ := List.mem_iff_getElem?.mp member
      obtain ⟨old, isOld, less⟩ := retired place simInstr isLater
      have passes := any_zipWith_false quiet place simInstr (old % 2 ^ 64).toNat isLater (by
        rw [checked.livelockInstr, List.getElem?_map, isOld]
        rfl)
      have more := livelockLeast_le less passes
      have least := checked.least old (List.mem_of_getElem? isOld)
      push_cast
      rw [Int.add_mul, Int.one_mul]
      omega
    · exact .refl _
  · rename_i early
    have timer := congrArg (fun result => result.2.1) livelock
    have instrs := congrArg (fun result => result.2.2) livelock
    dsimp only at timer instrs
    refine ⟨checks, earlier, since ++ [order], before, ?_, checked.length, ?_, ?_, checked.ran, ?_,
      checked.least, retired⟩
    · rw [checked.split, List.append_assoc]
    · rw [List.length_append, List.length_singleton, checked.timer, timer]
    · rw [← timer]
      exact Nat.not_le.mp early
    · rw [← instrs]
      exact checked.livelockInstr

theorem passes_checked (labels : List (List Part)) (reached : Phase Module Others Source)
    (ran : (passes parts info).run (Phase.start parts info begun) labels = some reached)
    (alive : reached.aborted = false) :
    ∃ checks earlier since before,
      Checked parts info begun labels reached checks earlier since before := by
  induction labels using List.reverseRecOn generalizing reached with
  | nil =>
      cases ran
      exact ⟨0, [], [], _, start_checked⟩
  | append_singleton labels order ih =>
      obtain ⟨middle, before, stepped⟩ := (Machine.run_concat _ _ _ _ _).mp ran
      obtain ⟨_, _, _, _, checked⟩ := ih middle before (Phase.step_alive stepped)
      exact checked.step ran stepped alive

/-! ### Every phase ends -/

theorem start_length (parts : Parts Module Others Source) (info : PhaseInfo)
    (begun : System Module Others Source) :
    (Phase.start parts info begun).phaseComplete.length = begun.cpus.length ∧
      (Phase.start parts info begun).system.cpus.length = begun.cpus.length := by
  refine ⟨List.length_replicate, ?_⟩
  have started := congrArg List.length (start_simInstrs parts info begun)
  unfold System.simInstrs at started
  rw [List.length_replicate, List.length_map] at started
  exact started

theorem passes_flags (labels : List (List Part)) (reached : Phase Module Others Source)
    (ran : (passes parts info).run (Phase.start parts info begun) labels = some reached) :
    reached.phaseComplete.length = begun.cpus.length ∧
      reached.system.cpus.length = begun.cpus.length :=
  (passes parts info).run_invariant
    (fun phase => phase.phaseComplete.length = begun.cpus.length ∧
      phase.system.cpus.length = begun.cpus.length)
    (fun _phase _order _next kept stepped =>
      Phase.step_length stepped begun.cpus.length kept.1 kept.2)
    labels _ reached (start_length parts info begun) ran

theorem passes_complete (labels : List (List Part)) (reached : Phase Module Others Source)
    (ran : (passes parts info).run (Phase.start parts info begun) labels = some reached)
    (alive : reached.aborted = false) (some' : labels ≠ [])
    (enough : ∀ simInstr ∈ reached.system.simInstrs, info.length ≤ simInstr) :
    reached.isComplete = true := by
  obtain ⟨flags, -⟩ := passes_flags labels reached ran
  unfold Phase.isComplete
  rw [List.all_eq_true]
  intro flag member
  obtain ⟨cpu, flagged⟩ := List.mem_iff_getElem?.mp member
  have within := (List.getElem?_eq_some_iff.mp flagged).1
  rw [flags] at within
  obtain ⟨known, one, tracked⟩ := passes_tracked labels reached ran alive cpu _
    (List.getElem?_eq_getElem within)
  have same := tracked.flagged
  rw [flagged, Option.some.injEq] at same
  subst same
  cases flag with
  | true => rfl
  | false =>
      have short := tracked.unfinished rfl labels (List.prefix_refl _) some' reached one ran
        tracked.present
      have long := enough one.simInstr
        (List.mem_map_of_mem (List.mem_of_getElem? tracked.present))
      unfold Phase.reachesEnd at short
      rw [decide_eq_true long, Bool.or_true] at short
      cases short

def mostPasses (info : PhaseInfo) : Nat :=
  livelockPeriod * ((info.length - 1).toNat / livelockLeast + 1)

/-- The loop of every phase ends: a phase that is not aborted goes through a
livelock check every ten million passes, and every check adds to what each core
has retired. -/
theorem passes_length (parts : Parts Module Others Source) (info : PhaseInfo)
    (begun : System Module Others Source) (labels : List (List Part))
    (reached : Phase Module Others Source)
    (ran : (passes parts info).run (Phase.start parts info begun) labels = some reached) :
    labels.length ≤ mostPasses info := by
  by_contra more
  have split := List.take_append_drop (mostPasses info) labels
  have took : (labels.take (mostPasses info)).length = mostPasses info := by
    rw [List.length_take]
    omega
  rw [← split, Machine.run_append] at ran
  obtain ⟨middle, toMiddle, onwards⟩ := Option.bind_eq_some_iff.mp ran
  cases left : labels.drop (mostPasses info) with
  | nil =>
      have none := List.drop_eq_nil_iff.mp left
      omega
  | cons order rest =>
      rw [left] at onwards
      obtain ⟨next, stepped, -⟩ := Option.bind_eq_some_iff.mp onwards
      obtain ⟨alive, incomplete, -⟩ := Phase.step_cases stepped
      obtain ⟨checks, earlier, since, before, checked⟩ := passes_checked _ middle toMiddle alive
      have enough : checks = (info.length - 1).toNat / livelockLeast + 1 := by
        have lengths := congrArg List.length checked.split
        rw [took, List.length_append, checked.length, checked.timer] at lengths
        have within := checked.within
        unfold mostPasses livelockPeriod at lengths
        unfold livelockPeriod at within
        omega
      have complete := passes_complete _ middle toMiddle alive (by
        intro none
        rw [none] at took
        exact Nat.ne_of_lt (Nat.mul_pos (Nat.succ_pos _) (Nat.succ_pos _)) took) (by
        intro simInstr member
        obtain ⟨place, isLater⟩ := List.mem_iff_getElem?.mp member
        obtain ⟨old, isOld, less⟩ := checked.retired place simInstr isLater
        have least := checked.least old (List.mem_of_getElem? isOld)
        rw [enough] at least
        unfold livelockLeast at least
        omega)
      rw [incomplete] at complete
      cases complete

private theorem smallSystem_passes :
    ((passes (smallParts 2) smallPhase).run (Phase.start (smallParts 2) smallPhase smallSystem)
      (List.replicate 3 smallOrder)).isSome = true := by
  decide +kernel

theorem passes_length_smallSystem :
    ∃ reached, (passes (smallParts 2) smallPhase).run
        (Phase.start (smallParts 2) smallPhase smallSystem) (List.replicate 3 smallOrder) =
          some reached ∧
      (List.replicate 3 smallOrder).length ≤ mostPasses smallPhase := by
  obtain ⟨reached, ran⟩ := Option.isSome_iff_exists.mp smallSystem_passes
  exact ⟨reached, ran, passes_length (smallParts 2) smallPhase smallSystem _ reached ran⟩

/-! ### When a phase is aborted -/

/-- After each of these passes the back ends of the cores are what they were before. -/
def Still (parts : Parts Module Others Source) (info : PhaseInfo)
    (begun : System Module Others Source) (earlier since : List (List Part))
    (before : Phase Module Others Source) : Prop :=
  ∀ passed, passed <+: since → ∀ middle,
    (passes parts info).run (Phase.start parts info begun) (earlier ++ passed) = some middle →
    middle.system.backEnds = before.system.backEnds

theorem still_nil {earlier : List (List Part)} {before : Phase Module Others Source}
    (ran : (passes parts info).run (Phase.start parts info begun) earlier = some before) :
    Still parts info begun earlier [] before := by
  intro passed isPrefix middle toMiddle
  rw [List.prefix_nil.mp isPrefix, List.append_nil, ran] at toMiddle
  cases toMiddle
  rfl

theorem Still.append {earlier since : List (List Part)} {order : List Part}
    {before reached : Phase Module Others Source}
    (still : Still parts info begun earlier since before)
    (ran : (passes parts info).run (Phase.start parts info begun)
      (earlier ++ (since ++ [order])) = some reached)
    (same : reached.system.backEnds = before.system.backEnds) :
    Still parts info begun earlier (since ++ [order]) before := by
  intro passed isPrefix middle toMiddle
  rcases List.prefix_concat_iff.mp isPrefix with whole | part
  · rw [whole, ran] at toMiddle
    cases toMiddle
    exact same
  · exact still passed part middle toMiddle

structure Stalled (parts : Parts Module Others Source) (info : PhaseInfo)
    (begun : System Module Others Source) (labels : List (List Part))
    (reached : Phase Module Others Source) (earlier stalled : List (List Part))
    (before : Phase Module Others Source) : Prop where
  split : labels = earlier ++ stalled
  length : stalled.length = reached.stalledCycle
  within : reached.stalledCycle < deadlockCycle
  ran : (passes parts info).run (Phase.start parts info begun) earlier = some before
  still : Still parts info begun earlier stalled before

theorem Stalled.backEnds {labels : List (List Part)} {reached : Phase Module Others Source}
    {earlier stalled : List (List Part)} {before : Phase Module Others Source}
    (known : Stalled parts info begun labels reached earlier stalled before)
    (ran : (passes parts info).run (Phase.start parts info begun) labels = some reached) :
    reached.system.backEnds = before.system.backEnds := by
  rw [known.split] at ran
  exact known.still stalled (List.prefix_refl _) reached ran

theorem passes_stalled (labels : List (List Part)) (reached : Phase Module Others Source)
    (ran : (passes parts info).run (Phase.start parts info begun) labels = some reached)
    (alive : reached.aborted = false) :
    ∃ earlier stalled before, Stalled parts info begun labels reached earlier stalled before := by
  induction labels using List.reverseRecOn generalizing reached with
  | nil =>
      cases ran
      exact ⟨[], [], _, rfl, rfl, Nat.succ_pos _, rfl, still_nil rfl⟩
  | append_singleton labels order ih =>
      obtain ⟨middle, toMiddle, stepped⟩ := (Machine.run_concat _ _ _ _ _).mp ran
      obtain ⟨progress, watches⟩ := Phase.step_watches stepped alive
      have counted := watches.stalledCycle
      have within := watches.moving
      rw [← counted] at within
      unfold Phase.countStalled at counted
      by_cases idle : progress = 0
      · obtain ⟨earlier, stalled, before, known⟩ :=
          ih middle toMiddle (Phase.step_alive stepped)
        rw [if_pos idle] at counted
        rw [known.split, List.append_assoc] at ran
        refine ⟨earlier, stalled ++ [order], before, ?_, ?_, within, known.ran, ?_⟩
        · rw [known.split, List.append_assoc]
        · rw [List.length_append, List.length_singleton, known.length, counted]
        · exact known.still.append ran
            ((watches.backEnds idle).trans (known.backEnds toMiddle))
      · rw [if_neg idle] at counted
        exact ⟨labels ++ [order], [], reached, (List.append_nil _).symm, counted.symm, within, ran,
          still_nil ran⟩

theorem exists_zipWith_true {First Second : Type} {test : First → Second → Bool}
    {items : List First} {others : List Second}
    (some' : (List.zipWith test items others).any id = true) :
    ∃ (place : Nat) (item : First) (other : Second), items[place]? = some item ∧
      others[place]? = some other ∧ test item other = true := by
  obtain ⟨result, member, holds⟩ := List.any_eq_true.mp some'
  obtain ⟨place, found⟩ := List.mem_iff_getElem?.mp member
  rw [List.getElem?_zipWith_eq_some] at found
  obtain ⟨item, other, isItem, isOther, same⟩ := found
  exact ⟨place, item, other, isItem, isOther, same.trans holds⟩

/-- What an aborted phase has seen: a deadlock, or a core in a livelock. -/
def Aborted (parts : Parts Module Others Source) (info : PhaseInfo)
    (begun : System Module Others Source) (labels : List (List Part))
    (reached : Phase Module Others Source) : Prop :=
  ∃ earlier since before, labels = earlier ++ since ∧
    (passes parts info).run (Phase.start parts info begun) earlier = some before ∧
    ((since.length = deadlockCycle ∧ Still parts info begun earlier since before) ∨
      (since.length = livelockPeriod ∧ ∃ (cpu : Nat) (one later : Int),
        before.system.simInstrs[cpu]? = some one ∧ reached.system.simInstrs[cpu]? = some later ∧
        one ≤ later ∧ (later - one) % 2 ^ 64 < livelockLeast))

theorem livelock_retired {earlier later : Int}
    (livelock : isLivelock later (earlier % 2 ^ 64).toNat = true) :
    (later - earlier) % 2 ^ 64 < livelockLeast := by
  unfold isLivelock livelockRetired at livelock
  have slow := of_decide_eq_true livelock
  have word : (2 : Int) ^ 64 = 18446744073709551616 := rfl
  unfold livelockPeriod at slow
  unfold livelockLeast
  rw [word] at slow ⊢
  omega

/-- A phase is aborted only when the back end of no core has changed in any of the
last 500 passes, or when over the last ten million some core has retired at most
a hundredth of that. -/
theorem passes_abort (parts : Parts Module Others Source) (info : PhaseInfo)
    (begun : System Module Others Source) (labels : List (List Part))
    (reached : Phase Module Others Source)
    (ran : (passes parts info).run (Phase.start parts info begun) labels = some reached)
    (aborted : reached.aborted = true) : Aborted parts info begun labels reached := by
  induction labels using List.reverseRecOn with
  | nil =>
      cases ran
      cases aborted
  | append_singleton labels order _ih =>
      obtain ⟨middle, toMiddle, stepped⟩ := (Machine.run_concat _ _ _ _ _).mp ran
      obtain ⟨alive, _, progress, system, cycled, ends | goesOn⟩ := Phase.step_cases stepped
      · have all := System.doCycle_cycled info.traceIndex order progress cycled
        rw [ends.2]
        rcases ends.1 with deadlock | livelock
        · obtain ⟨earlier, stalled, before, known⟩ := passes_stalled labels middle toMiddle alive
          unfold Phase.countStalled at deadlock
          split at deadlock
          · rename_i idle
            rw [idle] at all
            rw [known.split, List.append_assoc, ends.2] at ran
            refine ⟨earlier, stalled ++ [order], before, ?_, known.ran, Or.inl ⟨?_, ?_⟩⟩
            · rw [known.split, List.append_assoc]
            · have within := known.within
              rw [List.length_append, List.length_singleton, known.length]
              omega
            · exact known.still.append ran
                ((allCycled_backEnds all).trans (known.backEnds toMiddle))
          · cases deadlock
        · obtain ⟨checks, earlier, since, before, checked⟩ :=
            passes_checked labels middle toMiddle alive
          unfold Phase.checkLivelock at livelock
          split at livelock
          · rename_i due
            obtain ⟨cpu, later, word, isLater, isWord, slow⟩ := exists_zipWith_true livelock
            obtain ⟨one, isOne, less⟩ :=
              (checked.retired.trans (allCycled_simInstrs all)) cpu later isLater
            rw [checked.livelockInstr, List.getElem?_map, isOne] at isWord
            cases isWord
            refine ⟨earlier, since ++ [order], before, ?_, checked.ran, Or.inr ⟨?_, cpu, one, later,
              isOne, isLater, less, livelock_retired slow⟩⟩
            · rw [checked.split, List.append_assoc]
            · have within := checked.within
              rw [List.length_append, List.length_singleton, checked.timer]
              omega
          · cases livelock
      · rw [goesOn.2] at aborted
        cases aborted

private theorem smallSystem_stalls :
    ((passes (smallParts 0) smallPhase).run (Phase.start (smallParts 0) smallPhase smallSystem)
      (List.replicate 500 smallOrder)).any (fun reached => reached.aborted) = true := by
  decide +kernel

/-- A core that fetches nothing. -/
theorem passes_abort_smallSystem :
    ∃ reached, (passes (smallParts 0) smallPhase).run
        (Phase.start (smallParts 0) smallPhase smallSystem) (List.replicate 500 smallOrder) =
          some reached ∧
      Aborted (smallParts 0) smallPhase smallSystem (List.replicate 500 smallOrder) reached := by
  obtain ⟨reached, ran, aborted⟩ := (Option.any_eq_true _ _).mp smallSystem_stalls
  exact ⟨reached, ran, passes_abort (smallParts 0) smallPhase smallSystem _ reached ran aborted⟩

end ChampSim.Simulation
