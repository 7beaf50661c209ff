/-
The clocks of a system, over whole runs.

Every operable has a clock of its own, and a cycle of the simulator moves it
until it has reached the global clock. All else that a system does leaves the
clocks alone, so its clocks are those of an abstract machine that only moves
clocks.
-/

import ChampSim.Simulation.Phase

set_option autoImplicit false

namespace ChampSim.Simulation

open Transition
open ChampSim.Core (O3Cpu)

/-- The global clock, those of the cores, and the periods and clocks of the other operables. -/
structure Clocks where
  now : Nat
  cores : List Nat
  others : List (Nat × Nat)

namespace Clocks

variable (corePeriod : Nat → Nat)

def view (clocks : Clocks) : List Part :=
  (List.range clocks.cores.length).map Part.core ++ (List.range clocks.others.length).map Part.other

def period (clocks : Clocks) : Part → Nat
  | .core cpu => corePeriod cpu
  | .other index => (clocks.others[index]?).elim 1 Prod.fst

def time (clocks : Clocks) : Part → Nat
  | .core cpu => (clocks.cores[cpu]?).getD 0
  | .other index => (clocks.others[index]?).elim 0 Prod.snd

def advance (clocks : Clocks) : Part → Clocks
  | .core cpu => { clocks with cores := clocks.cores.modify cpu (fun time => time + corePeriod cpu) }
  | .other index =>
      { clocks with others := clocks.others.modify index (fun clock => (clock.1, clock.2 + clock.1)) }

theorem mem_view_core {clocks : Clocks} {cpu : Nat} :
    Part.core cpu ∈ clocks.view ↔ cpu < clocks.cores.length := by
  simp [view]

theorem mem_view_other {clocks : Clocks} {index : Nat} :
    Part.other index ∈ clocks.view ↔ index < clocks.others.length := by
  simp [view]

theorem view_nodup (clocks : Clocks) : clocks.view.Nodup := by
  unfold view
  rw [List.nodup_append]
  refine ⟨List.nodup_range.map (fun _ _ same => Part.core.inj same),
    List.nodup_range.map (fun _ _ same => Part.other.inj same), ?_⟩
  intro first member second among same
  obtain ⟨cpu, -, isCore⟩ := List.mem_map.mp member
  obtain ⟨index, -, isOther⟩ := List.mem_map.mp among
  rw [← isCore, ← isOther] at same
  cases same

/-- The clocks after those of some operables have moved. -/
structure Moves (before after : Clocks) (moved : List Part) : Prop where
  now : after.now = before.now
  cores : after.cores.length = before.cores.length
  periods : after.others.map Prod.fst = before.others.map Prod.fst
  time : ∀ part, part ∉ moved → after.time part = before.time part

variable {before middle after : Clocks} {moved others : List Part}

theorem Moves.refl (clocks : Clocks) (moved : List Part) : Moves clocks clocks moved :=
  ⟨rfl, rfl, rfl, fun _part _other => rfl⟩

theorem Moves.trans (first : Moves before middle moved) (second : Moves middle after others) :
    Moves before after (moved ++ others) := by
  refine ⟨second.now.trans first.now, second.cores.trans first.cores,
    second.periods.trans first.periods, ?_⟩
  intro part other
  rw [List.mem_append, not_or] at other
  rw [second.time part other.2, first.time part other.1]

theorem Moves.view (moves : Moves before after moved) : after.view = before.view := by
  have same := congrArg List.length moves.periods
  rw [List.length_map, List.length_map] at same
  unfold Clocks.view
  rw [moves.cores, same]

theorem Moves.period (moves : Moves before after moved) (part : Part) :
    after.period corePeriod part = before.period corePeriod part := by
  cases part with
  | core cpu => rfl
  | other index =>
      have through : ∀ clocks : Clocks, clocks.period corePeriod (.other index) =
          ((clocks.others.map Prod.fst)[index]?).getD 1 := by
        intro clocks
        change (clocks.others[index]?).elim 1 Prod.fst = _
        rw [List.getElem?_map]
        cases clocks.others[index]? <;> rfl
      rw [through, through, moves.periods]

theorem advance_moves (clocks : Clocks) (part : Part) :
    Moves clocks (clocks.advance corePeriod part) [part] := by
  cases part with
  | core cpu =>
      refine ⟨rfl, List.length_modify .., rfl, ?_⟩
      intro part other
      cases part with
      | core another =>
          have apart : cpu ≠ another := fun same => other (by rw [same]; exact List.mem_cons_self)
          change ((clocks.cores.modify _ _)[another]?).getD 0 = _
          rw [List.getElem?_modify_ne _ _ apart]
          rfl
      | other index => rfl
  | other index =>
      refine ⟨rfl, rfl, ?_, ?_⟩
      · apply List.ext_getElem?
        intro place
        change ((clocks.others.modify _ _).map Prod.fst)[place]? = _
        rw [List.getElem?_map, List.getElem?_map, List.getElem?_modify]
        cases clocks.others[place]? with
        | none => rfl
        | some clock => by_cases here : index = place <;> simp [here]
      · intro part other
        cases part with
        | core cpu => rfl
        | other another =>
            have apart : index ≠ another := fun same => other (by rw [same]; exact List.mem_cons_self)
            change ((clocks.others.modify _ _)[another]?).elim 0 Prod.snd = _
            rw [List.getElem?_modify_ne _ _ apart]
            rfl

theorem time_advance (clocks : Clocks) (part : Part) (member : part ∈ clocks.view) :
    (clocks.advance corePeriod part).time part =
      clocks.time part + clocks.period corePeriod part := by
  cases part with
  | core cpu =>
      have within := List.getElem?_eq_getElem (mem_view_core.mp member)
      change ((clocks.cores.modify _ _)[cpu]?).getD 0 = (clocks.cores[cpu]?).getD 0 + corePeriod cpu
      rw [List.getElem?_modify_eq, within]
      rfl
  | other index =>
      have within := List.getElem?_eq_getElem (mem_view_other.mp member)
      change ((clocks.others.modify _ _)[index]?).elim 0 Prod.snd =
        (clocks.others[index]?).elim 0 Prod.snd + (clocks.others[index]?).elim 1 Prod.fst
      rw [List.getElem?_modify_eq, within]
      rfl

/-! ### Clocks in step -/

/-- A clock that has stopped at the first of its ticks from the global clock on. -/
structure Caught (clocks : Clocks) (part : Part) : Prop where
  ticks : clocks.period corePeriod part ∣ clocks.time part
  reached : clocks.now ≤ clocks.time part
  first : clocks.time part < clocks.now + clocks.period corePeriod part

variable {corePeriod}

theorem Caught.time_eq {clocks : Clocks} {part : Part} (caught : Caught corePeriod clocks part) :
    clocks.time part =
      (clocks.now + clocks.period corePeriod part - 1) / clocks.period corePeriod part *
        clocks.period corePeriod part := by
  obtain ⟨count, counted⟩ := caught.ticks
  have reached := caught.reached
  have first := caught.first
  have positive : 0 < clocks.period corePeriod part := by omega
  have quotient : (clocks.now + clocks.period corePeriod part - 1) /
      clocks.period corePeriod part = count := by
    rw [Nat.div_eq_iff positive]
    rw [counted] at reached first
    have commuted := Nat.mul_comm count (clocks.period corePeriod part)
    omega
  rw [quotient, counted, Nat.mul_comm]

end Clocks

/-! ### The clocks of a system -/

theorem map_modify_same {Item Seen : Type} (see : Item → Seen) (change : Item → Item)
    (blind : ∀ item, see (change item) = see item) (items : List Item) (index : Nat) :
    (items.modify index change).map see = items.map see := by
  apply List.ext_getElem?
  intro place
  rw [List.getElem?_map, List.getElem?_map, List.getElem?_modify]
  cases items[place]? with
  | none => rfl
  | some item => by_cases here : index = place <;> simp [here, blind]

theorem map_set_modify {Item Seen : Type} (see : Item → Seen) (change : Seen → Seen)
    (items : List Item) (index : Nat) (older newer : Item) (present : items[index]? = some older)
    (changed : see newer = change (see older)) :
    (items.set index newer).map see = (items.map see).modify index change := by
  obtain ⟨within, _atIndex⟩ := List.getElem?_eq_some_iff.mp present
  apply List.ext_getElem?
  intro place
  rw [List.getElem?_map, List.getElem?_modify, List.getElem?_map]
  by_cases here : index = place
  · subst here
    rw [List.getElem?_set_self within, present]
    simp [changed]
  · rw [List.getElem?_set_ne here]
    cases items[place]? <;> simp [here]

namespace System

variable {Module Others Source : Type} (parts : Parts Module Others Source)

def clocks (system : System Module Others Source) : Clocks where
  now := system.now
  cores := system.cpus.map (fun one => one.core.currentTime)
  others := system.operables.map (fun operable => (operable.clockPeriod, operable.currentTime))

def corePeriod (cpu : Nat) : Nat := (parts.config cpu).clockPeriod

theorem clocks_view (system : System Module Others Source) :
    system.clocks.view.Perm (system.operableView parts) := by
  unfold Clocks.view operableView clocks
  rw [List.length_map, List.length_map]
  exact ((parts.viewed system.cpus.length).symm.map Part.core).append_right _

theorem clocks_time (system : System Module Others Source) (part : Part) :
    system.clocks.time part = system.currentTime part := by
  cases part with
  | core cpu =>
      change ((system.cpus.map _)[cpu]?).getD 0 = (system.cpus[cpu]?).elim 0 _
      rw [List.getElem?_map]
      cases system.cpus[cpu]? <;> rfl
  | other index =>
      change ((system.operables.map _)[index]?).elim 0 Prod.snd = (system.operables[index]?).elim 0 _
      rw [List.getElem?_map]
      cases system.operables[index]? <;> rfl

theorem clocks_period (system : System Module Others Source) (part : Part) :
    system.clocks.period (corePeriod parts) part = system.clockPeriod parts part := by
  cases part with
  | core cpu => rfl
  | other index =>
      change ((system.operables.map _)[index]?).elim 1 Prod.fst = (system.operables[index]?).elim 1 _
      rw [List.getElem?_map]
      cases system.operables[index]? <;> rfl

theorem clockPeriod_positive (system : System Module Others Source) (part : Part) :
    0 < system.clockPeriod parts part := by
  cases part with
  | core cpu => exact parts.positive cpu
  | other index =>
      change 0 < (system.operables[index]?).elim 1 Operable.clockPeriod
      cases system.operables[index]? with
      | none => exact Nat.one_pos
      | some operable => exact operable.positive

/-! ### What a system does to its clocks -/

theorem changeBus_times (changes : List (Nat × BusChange)) (cpus : List (Cpu Module)) :
    (changes.foldl changeBus cpus).map (fun one => one.core.currentTime) =
      cpus.map (fun one => one.core.currentTime) := by
  induction changes generalizing cpus with
  | nil => rfl
  | cons change rest ih =>
      refine (ih (changeBus cpus change)).trans (map_modify_same _ _ ?_ cpus change.1)
      intro one
      obtain ⟨cpu, change⟩ := change
      cases change with
      | serve bus rq pq wq => cases bus <;> rfl
      | answer bus response => cases bus <;> rfl

theorem operate_clocks (system next : System Module Others Source) (part : Part) (progress : Int)
    (ran : system.operate parts part = some (progress, next)) :
    next.clocks = system.clocks.advance (corePeriod parts) part := by
  cases part with
  | core cpu =>
      obtain ⟨one, present, cycled⟩ := Option.bind_eq_some_iff.mp ran
      obtain ⟨⟨returned, core⟩, operated, same⟩ := Option.map_eq_some_iff.mp cycled
      cases same
      obtain ⟨retired, framed⟩ := O3Cpu.runStages_framed _ _ (O3Cpu.operate_stages operated)
      unfold clocks Clocks.advance
      dsimp only
      rw [map_set_modify (fun one : Cpu Module => one.core.currentTime)
        (fun time => time + corePeriod parts cpu) system.cpus cpu one _ present framed.currentTime]
  | other index =>
      obtain ⟨operable, present, called⟩ := Option.bind_eq_some_iff.mp ran
      obtain ⟨operated, _called, same⟩ := Option.map_eq_some_iff.mp called
      cases same
      unfold clocks Clocks.advance
      dsimp only
      rw [changeBus_times, map_set_modify
        (fun operable : Operable => (operable.clockPeriod, operable.currentTime))
        (fun clock => (clock.1, clock.2 + clock.1)) system.operables index operable _ present rfl]

theorem readTrace_clocks (system next : System Module Others Source) (cpu index : Nat)
    (source : Source) (ran : system.readTrace parts cpu index source = some next) :
    next.clocks = system.clocks := by
  obtain ⟨called, _called, same⟩ := Option.map_eq_some_iff.mp ran
  subst same
  unfold clocks
  dsimp only
  rw [map_modify_same (fun one : Cpu Module => one.core.currentTime)]
  intro one
  rfl

theorem fillQueue_clocks (cpu index count : Nat) (system next : System Module Others Source)
    (ran : system.fillQueue parts cpu index count = some next) : next.clocks = system.clocks := by
  induction count generalizing system with
  | zero =>
      cases ran
      rfl
  | succ count ih =>
      obtain ⟨source, _present, read⟩ := Option.bind_eq_some_iff.mp ran
      split at read
      · cases read
        rfl
      · obtain ⟨middle, first, remaining⟩ := Option.bind_eq_some_iff.mp read
        rw [ih middle remaining, system.readTrace_clocks parts middle cpu index source first]

theorem readTraces_clocks (traceIndex : List Nat) (system next : System Module Others Source)
    (ran : system.readTraces parts traceIndex = some next) : next.clocks = system.clocks := by
  apply Queue.foldlM_invariant (readFor parts traceIndex)
    (fun reached => reached.clocks = system.clocks) _ ?_ system next rfl ran
  intro reached cpu _member later kept step
  obtain ⟨index, _index, found⟩ := Option.bind_eq_some_iff.mp step
  obtain ⟨trace, _trace, has⟩ := Option.bind_eq_some_iff.mp found
  obtain ⟨one, _one, filled⟩ := Option.bind_eq_some_iff.mp has
  exact (fillQueue_clocks parts cpu index _ reached later filled).trans kept

theorem beginPart_clocks (isWarmup : Bool) (system : System Module Others Source) (part : Part) :
    (system.beginPart parts isWarmup part).clocks = system.clocks := by
  cases part with
  | core cpu =>
      unfold beginPart clocks
      dsimp only
      rw [map_modify_same (fun one : Cpu Module => one.core.currentTime)]
      intro one
      rfl
  | other index =>
      unfold beginPart
      dsimp only
      cases present : system.operables[index]? with
      | none => rfl
      | some operable =>
          unfold clocks
          dsimp only [Option.elim]
          rw [map_set_modify
            (fun operable : Operable => (operable.clockPeriod, operable.currentTime)) id
            system.operables index operable { operable with warmup := isWarmup } present rfl,
            List.modify_id]

theorem endPhase_clocks (finished : Nat) (system : System Module Others Source) :
    (system.endPhase parts finished).clocks = system.clocks := by
  unfold endPhase
  generalize system.operableView parts = view
  induction view generalizing system with
  | nil => rfl
  | cons part rest ih =>
      refine (ih (system.endPart parts finished part)).trans ?_
      cases part with
      | core cpu =>
          unfold endPart clocks
          dsimp only
          rw [map_modify_same (fun one : Cpu Module => one.core.currentTime)]
          intro one
          unfold Cpu.endPhase
          dsimp only
          split <;> rfl
      | other index =>
          unfold endPart
          dsimp only
          cases system.operables[index]? <;> rfl

/-! ### Cycles -/

theorem operateLoop_caught (part : Part) (passes : Nat) (system last : System Module Others Source)
    (progress : Int) (member : part ∈ system.clocks.view)
    (ticks : system.clocks.period (corePeriod parts) part ∣ system.clocks.time part)
    (near : system.clocks.time part <
      system.clocks.now + system.clocks.period (corePeriod parts) part)
    (enough : system.clocks.now - system.clocks.time part ≤ passes)
    (ran : operateLoop parts part passes system = some (progress, last)) :
    Clocks.Moves system.clocks last.clocks [part] ∧
      Clocks.Caught (corePeriod parts) last.clocks part := by
  have positive := system.clockPeriod_positive parts part
  rw [← clocks_period] at positive
  induction passes generalizing system progress with
  | zero =>
      cases ran
      exact ⟨.refl _ _, ticks, by omega, near⟩
  | succ passes ih =>
      unfold operateLoop at ran
      split at ran
      · rename_i behind
        obtain ⟨⟨first, middle⟩, operated, remaining⟩ := Option.bind_eq_some_iff.mp ran
        obtain ⟨⟨more, reached⟩, looped, same⟩ := Option.map_eq_some_iff.mp remaining
        cases same
        have moved := system.operate_clocks parts middle part first operated
        have moves := system.clocks.advance_moves (corePeriod parts) part
        have advanced := system.clocks.time_advance (corePeriod parts) part member
        rw [← moved] at moves advanced
        have samePeriod := moves.period (corePeriod parts) part
        rw [← clocks_time] at behind
        change system.clocks.time part < system.clocks.now at behind
        have further := ih middle more (moves.view ▸ member)
          (by rw [samePeriod, advanced]; exact Nat.dvd_add ticks (Nat.dvd_refl _))
          (by rw [samePeriod, advanced, moves.now]; omega)
          (by rw [advanced, moves.now]; omega) looped (samePeriod ▸ positive)
        refine ⟨?_, further.2⟩
        have both := moves.trans further.1
        exact ⟨both.now, both.cores, both.periods, fun other apart =>
          both.time other (by simpa using apart)⟩
      · rename_i caught
        cases ran
        rw [← clocks_time] at caught
        exact ⟨.refl _ _, ticks, Nat.not_lt.mp caught, near⟩

/-- Between two ticks of the global clock every clock is at most one period ahead. -/
def Near (system : System Module Others Source) (part : Part) : Prop :=
  system.clocks.period (corePeriod parts) part ∣ system.clocks.time part ∧
    system.clocks.time part < system.clocks.now + system.clocks.period (corePeriod parts) part

theorem operateEach_caught (order : List Part) (system last : System Module Others Source)
    (progress : Int) (distinct : order.Nodup)
    (member : ∀ part ∈ order, part ∈ system.clocks.view)
    (near : ∀ part ∈ order, system.Near parts part)
    (ran : operateEach parts order system = some (progress, last)) :
    Clocks.Moves system.clocks last.clocks order ∧
      ∀ part ∈ order, Clocks.Caught (corePeriod parts) last.clocks part := by
  induction order generalizing system progress with
  | nil =>
      cases ran
      exact ⟨.refl _ _, fun part impossible => absurd impossible List.not_mem_nil⟩
  | cons part rest ih =>
      obtain ⟨⟨first, middle⟩, operated, remaining⟩ := Option.bind_eq_some_iff.mp ran
      obtain ⟨⟨more, reached⟩, others, same⟩ := Option.map_eq_some_iff.mp remaining
      cases same
      rw [List.nodup_cons] at distinct
      have here := near part List.mem_cons_self
      obtain ⟨moves, caught⟩ := operateLoop_caught parts part _ system middle first
        (member part List.mem_cons_self) here.1 here.2 (by rw [clocks_time]; exact Nat.le_refl _)
        operated
      have apart : ∀ other ∈ rest, other ∉ [part] := by
        intro other among same
        exact distinct.1 (List.mem_singleton.mp same ▸ among)
      obtain ⟨furtherMoves, furtherCaught⟩ := ih middle more distinct.2
        (fun other among => moves.view ▸ member other (List.mem_cons_of_mem part among))
        (fun other among => by
          have before := near other (List.mem_cons_of_mem part among)
          unfold Near
          rw [moves.period, moves.time other (apart other among), moves.now]
          exact before) others
      refine ⟨moves.trans furtherMoves, ?_⟩
      intro other among
      rcases List.mem_cons.mp among with same | later
      · subst same
        have kept := furtherMoves.time other distinct.1
        refine ⟨?_, ?_, ?_⟩
        · rw [furtherMoves.period, kept]
          exact caught.ticks
        · rw [furtherMoves.now, kept]
          exact caught.reached
        · rw [furtherMoves.period, furtherMoves.now, kept]
          exact caught.first
      · exact furtherCaught other later

/-- Whatever the order, a cycle brings every clock up to the global one. -/
theorem doCycle_caught (traceIndex : List Nat) (order : List Part)
    (system next : System Module Others Source) (progress : Int)
    (near : ∀ part ∈ system.clocks.view, system.Near parts part)
    (ran : system.doCycle parts traceIndex order = some (progress, next)) :
    Clocks.Moves system.clocks next.clocks order ∧
      ∀ part ∈ next.clocks.view, Clocks.Caught (corePeriod parts) next.clocks part := by
  unfold doCycle at ran
  split at ran
  · rename_i sorted
    obtain ⟨⟨first, operated⟩, operates, remaining⟩ := Option.bind_eq_some_iff.mp ran
    obtain ⟨last, reads, same⟩ := Option.map_eq_some_iff.mp remaining
    cases same
    have ordered := sorted.1.trans (system.clocks_view parts).symm
    have within : ∀ part, part ∈ order ↔ part ∈ system.clocks.view := fun _part =>
      ordered.mem_iff
    have distinct := ordered.nodup_iff.mpr system.clocks.view_nodup
    obtain ⟨moves, caught⟩ := operateEach_caught parts order system operated progress distinct
      (fun part among => (within part).mp among)
      (fun part among => near part ((within part).mp among)) operates
    rw [operated.readTraces_clocks parts traceIndex next reads]
    refine ⟨moves, ?_⟩
    intro part among
    rw [moves.view] at among
    exact caught part ((within part).mpr among)
  · cases ran

end System

end ChampSim.Simulation
