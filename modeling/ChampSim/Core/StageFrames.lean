/-
What every stage of a core leaves alone, and what the stages of a cycle do to
the count of retired instructions.
-/

import ChampSim.Core.ProgramOrder

set_option autoImplicit false

namespace ChampSim.Core

open Transition

/-- The stages of `operate` beyond the clock. -/
def operateStages (beyond : RegisterAllocator → Nat → Bool) : List Stage :=
  [.retireRob, .completeInflightInstruction, .executeInstruction, .scheduleInstruction beyond,
    .handleMemoryReturn, .operateLsq, .dispatchInstruction, .decodeInstruction, .promoteToDecode,
    .fetchInstruction, .checkDib, .initializeInstruction]

namespace O3Cpu

variable {Module : Type} (config : Config) (hooks : CoreModules Module)

def stageRetired (state : O3Cpu Module) : Stage → Nat
  | .retireRob => (state.retiring config).length
  | _ => 0

/-- A stage leaves the clock and the warm-up alone and counts what it retires. -/
structure Framed (state : O3Cpu Module) (retired : Nat) (next : O3Cpu Module) : Prop where
  currentTime : next.currentTime = state.currentTime
  warmup : next.warmup = state.warmup
  numRetired : next.numRetired = state.numRetired + retired

variable {state middle next : O3Cpu Module}

theorem Framed.trans {first second : Nat} (before : Framed state first middle)
    (after : Framed middle second next) : Framed state (first + second) next := by
  refine ⟨after.currentTime.trans before.currentTime, after.warmup.trans before.warmup, ?_⟩
  rw [after.numRetired, before.numRetired, Nat.add_assoc]

theorem dispatchLoop_framed (bandwidth : Nat) (state : O3Cpu Module)
    (ran : dispatchLoop config bandwidth state = some next) : Framed state 0 next := by
  induction bandwidth generalizing state with
  | zero =>
      cases ran
      exact ⟨rfl, rfl, rfl⟩
  | succ bandwidth ih =>
      unfold dispatchLoop at ran
      split at ran
      · cases ran
        exact ⟨rfl, rfl, rfl⟩
      · split at ran
        · obtain ⟨middle, first, remaining⟩ := Option.bind_eq_some_iff.mp ran
          obtain ⟨schedule, _scheduled, same⟩ := Option.map_eq_some_iff.mp first
          have one : Framed state 0 middle := by
            subst same
            exact ⟨rfl, rfl, rfl⟩
          exact one.trans (ih middle remaining)
        · cases ran
          exact ⟨rfl, rfl, rfl⟩

theorem runStage_framed (stage : Stage) (ran : state.runStage config hooks stage = some next) :
    Framed state (state.stageRetired config stage) next := by
  have front : stage.isFrontEnd = true → state.stageRetired config stage = 0 →
      Framed state (state.stageRetired config stage) next := by
    intro isFront nothing
    obtain ⟨_, _, _, _, _, _, _, _, same⟩ := frontEnd_shape config hooks state next stage isFront ran
    rw [nothing, same]
    exact ⟨rfl, rfl, rfl⟩
  cases stage with
  | retireRob =>
      obtain ⟨alloc, _retired, same⟩ := Option.map_eq_some_iff.mp ran
      subst same
      exact ⟨rfl, rfl, rfl⟩
  | completeInflightInstruction =>
      obtain ⟨completing, _swept, same⟩ := Option.map_eq_some_iff.mp ran
      subst same
      exact ⟨rfl, rfl, rfl⟩
  | executeInstruction =>
      obtain ⟨executing, _swept, same⟩ := Option.map_eq_some_iff.mp ran
      subst same
      exact ⟨rfl, rfl, rfl⟩
  | scheduleInstruction beyond =>
      obtain ⟨search, _swept, same⟩ := Option.map_eq_some_iff.mp ran
      subst same
      exact ⟨rfl, rfl, rfl⟩
  | handleMemoryReturn =>
      obtain ⟨memory, _finished, same⟩ := Option.map_eq_some_iff.mp ran
      subst same
      exact ⟨rfl, rfl, rfl⟩
  | operateLsq =>
      obtain ⟨memory, _finished, loaded⟩ := Option.bind_eq_some_iff.mp ran
      obtain ⟨loads, _issued, same⟩ := Option.map_eq_some_iff.mp loaded
      subst same
      exact ⟨rfl, rfl, rfl⟩
  | dispatchInstruction => exact dispatchLoop_framed config _ state ran
  | decodeInstruction => exact front rfl rfl
  | promoteToDecode => exact front rfl rfl
  | fetchInstruction => exact front rfl rfl
  | checkDib => exact front rfl rfl
  | initializeInstruction => exact front rfl rfl

/-- The instructions in the pipeline, and those that have retired and their number. -/
structure Retires (state : O3Cpu Module) (history : History) : Prop where
  inOrder : InOrder config state.order history
  counted : history.retired.length = state.numRetired

variable {config hooks} {history : History}

theorem Retires.runStage (retires : Retires config state history) (stage : Stage)
    (ran : state.runStage config hooks stage = some next) :
    Retires config next (noteOrder config state (.stage stage) history) := by
  refine ⟨runStage_inOrder config hooks state next stage retires.inOrder ran, ?_⟩
  have framed := runStage_framed config hooks stage ran
  rw [framed.numRetired, ← retires.counted]
  cases stage with
  | retireRob =>
      change (history.retired ++ ids (state.retiring config)).length = _
      rw [List.length_append]
      exact congrArg _ (List.length_map _)
  | _ => rfl

theorem noteOrder_read (stage : Stage) :
    (noteOrder config state (.stage stage) history).read = history.read := by
  cases stage with
  | retireRob => rfl
  | _ => rfl

theorem runStages_retires (stages : List Stage) (state : O3Cpu Module) (history : History)
    (retires : Retires config state history)
    (ran : (Core.stages config hooks).run state (stages.map Step.stage) = some next) :
    ∃ retired, Retires config next { read := history.read, retired } := by
  induction stages generalizing state history with
  | nil =>
      cases ran
      exact ⟨history.retired, retires⟩
  | cons stage rest ih =>
      obtain ⟨middle, first, remaining⟩ := Option.bind_eq_some_iff.mp ran
      have further := ih middle _ (retires.runStage stage first) remaining
      rw [noteOrder_read] at further
      exact further

theorem runStages_framed (stages : List Stage) (state : O3Cpu Module)
    (ran : (Core.stages config hooks).run state (stages.map Step.stage) = some next) :
    ∃ retired, Framed state retired next := by
  induction stages generalizing state with
  | nil =>
      cases ran
      exact ⟨0, rfl, rfl, rfl⟩
  | cons stage rest ih =>
      obtain ⟨middle, first, remaining⟩ := Option.bind_eq_some_iff.mp ran
      obtain ⟨retired, framed⟩ := ih middle remaining
      exact ⟨_, (runStage_framed config hooks stage first).trans framed⟩

end O3Cpu

end ChampSim.Core
