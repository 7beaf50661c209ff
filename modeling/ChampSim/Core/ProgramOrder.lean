/-
The program order of the core, over whole runs.
-/

import ChampSim.Core.StageOrder
import ChampSim.Core.Decoding

set_option autoImplicit false

namespace ChampSim.Core

open Transition Cache

/-! ### Runs -/

def noteOrder {Module : Type} (config : Config) (state : O3Cpu Module) (label : Step)
    (history : History) : History :=
  match label with
  | .event (.read instrId _) => { history with read := history.read ++ [instrId] }
  | .stage .retireRob =>
      { history with retired := history.retired ++ ids (state.retiring config) }
  | _ => history

/-- A read that continues a sequence of strictly increasing ids. -/
def Continues (history : History) : Step → Prop
  | .event (.read instrId _) => ∀ earlier ∈ history.read, earlier < instrId
  | _ => True

instance (history : History) (label : Step) : Decidable (Continues history label) :=
  match label with
  | .event (.read instrId _) =>
      inferInstanceAs (Decidable (∀ earlier ∈ history.read, earlier < instrId))
  | .event .tick => isTrue trivial
  | .event (.serve _ _ _ _) => isTrue trivial
  | .event (.answer _ _) => isTrue trivial
  | .event (.beginPhase _) => isTrue trivial
  | .stage _ => isTrue trivial

/-- The core on an input with strictly increasing ids, with its history. -/
def histories {Module : Type} (config : Config) (hooks : CoreModules Module) :
    Machine (O3Cpu Module × History) Step :=
  ((stages config hooks).record (noteOrder config)).restrict
    (fun noted label => Continues noted.2 label)

namespace O3Cpu

variable {Module : Type} (config : Config) (hooks : CoreModules Module)

theorem runStage_inOrder {history : History} (state next : O3Cpu Module) (stage : Stage)
    (inOrder : InOrder config state.order history)
    (ran : state.runStage config hooks stage = some next) :
    InOrder config next.order (noteOrder config state (.stage stage) history) := by
  cases stage with
  | retireRob =>
      obtain ⟨moved, retired⟩ := retireRob_order config state next ran
      rw [moved]
      change InOrder config _ { history with
        retired := history.retired ++ ids (state.retiring config) }
      rw [retired]
      exact inOrder.retire _
  | completeInflightInstruction =>
      rw [completeInflightInstruction_order config state next ran]
      exact inOrder
  | executeInstruction =>
      rw [executeInstruction_order config state next ran]
      exact inOrder
  | scheduleInstruction beyond =>
      rw [scheduleInstruction_order config beyond state next ran]
      exact inOrder
  | handleMemoryReturn =>
      rw [handleMemoryReturn_order config state next ran]
      exact inOrder
  | operateLsq =>
      rw [operateLsq_order config state next ran]
      exact inOrder
  | dispatchInstruction => exact dispatchLoop_inOrder config _ state next inOrder ran
  | decodeInstruction =>
      cases ran
      exact decodeInstruction_inOrder config hooks state inOrder
  | promoteToDecode => exact promoteToDecode_inOrder config state next inOrder ran
  | fetchInstruction =>
      cases ran
      rw [fetchInstruction_order]
      exact inOrder
  | checkDib =>
      cases ran
      rw [checkDib_order]
      exact inOrder
  | initializeInstruction =>
      cases ran
      exact initializeInstruction_inOrder config hooks state inOrder

theorem updateBus_order (state : O3Cpu Module) (bus : Bus) (change : Channel → Channel) :
    (state.updateBus bus change).order = state.order := by
  cases bus with
  | l1i => rfl
  | l1d => rfl

theorem occur_inOrder {history : History} (state next : O3Cpu Module) (event : Event)
    (inOrder : InOrder config state.order history) (continues : Continues history (.event event))
    (ran : state.occur config event = some next) :
    InOrder config next.order (noteOrder config state (.event event) history) := by
  cases event with
  | tick =>
      cases ran
      exact inOrder
  | read instrId record =>
      change (if _ then _ else _) = _ at ran
      split at ran
      · rename_i room
        cases ran
        have moved := inOrder.read instrId continues (by
          change (ids state.inputQueue).length < _
          unfold ids
          rw [List.length_map]
          exact room)
        unfold order ids at moved ⊢
        dsimp only at moved ⊢
        rw [List.map_append]
        exact moved
      · cases ran
  | serve bus rq pq wq =>
      cases ran
      rw [updateBus_order]
      exact inOrder
  | answer bus response =>
      cases ran
      rw [updateBus_order]
      exact inOrder
  | beginPhase warmup =>
      change (if _ then _ else _) = _ at ran
      split at ran
      · cases ran
      · cases ran
        exact inOrder

theorem init_inOrder (l1iBus l1dBus : Channel) (modules : Module) :
    InOrder config (O3Cpu.init config l1iBus l1dBus modules).order {} := by
  have empty : (O3Cpu.init config l1iBus l1dBus modules).order.pipeline = [] := by
    change [] ++ [] ++ ([] : List Nat).merge [] idLe ++ [] ++ [] = []
    rw [List.nil_merge]
    rfl
  exact ⟨empty, List.Pairwise.nil, List.Pairwise.nil, List.Pairwise.nil,
    ⟨Nat.zero_le _, Nat.zero_le _, Nat.zero_le _, Nat.zero_le _, Nat.zero_le _, Nat.zero_le _⟩⟩

theorem histories_inOrder (l1iBus l1dBus : Channel) (modules : Module) (labels : List Step)
    (reached : O3Cpu Module × History)
    (ran : (histories config hooks).run (O3Cpu.init config l1iBus l1dBus modules, {}) labels =
      some reached) :
    InOrder config reached.1.order reached.2 := by
  apply (histories config hooks).run_invariant
    (fun noted => InOrder config noted.1.order noted.2) ?_ labels _ reached
    (init_inOrder config l1iBus l1dBus modules) ran
  intro noted label next inOrder stepped
  obtain ⟨continues, recorded⟩ := (Machine.restrict_step_iff _ _ _ _ _).mp stepped
  obtain ⟨moved, history⟩ := (Machine.record_step_iff _ _ _ _ _).mp recorded
  rw [← history]
  cases label with
  | stage stage => exact runStage_inOrder config hooks noted.1 next.1 stage inOrder moved
  | event event => exact occur_inOrder config noted.1 next.1 event inOrder continues moved

/-- In every run on strictly increasing ids, what has retired and what is in
the pipeline is what was read, in order, and every buffer is in order and
within its size. -/
theorem histories_programOrder (l1iBus l1dBus : Channel) (modules : Module) (labels : List Step)
    (reached : O3Cpu Module × History)
    (ran : (histories config hooks).run (O3Cpu.init config l1iBus l1dBus modules, {}) labels =
      some reached) :
    reached.2.retired ++ reached.1.order.pipeline = reached.2.read ∧
      reached.1.order.Sorted ∧ reached.1.order.Within config := by
  have inOrder := histories_inOrder config hooks l1iBus l1dBus modules labels reached ran
  exact ⟨inOrder.stream, inOrder.sorted, inOrder.within⟩

end O3Cpu

private theorem storeAndLoad_runs :
    ((histories smallCore quietModules).run (smallInit, {})
      (storeAndLoad ++ smallCycles 6)).isSome = true := by
  decide +kernel

theorem histories_programOrder_storeAndLoad :
    ∃ reached, (histories smallCore quietModules).run (smallInit, {})
        (storeAndLoad ++ smallCycles 6) = some reached ∧
      reached.2.retired ++ reached.1.order.pipeline = reached.2.read ∧
        reached.1.order.Sorted ∧ reached.1.order.Within smallCore := by
  obtain ⟨reached, ran⟩ := Option.isSome_iff_exists.mp storeAndLoad_runs
  exact ⟨reached, ran, O3Cpu.histories_programOrder smallCore quietModules smallBus smallBus ()
    _ reached ran⟩

end ChampSim.Core
