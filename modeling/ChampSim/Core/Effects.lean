/-
What the parts of a stage may change of an instruction and of the core.
-/

import ChampSim.Core.Cycle

set_option autoImplicit false

namespace ChampSim.Core

theorem OooModelInstr.doStackPointerFolding_shape (archInstr : OooModelInstr) :
    ∃ destinationRegisters, destinationRegisters ⊆ archInstr.destinationRegisters ∧
      archInstr.doStackPointerFolding = { archInstr with destinationRegisters } := by
  unfold doStackPointerFolding
  split
  · exact ⟨_, List.filter_subset_self _, rfl⟩
  · exact ⟨archInstr.destinationRegisters, List.Subset.refl _, rfl⟩

namespace O3Cpu

variable {Module : Type} (config : Config) (hooks : CoreModules Module)

theorem doPredictBranch_shape (state : O3Cpu Module) (archInstr : OooModelInstr) :
    ∃ stop branchPrediction branchMispredicted modules fetchResumeTime,
      state.doPredictBranch hooks archInstr =
        (stop, { archInstr with branchPrediction, branchMispredicted },
          { state with modules, fetchResumeTime }) := by
  unfold doPredictBranch
  dsimp only
  generalize hooks.btbPrediction state.modules archInstr.ip archInstr.branch = btb
  generalize hooks.predictBranch btb.2 archInstr.ip btb.1.1 btb.1.2 archInstr.branch = direction
  generalize (if (direction.1 || btb.1.2) = true then btb.1.1 else 0) = target
  split
  · split
    · split
      · exact ⟨_, _, _, _, _, rfl⟩
      · exact ⟨_, _, _, _, _, rfl⟩
    · exact ⟨_, _, _, _, _, rfl⟩
  · exact ⟨_, _, _, _, _, rfl⟩

theorem doInitInstruction_shape (state : O3Cpu Module) (archInstr : OooModelInstr) :
    ∃ stop sourceRegisters destinationRegisters branchPrediction branchMispredicted modules
      fetchResumeTime,
      sourceRegisters ⊆ archInstr.sourceRegisters ∧
        destinationRegisters ⊆ archInstr.destinationRegisters ∧
          state.doInitInstruction hooks archInstr =
            (stop,
              { archInstr with
                sourceRegisters, destinationRegisters, branchPrediction, branchMispredicted },
              { state with modules, fetchResumeTime }) := by
  have kept : ∃ sourceRegisters destinationRegisters,
      sourceRegisters ⊆ archInstr.sourceRegisters ∧
        destinationRegisters ⊆ archInstr.destinationRegisters ∧
          (if state.warmup then
            { archInstr with sourceRegisters := [], destinationRegisters := [] } else archInstr) =
              { archInstr with sourceRegisters, destinationRegisters } := by
    split
    · exact ⟨[], [], List.nil_subset _, List.nil_subset _, rfl⟩
    · exact ⟨_, _, List.Subset.refl _, List.Subset.refl _, rfl⟩
  obtain ⟨sources, destinations, fewerSources, fewerDestinations, same⟩ := kept
  unfold doInitInstruction
  dsimp only
  rw [same]
  obtain ⟨folded, fewerFolded, folds⟩ := OooModelInstr.doStackPointerFolding_shape
    { archInstr with sourceRegisters := sources, destinationRegisters := destinations }
  rw [folds]
  obtain ⟨stop, prediction, mispredicted, modules, resume, predicted⟩ :=
    state.doPredictBranch_shape hooks
      { archInstr with sourceRegisters := sources, destinationRegisters := folded }
  exact ⟨stop, sources, folded, prediction, mispredicted, modules, resume, fewerSources,
    List.Subset.trans fewerFolded fewerDestinations, predicted⟩

/-- The instructions that are promoted are the first of the fetch buffer, and
both decoding buffers have room for all of them. -/
theorem promoteToDecode_window (state next : O3Cpu Module)
    (ran : state.promoteToDecode config = some next) :
    ∃ window rest, state.ifetchBuffer = window ++ rest ∧
      (state.dibHitBuffer.length + window.length ≤ config.dibHitBufferSize ∧
        state.decodeBuffer.length + window.length ≤ config.decodeBufferSize) ∧
      next =
        { state with
          dibHitBuffer := state.dibHitBuffer ++ (window.filter (fun instr => instr.decoded)).map
            (fun instr => { instr with readyTime := state.currentTime + config.dibHitLatency })
          decodeBuffer := state.decodeBuffer ++ (window.filter (fun instr => !instr.decoded)).map
            (fun instr =>
              { instr with readyTime := state.currentTime + state.latency config.decodeLatency })
          ifetchBuffer := rest } := by
  unfold promoteToDecode at ran
  split at ran
  · cases ran
  · dsimp only at ran
    have isPrefix := (Queue.span_isPrefix (min config.fetchWidth
        (min (config.dibHitBufferSize - state.dibHitBuffer.length)
          (config.decodeBufferSize - state.decodeBuffer.length)))
        (fun instr => instr.fetchCompleted && instr.isReady state.currentTime)
        (state.ifetchBuffer.takeWhile (fun instr => instr.fetchCompleted))).trans
          (List.takeWhile_prefix _)
    have short := Queue.span_length_le (min config.fetchWidth
        (min (config.dibHitBufferSize - state.dibHitBuffer.length)
          (config.decodeBufferSize - state.decodeBuffer.length)))
        (fun instr => instr.fetchCompleted && instr.isReady state.currentTime)
        (state.ifetchBuffer.takeWhile (fun instr => instr.fetchCompleted))
    revert ran isPrefix short
    generalize Queue.span _ _ (state.ifetchBuffer.takeWhile _) = window
    intro ran isPrefix short
    obtain ⟨rest, split⟩ := isPrefix
    rw [← split, List.drop_left] at ran
    exact ⟨window, rest, split.symm, ⟨by omega, by omega⟩, (Option.some.inj ran).symm⟩

/-- An event moves the clock, the warm-up, the buses and what is read of the trace. -/
theorem occur_shape (state next : O3Cpu Module) (event : Event)
    (ran : state.occur config event = some next) :
    ∃ currentTime warmup added l1iBus l1dBus,
      next =
          { state with
            currentTime, warmup, l1iBus, l1dBus, inputQueue := state.inputQueue ++ added } ∧
        ∀ instr ∈ added, ∃ instrId record, instr = OooModelInstr.ofTrace instrId record := by
  have unread : ∀ currentTime warmup l1iBus l1dBus,
      next = { state with currentTime, warmup, l1iBus, l1dBus } →
        ∃ currentTime warmup added l1iBus l1dBus,
          next =
              { state with
                currentTime, warmup, l1iBus, l1dBus, inputQueue := state.inputQueue ++ added } ∧
            ∀ instr ∈ added, ∃ instrId record, instr = OooModelInstr.ofTrace instrId record := by
    intro currentTime warmup l1iBus l1dBus same
    refine ⟨currentTime, warmup, [], l1iBus, l1dBus, ?_, ?_⟩
    · rw [List.append_nil]
      exact same
    · intro instr member
      cases member
  cases event with
  | tick =>
      cases ran
      exact unread _ _ _ _ rfl
  | read instrId record =>
      change (if _ then _ else _) = _ at ran
      split at ran
      · cases ran
        refine ⟨_, _, _, _, _, rfl, ?_⟩
        intro instr member
        exact ⟨instrId, record, List.mem_singleton.mp member⟩
      · cases ran
  | serve bus rq pq wq =>
      cases ran
      cases bus with
      | l1i => exact unread _ _ _ _ rfl
      | l1d => exact unread _ _ _ _ rfl
  | answer bus response =>
      cases ran
      cases bus with
      | l1i => exact unread _ _ _ _ rfl
      | l1d => exact unread _ _ _ _ rfl
  | beginPhase warmup =>
      change (if _ then _ else _) = _ at ran
      split at ran
      · cases ran
      · cases ran
        exact unread _ _ _ _ rfl

end O3Cpu

end ChampSim.Core
