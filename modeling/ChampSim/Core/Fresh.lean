/-
Instructions before dispatch.

No stage of the front end touches what the back end keeps in an instruction,
and the registers of one that is not dispatched are architectural numbers.
-/

import ChampSim.Core.ProgramOrder

set_option autoImplicit false

namespace ChampSim.Core

open Cache

/-- An instruction that no stage of the back end has seen. -/
def OooModelInstr.Fresh (instr : OooModelInstr) : Prop :=
  (instr.scheduled = false ∧ instr.executed = false ∧ instr.completed = false ∧
    instr.completedMemOps = 0) ∧
  (∀ reg ∈ instr.sourceRegisters, reg < RegisterAllocator.numArchRegisters) ∧
    ∀ reg ∈ instr.destinationRegisters, reg < RegisterAllocator.numArchRegisters

theorem OooModelInstr.ofTrace_fresh (instrId : Nat) (record : TraceInstr) :
    (OooModelInstr.ofTrace instrId record).Fresh := by
  refine ⟨⟨rfl, rfl, rfl, rfl⟩, ?_, ?_⟩
  · intro reg member
    obtain ⟨arch, _among, same⟩ := List.mem_map.mp member
    exact same ▸ arch.isLt
  · intro reg member
    obtain ⟨arch, _among, same⟩ := List.mem_map.mp member
    exact same ▸ arch.isLt

def AllFresh (instrs : List OooModelInstr) : Prop := ∀ instr ∈ instrs, instr.Fresh

namespace AllFresh

variable {instrs others : List OooModelInstr}

theorem nil : AllFresh [] := by
  intro instr member
  cases member

theorem append (fresh : AllFresh instrs) (more : AllFresh others) : AllFresh (instrs ++ others) := by
  intro instr member
  rcases List.mem_append.mp member with first | second
  · exact fresh instr first
  · exact more instr second

theorem subset (fresh : AllFresh instrs) (fewer : others ⊆ instrs) : AllFresh others :=
  fun instr member => fresh instr (fewer member)

theorem map (fresh : AllFresh instrs) (change : OooModelInstr → OooModelInstr)
    (kept : ∀ instr, instr.Fresh → (change instr).Fresh) : AllFresh (instrs.map change) := by
  intro instr member
  obtain ⟨older, among, same⟩ := List.mem_map.mp member
  subst same
  exact kept older (fresh older among)

theorem set (fresh : AllFresh instrs) (index : Nat) (instr : OooModelInstr) (new : instr.Fresh) :
    AllFresh (instrs.set index instr) := by
  intro other member
  rcases List.mem_or_eq_of_mem_set member with older | newest
  · exact fresh other older
  · rw [newest]
    exact new

end AllFresh

namespace O3Cpu

variable {Module : Type} (config : Config) (hooks : CoreModules Module)

structure Undispatched (state : O3Cpu Module) : Prop where
  input : AllFresh state.inputQueue
  ifetch : AllFresh state.ifetchBuffer
  dibHit : AllFresh state.dibHitBuffer
  decode : AllFresh state.decodeBuffer
  dispatch : AllFresh state.dispatchBuffer

/-! ### Buffers of the front end -/

theorem serviceDependents_fresh (vAddress : Address) (fetchBandwidth : Nat) (dependents : List Nat)
    (buffer : List OooModelInstr) (fresh : AllFresh buffer) :
    AllFresh (serviceDependents config vAddress fetchBandwidth dependents buffer).2.2 := by
  fun_induction serviceDependents config vAddress fetchBandwidth dependents buffer with
  | case1 => exact fresh
  | case2 => exact fresh
  | case3 _ _ _ _ _ _ ih => exact ih fresh
  | case4 bandwidth dependent rest buffer index fetched present matched ih =>
      exact ih (fresh.set index _ (fresh fetched (List.mem_of_getElem? present)))
  | case5 _ _ _ _ _ _ _ _ ih => exact ih fresh

theorem serviceReturned_fresh (l1iBandwidth fetchBandwidth : Nat) (returned : List Response)
    (buffer : List OooModelInstr) (fresh : AllFresh buffer) :
    AllFresh (serviceReturned config l1iBandwidth fetchBandwidth returned buffer).2 := by
  fun_induction serviceReturned config l1iBandwidth fetchBandwidth returned buffer with
  | case1 => exact fresh
  | case2 => exact fresh
  | case3 => exact fresh
  | case4 buffer bandwidth fetchBandwidth entry rest some serviced empty ih =>
      exact ih (serviceDependents_fresh config _ _ _ _ fresh)
  | case5 => exact serviceDependents_fresh config _ _ _ _ fresh

theorem checkEach_fresh (time : Nat) (modules : Module) (instrs : List OooModelInstr)
    (fresh : AllFresh instrs) : AllFresh (checkEach hooks time modules instrs).1 := by
  induction instrs generalizing modules with
  | nil => exact AllFresh.nil
  | cons instr rest ih =>
      intro other member
      rcases List.mem_cons.mp member with isFirst | later
      · subst isFirst
        have before := fresh instr List.mem_cons_self
        unfold doCheckDib
        dsimp only
        split
        · exact before
        · exact before
      · exact ih (doCheckDib hooks time modules instr).2
          (fresh.subset (List.subset_cons_self instr rest)) other later

theorem fetchGroups_fresh (bandwidth : Nat) (bus : Channel) (buffer : List OooModelInstr)
    (fresh : AllFresh buffer) : AllFresh (fetchGroups config bandwidth bus buffer).1 := by
  induction bandwidth generalizing bus buffer with
  | zero => exact fresh
  | succ bandwidth ih =>
      unfold fetchGroups
      dsimp only
      split
      · exact fresh
      · rename_i first rest found
        have after : first :: rest ⊆ buffer := by
          rw [← found]
          exact (List.dropWhile_suffix _).subset
        have later : AllFresh (first :: rest) := fresh.subset after
        have others : AllFresh rest := later.subset (List.subset_cons_self first rest)
        have group : AllFresh (first :: rest.takeWhile (sameBlock config first)) :=
          later.subset (List.cons_subset_cons first (List.takeWhile_prefix _).subset)
        refine AllFresh.append (AllFresh.append (fresh.subset (List.takeWhile_prefix _).subset) ?_)
          (ih _ _ (others.subset (List.dropWhile_suffix _).subset))
        split
        · exact group.map _ (fun _ before => before)
        · exact group

theorem readInstructions_fresh (bandwidth : Nat) (state : O3Cpu Module)
    (fresh : state.Undispatched) : (readInstructions hooks bandwidth state).Undispatched := by
  induction bandwidth generalizing state with
  | zero => exact fresh
  | succ bandwidth ih =>
      unfold readInstructions
      split
      · exact fresh
      · rename_i front others waiting
        have input := fresh.input
        rw [waiting] at input
        have first := input front List.mem_cons_self
        split
        · obtain ⟨stop, sources, destinations, prediction, mispredicted, modules, resume, fewer,
            less, initiated⟩ := state.doInitInstruction_shape hooks front
          dsimp only
          rw [initiated]
          have moved : Undispatched { state with
              modules
              fetchResumeTime := resume
              inputQueue := others
              ifetchBuffer := state.ifetchBuffer ++
                [{ front with
                    sourceRegisters := sources
                    destinationRegisters := destinations
                    branchPrediction := prediction
                    branchMispredicted := mispredicted
                    readyTime := state.currentTime }] } := by
            refine ⟨input.subset (List.subset_cons_self front others), fresh.ifetch.append ?_,
              fresh.dibHit, fresh.decode, fresh.dispatch⟩
            intro instr member
            rw [List.mem_singleton.mp member]
            exact ⟨first.1, fun reg among => first.2.1 reg (fewer among),
              fun reg among => first.2.2 reg (less among)⟩
          split
          · exact moved
          · exact ih _ moved
        · exact fresh

/-! ### Decoding and dispatch -/

theorem decodeEach_fresh (state : O3Cpu Module) (entries : List OooModelInstr)
    (fresh : AllFresh entries) : AllFresh (state.decodeEach config hooks entries).1 := by
  induction entries generalizing state with
  | nil => exact AllFresh.nil
  | cons entry rest ih =>
      intro instr member
      rcases List.mem_cons.mp member with isFirst | later
      · subst isFirst
        exact fresh entry List.mem_cons_self
      · exact ih (state.doDecode config hooks entry).2
          (fresh.subset (List.subset_cons_self entry rest)) instr later

theorem decodeInstruction_undispatched {history : History} (state : O3Cpu Module)
    (inOrder : InOrder config state.order history) (fresh : state.Undispatched) :
    (state.decodeInstruction config hooks).Undispatched := by
  have chosen := state.selectDecodes_chosen config (InOrder.apart inOrder)
  have hits := fresh.dibHit
  have misses := fresh.decode
  rw [chosen.dibHits] at hits
  rw [chosen.decodes] at misses
  have decoded := state.decodeEach_fresh config hooks _
    (misses.subset (List.subset_append_left _ _))
  obtain ⟨_ids, modules, resume, kept⟩ :=
    state.decodeEach_ids config hooks (state.selectDecodes config).decodes
  unfold decodeInstruction
  dsimp only
  rw [kept]
  refine ⟨fresh.input, fresh.ifetch, hits.subset (List.subset_append_right _ _),
    misses.subset (List.subset_append_right _ _), fresh.dispatch.append ?_⟩
  intro instr member
  rw [mergeInOrder_eq_merge, List.mem_merge] at member
  rcases member with hit | miss
  · exact (hits.subset (List.subset_append_left _ _)).map (state.doDibHit config)
      (fun _ before => before) instr hit
  · exact decoded instr miss

theorem promoteToDecode_undispatched (state next : O3Cpu Module) (fresh : state.Undispatched)
    (ran : state.promoteToDecode config = some next) : next.Undispatched := by
  obtain ⟨window, rest, split, _room, same⟩ := promoteToDecode_window config state next ran
  have fetched := fresh.ifetch
  rw [split] at fetched
  have promoted := fetched.subset (List.subset_append_left window rest)
  rw [same]
  exact ⟨fresh.input, fetched.subset (List.subset_append_right window rest),
    fresh.dibHit.append ((promoted.subset (List.filter_subset_self _)).map _
      (fun _ before => before)),
    fresh.decode.append ((promoted.subset (List.filter_subset_self _)).map _
      (fun _ before => before)), fresh.dispatch⟩

theorem dispatchFront_undispatched (state next : O3Cpu Module) (instr : OooModelInstr)
    (rest : List OooModelInstr) (fresh : state.Undispatched)
    (front : state.dispatchBuffer = instr :: rest)
    (ran : state.dispatchFront config instr rest = some next) : next.Undispatched := by
  obtain ⟨schedule, _scheduled, same⟩ := Option.map_eq_some_iff.mp ran
  subst same
  have waiting := fresh.dispatch
  rw [front] at waiting
  exact ⟨fresh.input, fresh.ifetch, fresh.dibHit, fresh.decode,
    waiting.subset (List.subset_cons_self instr rest)⟩

theorem dispatchLoop_undispatched (bandwidth : Nat) (state next : O3Cpu Module)
    (fresh : state.Undispatched) (ran : dispatchLoop config bandwidth state = some next) :
    next.Undispatched := by
  induction bandwidth generalizing state with
  | zero =>
      cases ran
      exact fresh
  | succ bandwidth ih =>
      unfold dispatchLoop at ran
      split at ran
      · cases ran
        exact fresh
      · rename_i instr rest front
        split at ran
        · obtain ⟨middle, first, remaining⟩ := Option.bind_eq_some_iff.mp ran
          exact ih middle (dispatchFront_undispatched config state middle instr rest fresh front
            first) remaining
        · cases ran
          exact fresh

/-! ### Runs -/

theorem runStage_undispatched {history : History} (state next : O3Cpu Module) (stage : Stage)
    (inOrder : InOrder config state.order history) (fresh : state.Undispatched)
    (ran : state.runStage config hooks stage = some next) : next.Undispatched := by
  cases stage with
  | retireRob =>
      obtain ⟨alloc, _retired, same⟩ := Option.map_eq_some_iff.mp ran
      subst same
      exact ⟨fresh.input, fresh.ifetch, fresh.dibHit, fresh.decode, fresh.dispatch⟩
  | completeInflightInstruction =>
      obtain ⟨completing, _swept, same⟩ := Option.map_eq_some_iff.mp ran
      subst same
      exact ⟨fresh.input, fresh.ifetch, fresh.dibHit, fresh.decode, fresh.dispatch⟩
  | executeInstruction =>
      obtain ⟨executing, _swept, same⟩ := Option.map_eq_some_iff.mp ran
      subst same
      exact ⟨fresh.input, fresh.ifetch, fresh.dibHit, fresh.decode, fresh.dispatch⟩
  | scheduleInstruction beyond =>
      obtain ⟨search, _swept, same⟩ := Option.map_eq_some_iff.mp ran
      subst same
      exact ⟨fresh.input, fresh.ifetch, fresh.dibHit, fresh.decode, fresh.dispatch⟩
  | handleMemoryReturn =>
      obtain ⟨memory, _finished, same⟩ := Option.map_eq_some_iff.mp ran
      subst same
      exact ⟨fresh.input, serviceReturned_fresh config _ _ _ _ fresh.ifetch, fresh.dibHit,
        fresh.decode, fresh.dispatch⟩
  | operateLsq =>
      obtain ⟨memory, _finished, loaded⟩ := Option.bind_eq_some_iff.mp ran
      obtain ⟨loads, _issued, same⟩ := Option.map_eq_some_iff.mp loaded
      subst same
      exact ⟨fresh.input, fresh.ifetch, fresh.dibHit, fresh.decode, fresh.dispatch⟩
  | dispatchInstruction => exact dispatchLoop_undispatched config _ state next fresh ran
  | decodeInstruction =>
      cases ran
      exact decodeInstruction_undispatched config hooks state inOrder fresh
  | promoteToDecode => exact promoteToDecode_undispatched config state next fresh ran
  | fetchInstruction =>
      cases ran
      exact ⟨fresh.input, fetchGroups_fresh config _ _ _ fresh.ifetch, fresh.dibHit, fresh.decode,
        fresh.dispatch⟩
  | checkDib =>
      cases ran
      have unchecked : AllFresh (state.ifetchBuffer.dropWhile (fun instr => instr.dibChecked)) :=
        fresh.ifetch.subset (List.dropWhile_suffix _).subset
      exact ⟨fresh.input, ((fresh.ifetch.subset (List.takeWhile_prefix _).subset).append
        (checkEach_fresh hooks _ _ _ (unchecked.subset (List.take_subset _ _)))).append
          (unchecked.subset (List.drop_subset _ _)), fresh.dibHit, fresh.decode, fresh.dispatch⟩
  | initializeInstruction =>
      cases ran
      exact readInstructions_fresh hooks _ state fresh

theorem occur_undispatched (state next : O3Cpu Module) (event : Event)
    (fresh : state.Undispatched) (ran : state.occur config event = some next) :
    next.Undispatched := by
  obtain ⟨_, _, added, _, _, same, traced⟩ := occur_shape config state next event ran
  rw [same]
  refine ⟨fresh.input.append ?_, fresh.ifetch, fresh.dibHit, fresh.decode, fresh.dispatch⟩
  intro instr member
  obtain ⟨instrId, record, isTraced⟩ := traced instr member
  rw [isTraced]
  exact OooModelInstr.ofTrace_fresh instrId record

theorem init_undispatched (l1iBus l1dBus : Channel) (modules : Module) :
    (O3Cpu.init config l1iBus l1dBus modules).Undispatched :=
  ⟨AllFresh.nil, AllFresh.nil, AllFresh.nil, AllFresh.nil, AllFresh.nil⟩

end O3Cpu

end ChampSim.Core
