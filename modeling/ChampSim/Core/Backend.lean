/-
The stages of the core from dispatch to retirement.

`none` is a failed assertion of the source, or what the register allocator
refuses.
-/

import ChampSim.Core.Frontend

set_option autoImplicit false

namespace ChampSim.Core

open Cache

/-! ### Dispatch -/

/-- An instruction that is being dispatched, and the two memory queues. -/
structure MemorySchedule where
  instr : OooModelInstr
  lq : List (Option LsqEntry)
  sq : List LsqEntry

namespace MemorySchedule

/-- The comparison that `std::max_element` is given for a load of `smem`. -/
def forwardsLess (smem : Address) (lhs rhs : LsqEntry) : Bool :=
  decide (lhs.virtualAddress ≠ smem) ||
    (decide (rhs.virtualAddress = smem) && decide (lhs.instrId < rhs.instrId))

/-- One load of the instruction: it takes a slot of the load queue, and a
store to the same address forwards to it. -/
def scheduleLoad (schedule : MemorySchedule) (smem : Address) : Option MemorySchedule :=
  let slot := schedule.lq.findIdx (fun entry => entry.isNone)
  let entry : LsqEntry :=
    { instrId := schedule.instr.instrId
      virtualAddress := smem
      ip := schedule.instr.ip
      asid := schedule.instr.asid }
  let waiting := { schedule with lq := schedule.lq.set slot (some entry) }
  if schedule.lq.length ≤ slot then none
  else
    match Queue.maxElement (forwardsLess smem) schedule.sq with
    | none => some waiting
    | some index =>
        match schedule.sq[index]? with
        | none => some waiting
        | some store =>
            if store.virtualAddress ≠ smem then some waiting
            else if store.fetchIssued then
              (entry.finishInstr schedule.instr).map fun instr =>
                { schedule with instr, lq := schedule.lq.set slot none }
            else if store.instrId < schedule.instr.instrId then
              some { schedule with
                lq := schedule.lq.set slot (some { entry with producerId := some store.instrId })
                sq := schedule.sq.set index
                  { store with lqDependOnMe := store.lqDependOnMe ++ [slot] } }
            else none

def scheduleStore (schedule : MemorySchedule) (dmem : Address) : MemorySchedule :=
  { schedule with
    sq := schedule.sq ++
      [{ instrId := schedule.instr.instrId
         virtualAddress := dmem
         ip := schedule.instr.ip
         asid := schedule.instr.asid }] }

end MemorySchedule

def doMemoryScheduling (schedule : MemorySchedule) : Option MemorySchedule :=
  (schedule.instr.sourceMemory.foldlM MemorySchedule.scheduleLoad schedule).map fun loaded =>
    schedule.instr.destinationMemory.foldl MemorySchedule.scheduleStore loaded

namespace O3Cpu

variable {Module : Type} (config : Config)

def canDispatch (state : O3Cpu Module) (instr : OooModelInstr) : Prop :=
  instr.readyTime ≤ state.currentTime ∧ state.rob.length ≠ config.robSize ∧
    instr.sourceMemory.length ≤ state.lq.countP (fun entry => entry.isNone) ∧
      instr.destinationMemory.length + state.sq.length ≤ config.sqSize

instance (state : O3Cpu Module) (instr : OooModelInstr) :
    Decidable (state.canDispatch config instr) :=
  inferInstanceAs (Decidable (_ ∧ _))

/-- The front of the dispatch buffer goes to the reorder buffer. -/
def dispatchFront (state : O3Cpu Module) (instr : OooModelInstr) (rest : List OooModelInstr) :
    Option (O3Cpu Module) :=
  (doMemoryScheduling { instr, lq := state.lq, sq := state.sq }).map fun schedule =>
    { state with
      dispatchBuffer := rest
      rob := state.rob ++ [{ schedule.instr with
        readyTime := state.currentTime + state.latency config.schedulingLatency }]
      lq := schedule.lq
      sq := schedule.sq }

/-- The loop of `dispatch_instruction`, with the bandwidth that remains. -/
def dispatchLoop : Nat → O3Cpu Module → Option (O3Cpu Module)
  | 0, state => some state
  | bandwidth + 1, state =>
      match state.dispatchBuffer with
      | [] => some state
      | instr :: rest =>
          if state.canDispatch config instr then
            (state.dispatchFront config instr rest).bind (dispatchLoop bandwidth)
          else some state

def dispatchInstruction (state : O3Cpu Module) : Option (O3Cpu Module) :=
  dispatchLoop config config.dispatchWidth state

/-! ### Scheduling -/

def renameEach (rename : RegisterAllocator → Nat → Option (Nat × RegisterAllocator)) :
    RegisterAllocator → List Nat → Option (List Nat × RegisterAllocator) :=
  Queue.sweep rename

def doScheduling (alloc : RegisterAllocator) (instr : OooModelInstr) :
    Option (OooModelInstr × RegisterAllocator) :=
  (renameEach RegisterAllocator.renameSrcRegister alloc instr.sourceRegisters).bind
    fun (sourceRegisters, renamed) =>
      (renameEach (fun current reg => current.renameDestRegister reg instr.instrId) renamed
        instr.destinationRegisters).map fun (destinationRegisters, last) =>
          ({ instr with sourceRegisters, destinationRegisters, scheduled := true }, last)

def sourcesToAllocate (beyond : RegisterAllocator → Nat → Bool) (alloc : RegisterAllocator)
    (instr : OooModelInstr) : Nat :=
  instr.sourceRegisters.countP (fun reg => !alloc.isAllocated beyond reg)

/-- One turn of the search, with the bandwidth that remains. Without enough
free registers nothing remains of it. -/
def scheduleVisit (beyond : RegisterAllocator → Nat → Bool) (time : Nat)
    (search : Nat × RegisterAllocator) (instr : OooModelInstr) :
    Option (OooModelInstr × (Nat × RegisterAllocator)) :=
  if search.1 = 0 then some (instr, search)
  else if search.2.countFreeRegisters <
      sourcesToAllocate beyond search.2 instr + instr.destinationRegisters.length then
    some (instr, (0, search.2))
  else
    (if !instr.scheduled && instr.isReady time then doScheduling search.2 instr
      else some (instr, search.2)).map fun (scheduled, alloc) =>
        (scheduled, (if scheduled.executed then search.1 else search.1 - 1, alloc))

def scheduleInstruction (beyond : RegisterAllocator → Nat → Bool) (state : O3Cpu Module) :
    Option (O3Cpu Module) :=
  (Queue.sweep (scheduleVisit beyond state.currentTime)
    (config.schedulerSize, state.regAllocator) state.rob).map fun (rob, search) =>
      { state with rob, regAllocator := search.2 }

/-! ### Execution -/

/-- Whether all sources are valid, or `none` when the file rejects one. -/
def sourcesValid (alloc : RegisterAllocator) : List Nat → Option Bool
  | [] => some true
  | reg :: rest =>
      (alloc.isValid reg).bind fun valid => if valid then sourcesValid alloc rest else some false

/-- The part of a core that executions change, with the bandwidth that remains. -/
structure Executing where
  bandwidth : Nat
  lq : List (Option LsqEntry)
  sq : List LsqEntry

def markReady (instrId time : Nat) (entry : LsqEntry) : LsqEntry :=
  if entry.instrId = instrId then { entry with readyTime := some time } else entry

def doExecution (time : Nat) (executing : Executing) (instr : OooModelInstr) :
    OooModelInstr × Executing :=
  ({ instr with executed := true, readyTime := time },
    { bandwidth := executing.bandwidth - 1
      lq := executing.lq.map (Option.map (markReady instr.instrId time))
      sq := executing.sq.map (markReady instr.instrId time) })

def executeVisit (alloc : RegisterAllocator) (time finish : Nat) (executing : Executing)
    (instr : OooModelInstr) : Option (OooModelInstr × Executing) :=
  if executing.bandwidth ≠ 0 ∧ instr.scheduled = true ∧ instr.executed = false ∧
      instr.isReady time = true then
    (sourcesValid alloc instr.sourceRegisters).map fun ready =>
      if ready then doExecution finish executing instr else (instr, executing)
  else some (instr, executing)

def executeInstruction (state : O3Cpu Module) : Option (O3Cpu Module) :=
  (Queue.sweep
    (executeVisit state.regAllocator state.currentTime
      (state.currentTime + state.latency config.execLatency))
    { bandwidth := config.execWidth, lq := state.lq, sq := state.sq } state.rob).map
      fun (rob, executing) => { state with rob, lq := executing.lq, sq := executing.sq }

/-! ### Completion -/

/-- The part of a core that completions change, with the bandwidth that remains. -/
structure Completing where
  bandwidth : Nat
  regAllocator : RegisterAllocator
  fetchResumeTime : Option Nat

def doCompleteExecution (resume : Nat) (completing : Completing) (instr : OooModelInstr) :
    Option (OooModelInstr × Completing) :=
  (instr.destinationRegisters.foldlM RegisterAllocator.completeDestRegister
    completing.regAllocator).map fun regAllocator =>
      ({ instr with completed := true },
        { bandwidth := completing.bandwidth - 1
          regAllocator
          fetchResumeTime :=
            if instr.branchMispredicted then some resume else completing.fetchResumeTime })

def completeVisit (time resume : Nat) (completing : Completing) (instr : OooModelInstr) :
    Option (OooModelInstr × Completing) :=
  if completing.bandwidth ≠ 0 ∧ instr.executed = true ∧ instr.completed = false ∧
      instr.isReady time = true ∧ instr.completedMemOps = instr.numMemOps then
    doCompleteExecution resume completing instr
  else some (instr, completing)

def completeInflightInstruction (state : O3Cpu Module) : Option (O3Cpu Module) :=
  (Queue.sweep
    (completeVisit state.currentTime (state.currentTime + config.branchMispredictPenalty))
    { bandwidth := config.execWidth
      regAllocator := state.regAllocator
      fetchResumeTime := state.fetchResumeTime } state.rob).map fun (rob, completing) =>
        { state with
          rob
          regAllocator := completing.regAllocator
          fetchResumeTime := completing.fetchResumeTime }

/-! ### Retirement -/

def retiring (state : O3Cpu Module) : List OooModelInstr :=
  Queue.span config.retireWidth (fun instr => instr.completed) state.rob

def retireRegisters (alloc : RegisterAllocator) (instr : OooModelInstr) :
    Option RegisterAllocator :=
  instr.destinationRegisters.foldlM RegisterAllocator.retireDestRegister alloc

def retireRob (state : O3Cpu Module) : Option (O3Cpu Module) :=
  ((state.retiring config).foldlM retireRegisters state.regAllocator).map fun regAllocator =>
    { state with
      regAllocator
      numRetired := state.numRetired + (state.retiring config).length
      rob := state.rob.drop (state.retiring config).length }

/-! ### Stores and loads -/

/-- The load of a slot is finished and leaves the load queue. -/
def releaseLoad (producerId : Nat) (memory : List OooModelInstr × List (Option LsqEntry))
    (slot : Nat) : Option (List OooModelInstr × List (Option LsqEntry)) :=
  memory.2[slot]?.join.bind fun dependent =>
    if dependent.producerId = some producerId then
      (dependent.finish memory.1).map fun rob => (rob, memory.2.set slot none)
    else none

def doFinishStore (memory : List OooModelInstr × List (Option LsqEntry)) (sqEntry : LsqEntry) :
    Option (List OooModelInstr × List (Option LsqEntry)) :=
  (sqEntry.finish memory.1).bind fun rob =>
    sqEntry.lqDependOnMe.foldlM (releaseLoad sqEntry.instrId) (rob, memory.2)

def storePacket (sqEntry : LsqEntry) : Request :=
  { vAddress := sqEntry.virtualAddress
    instrId := sqEntry.instrId
    ip := sqEntry.ip }

/-- Stores leave the queue from the front, up to the first that is not
complete or that the bus refuses. -/
def completeStores (complete : LsqEntry → Bool) :
    Nat → Channel → List LsqEntry → List LsqEntry × Channel
  | 0, bus, sq => (sq, bus)
  | _, bus, [] => ([], bus)
  | bandwidth + 1, bus, entry :: rest =>
      if complete entry then
        match issueWrite config bus (storePacket entry) with
        | some issued => completeStores complete bandwidth issued rest
        | none => (entry :: rest, bus)
      else (entry :: rest, bus)

/-- One turn of the loop over the load queue, with the bandwidth that remains. -/
def issueLoad (time : Nat) (loads : Nat × Channel) (lqEntry : Option LsqEntry) :
    Option (Option LsqEntry × (Nat × Channel)) :=
  match lqEntry with
  | none => some (none, loads)
  | some entry =>
      if 0 < loads.1 ∧ entry.producerId = none ∧ entry.fetchIssued = false ∧
          entry.readyTime.any (fun ready => decide (ready < time)) = true then
        match issueRead config loads.2 (storePacket entry) with
        | some issued => some (some { entry with fetchIssued := true }, (loads.1 - 1, issued))
        | none => some (some entry, loads)
      else some (some entry, loads)

def isFinishable (time : Nat) (entry : LsqEntry) : Bool :=
  !entry.fetchIssued && entry.readyTime.any (fun ready => decide (ready ≤ time))

/-- Whether the instruction of a store has retired: it is older than all that
the reorder buffer holds. -/
def isRetired (rob : List OooModelInstr) (entry : LsqEntry) : Bool :=
  rob.head?.all (fun front => decide (entry.instrId < front.instrId))

/-- The stores that finish in this cycle: `std::partition_point` finds the
first that has not finished. -/
def finishing (state : O3Cpu Module) : List LsqEntry :=
  Queue.span config.sqWidth (isFinishable state.currentTime)
    (state.sq.dropWhile (fun entry => entry.fetchIssued))

/-- Stores finish, stores of retired instructions complete, and loads are
issued. -/
def operateLsq (state : O3Cpu Module) : Option (O3Cpu Module) :=
  let issued := state.sq.takeWhile (fun entry => entry.fetchIssued)
  let unfetched := state.sq.dropWhile (fun entry => entry.fetchIssued)
  let finishing := state.finishing config
  let finished := finishing.map
    (fun entry => { entry with fetchIssued := true, readyTime := some state.currentTime })
  (finishing.foldlM doFinishStore (state.rob, state.lq)).bind fun (rob, lq) =>
    let completed := completeStores config
      (fun entry => isRetired state.rob entry &&
        entry.readyTime.any (fun ready => decide (ready ≤ state.currentTime)))
      (config.sqWidth - finishing.length) state.l1dBus
      (issued ++ finished ++ unfetched.drop finishing.length)
    (Queue.sweep (issueLoad config state.currentTime) (config.lqWidth, completed.2) lq).map
      fun (loaded, loads) =>
        { state with rob, lq := loaded, sq := completed.1, l1dBus := loads.2 }

/-! ### Memory returns -/

/-- The dependents of a returned block are fetched while bandwidth remains:
what remains of it, of the dependents, and the fetch buffer. -/
def serviceDependents (vAddress : Address) :
    Nat → List Nat → List OooModelInstr → Nat × List Nat × List OooModelInstr
  | fetchBandwidth, [], buffer => (fetchBandwidth, [], buffer)
  | 0, dependents, buffer => (0, dependents, buffer)
  | fetchBandwidth + 1, dependent :: rest, buffer =>
      let index := buffer.findIdx (fun instr => decide (instr.instrId = dependent))
      match buffer[index]? with
      | none => serviceDependents vAddress (fetchBandwidth + 1) rest buffer
      | some fetched =>
          if config.blockNumber fetched.ip = config.blockNumber vAddress ∧
              fetched.fetchIssued = true then
            serviceDependents vAddress fetchBandwidth rest
              (buffer.set index { fetched with fetchCompleted := true })
          else serviceDependents vAddress (fetchBandwidth + 1) rest buffer

/-- The loop over what the instruction cache returned, with both bandwidths
that remain. -/
def serviceReturned : Nat → Nat → List Response → List OooModelInstr →
    List Response × List OooModelInstr
  | 0, _, returned, buffer => (returned, buffer)
  | _ + 1, _, [], buffer => ([], buffer)
  | l1iBandwidth + 1, fetchBandwidth, entry :: rest, buffer =>
      if fetchBandwidth = 0 then (entry :: rest, buffer)
      else
        let serviced := serviceDependents config entry.vAddress fetchBandwidth
          entry.instrDependOnMe buffer
        if serviced.2.1.isEmpty then
          serviceReturned l1iBandwidth serviced.1 rest serviced.2.2
        else ({ entry with instrDependOnMe := serviced.2.1 } :: rest, serviced.2.2)

/-- A load of the returned block that has been issued is finished. -/
def finishLoad (vAddress : Address) (rob : List OooModelInstr) (lqEntry : Option LsqEntry) :
    Option (Option LsqEntry × List OooModelInstr) :=
  match lqEntry with
  | none => some (none, rob)
  | some entry =>
      if entry.fetchIssued = true ∧
          config.blockNumber entry.virtualAddress = config.blockNumber vAddress then
        (entry.finish rob).map fun finished => (none, finished)
      else some (some entry, rob)

def finishLoads (memory : List OooModelInstr × List (Option LsqEntry)) (response : Response) :
    Option (List OooModelInstr × List (Option LsqEntry)) :=
  (Queue.sweep (finishLoad config response.vAddress) memory.1 memory.2).map
    fun (lq, rob) => (rob, lq)

def handleMemoryReturn (state : O3Cpu Module) : Option (O3Cpu Module) :=
  let fetched := serviceReturned config config.l1iBandwidth config.fetchWidth
    state.l1iBus.returned state.ifetchBuffer
  ((state.l1dBus.returned.take config.l1dBandwidth).foldlM (finishLoads config)
    (state.rob, state.lq)).map fun (rob, lq) =>
      { state with
        ifetchBuffer := fetched.2
        l1iBus := { state.l1iBus with returned := fetched.1 }
        l1dBus := { state.l1dBus with returned := state.l1dBus.returned.drop config.l1dBandwidth }
        rob
        lq }

end O3Cpu

end ChampSim.Core
