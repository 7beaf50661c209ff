/-
The stages of the core before dispatch.

Instructions are read into the fetch buffer, looked up in the decoded
instruction buffer, fetched in groups of one block, and promoted to one of two
buffers, from which decoding merges them again in program order.
-/

import ChampSim.Core.State

set_option autoImplicit false

namespace ChampSim.Core

open Cache

/-! ### Single instructions -/

namespace OooModelInstr

/-- A source register that is none of the three special ones. -/
def readsOther (instr : OooModelInstr) : Bool :=
  instr.sourceRegisters.any (fun reg =>
    reg != regStackPointer && reg != regFlags && reg != regInstructionPointer)

def doStackPointerFolding (archInstr : OooModelInstr) : OooModelInstr :=
  if archInstr.destinationRegisters.contains regStackPointer &&
      (archInstr.isBranch ||
        !(archInstr.destinationMemory.isEmpty && archInstr.sourceMemory.isEmpty) ||
        !archInstr.readsOther) then
    { archInstr with
      destinationRegisters :=
        archInstr.destinationRegisters.filter (fun reg => reg != regStackPointer) }
  else archInstr

/-- A branch whose direction is only known when it is resolved. -/
def isUncertain (instr : OooModelInstr) : Bool :=
  decide (instr.branch = .branchConditional) || decide (instr.branch = .branchOther)

/-- A misprediction that is detected when the instruction is decoded. -/
def resolvesAtDecode (instr : OooModelInstr) : Bool :=
  instr.branchMispredicted &&
    (decide (instr.branch = .branchDirectJump) || decide (instr.branch = .branchDirectCall) ||
      (instr.isUncertain && instr.branchTaken == instr.branchPrediction))

def fetchReady (instr : OooModelInstr) : Bool := instr.dibChecked && !instr.fetchIssued

def isReady (time : Nat) (instr : OooModelInstr) : Bool := decide (instr.readyTime ≤ time)

def programOrder (lhs rhs : OooModelInstr) : Bool := decide (lhs.instrId < rhs.instrId)

end OooModelInstr

/-- `std::merge` by program order: an instruction of the second range goes
first only when it is older. -/
def mergeInOrder : List OooModelInstr → List OooModelInstr → List OooModelInstr
  | [], second => second
  | instr :: first, second =>
      second.takeWhile (fun other => other.programOrder instr) ++
        instr :: mergeInOrder first (second.dropWhile (fun other => other.programOrder instr))

theorem mergeInOrder_eq_merge (first second : List OooModelInstr) :
    mergeInOrder first second = first.merge second (fun lhs rhs => !rhs.programOrder lhs) := by
  induction first generalizing second with
  | nil => rw [List.nil_merge, mergeInOrder]
  | cons instr rest ih =>
      induction second with
      | nil =>
          rw [List.merge_right, mergeInOrder, List.takeWhile_nil, List.dropWhile_nil, ih,
            List.merge_right, List.nil_append]
      | cons other others ihOther =>
          cases older : other.programOrder instr with
          | true =>
              rw [List.cons_merge_cons_neg _ _ _ (by rw [older]; decide), ← ihOther, mergeInOrder,
                mergeInOrder]
              simp only [List.takeWhile_cons, List.dropWhile_cons, older, if_true,
                List.cons_append]
          | false =>
              rw [List.cons_merge_cons_pos _ _ _ (by rw [older]; rfl), mergeInOrder, ih]
              simp only [List.takeWhile_cons, List.dropWhile_cons, older, Bool.false_eq_true,
                if_false, List.nil_append]

namespace O3Cpu

variable {Module : Type} (config : Config) (hooks : CoreModules Module)

/-! ### Reading instructions -/

/-- Whether fetching stops, the predicted instruction and the state after. -/
def doPredictBranch (state : O3Cpu Module) (archInstr : OooModelInstr) :
    Bool × OooModelInstr × O3Cpu Module :=
  let btb := hooks.btbPrediction state.modules archInstr.ip archInstr.branch
  let direction := hooks.predictBranch btb.2 archInstr.ip btb.1.1 btb.1.2 archInstr.branch
  let branchPrediction := direction.1 || btb.1.2
  let target := if branchPrediction then btb.1.1 else 0
  let predicted := { archInstr with branchPrediction }
  if archInstr.isBranch then
    let operated := hooks.prefetcherBranchOperate direction.2 archInstr.ip archInstr.branch target
    let updated := hooks.updateBtb operated archInstr.ip archInstr.branchTarget
      archInstr.branchTaken archInstr.branch
    let modules := hooks.lastBranchResult updated archInstr.ip archInstr.branchTarget
      archInstr.branchTaken archInstr.branch
    if target ≠ archInstr.branchTarget ∨
        (archInstr.isUncertain = true ∧ archInstr.branchTaken ≠ branchPrediction) then
      if state.warmup then (false, predicted, { state with modules })
      else
        (true, { predicted with branchMispredicted := true },
          { state with modules, fetchResumeTime := none })
    else (archInstr.branchTaken, predicted, { state with modules })
  else (false, predicted, { state with modules := direction.2 })

def doInitInstruction (state : O3Cpu Module) (archInstr : OooModelInstr) :
    Bool × OooModelInstr × O3Cpu Module :=
  let kept :=
    if state.warmup then { archInstr with sourceRegisters := [], destinationRegisters := [] }
    else archInstr
  state.doPredictBranch hooks kept.doStackPointerFolding

/-- The loop of `initialize_instruction`, with the bandwidth that remains. -/
def readInstructions : Nat → O3Cpu Module → O3Cpu Module
  | 0, state => state
  | bandwidth + 1, state =>
      match state.inputQueue with
      | [] => state
      | front :: others =>
          if state.fetchResumeTime.any (fun resume => decide (resume ≤ state.currentTime)) then
            let initiated := state.doInitInstruction hooks front
            let next := { initiated.2.2 with
              inputQueue := others
              ifetchBuffer := state.ifetchBuffer ++
                [{ initiated.2.1 with readyTime := state.currentTime }] }
            if initiated.1 then next else readInstructions bandwidth next
          else state

def initializeInstruction (state : O3Cpu Module) : O3Cpu Module :=
  readInstructions hooks
    (min config.fetchWidth (config.ifetchBufferSize - state.ifetchBuffer.length)) state

/-! ### The decoded instruction buffer -/

def doCheckDib (time : Nat) (modules : Module) (instr : OooModelInstr) :
    OooModelInstr × Module :=
  let result := hooks.dibCheckHit modules instr.ip
  (if result.1 then
      { instr with
        fetchCompleted := true
        decoded := true
        readyTime := time
        dibChecked := true }
    else { instr with dibChecked := true }, result.2)

def checkEach (time : Nat) (modules : Module) :
    List OooModelInstr → List OooModelInstr × Module
  | [] => ([], modules)
  | instr :: rest =>
      let checked := doCheckDib hooks time modules instr
      let others := checkEach time checked.2 rest
      (checked.1 :: others.1, others.2)

def checkDib (state : O3Cpu Module) : O3Cpu Module :=
  let front := state.ifetchBuffer.takeWhile (fun instr => instr.dibChecked)
  let unchecked := state.ifetchBuffer.dropWhile (fun instr => instr.dibChecked)
  let checked := checkEach hooks state.currentTime state.modules (unchecked.take config.fetchWidth)
  { state with
    ifetchBuffer := front ++ checked.1 ++ unchecked.drop config.fetchWidth
    modules := checked.2 }

/-! ### Fetching -/

def doFetchInstruction (bus : Channel) (first : OooModelInstr) (group : List OooModelInstr) :
    Option Channel :=
  issueRead config bus
    { vAddress := first.ip
      instrId := first.instrId
      ip := first.ip
      instrDependOnMe := group.map (fun instr => instr.instrId) }

def sameBlock (first other : OooModelInstr) : Bool :=
  decide (config.blockNumber other.ip = config.blockNumber first.ip)

/-- The loop of `fetch_instruction` over the groups of one block, with the
bandwidth that remains. -/
def fetchGroups : Nat → Channel → List OooModelInstr → List OooModelInstr × Channel
  | 0, bus, buffer => (buffer, bus)
  | bandwidth + 1, bus, buffer =>
      match buffer.dropWhile (fun instr => !instr.fetchReady) with
      | [] => (buffer, bus)
      | first :: rest =>
          let group := first :: rest.takeWhile (sameBlock config first)
          let issued := doFetchInstruction config bus first group
          let others := fetchGroups bandwidth (issued.getD bus)
            (rest.dropWhile (sameBlock config first))
          (buffer.takeWhile (fun instr => !instr.fetchReady) ++
            (if issued.isSome then group.map (fun instr => { instr with fetchIssued := true })
              else group) ++ others.1, others.2)

def fetchInstruction (state : O3Cpu Module) : O3Cpu Module :=
  let fetched := fetchGroups config config.l1iBandwidth state.l1iBus state.ifetchBuffer
  { state with ifetchBuffer := fetched.1, l1iBus := fetched.2 }

/-! ### Promotion -/

/-- `none` when `get_span` is asked for a negative span. -/
def promoteToDecode (state : O3Cpu Module) : Option (O3Cpu Module) :=
  if config.dibHitBufferSize < state.dibHitBuffer.length ∨
      config.decodeBufferSize < state.decodeBuffer.length then none
  else
    let bandwidth := min config.fetchWidth
      (min (config.dibHitBufferSize - state.dibHitBuffer.length)
        (config.decodeBufferSize - state.decodeBuffer.length))
    let fetched := state.ifetchBuffer.takeWhile (fun instr => instr.fetchCompleted)
    let window := Queue.span bandwidth
      (fun instr => instr.fetchCompleted && instr.isReady state.currentTime) fetched
    some { state with
      dibHitBuffer := state.dibHitBuffer ++ (window.filter (fun instr => instr.decoded)).map
        (fun instr => { instr with readyTime := state.currentTime + config.dibHitLatency })
      decodeBuffer := state.decodeBuffer ++ (window.filter (fun instr => !instr.decoded)).map
        (fun instr =>
          { instr with readyTime := state.currentTime + state.latency config.decodeLatency })
      ifetchBuffer := state.ifetchBuffer.drop window.length }

end O3Cpu

/-! ### Decoding -/

/-- What the loops of `decode_instruction` have chosen from the two buffers,
what they have not, and the two bandwidths that remain. -/
structure Selection where
  inorder : Nat
  decoding : Nat
  dibHits : List OooModelInstr := []
  decodes : List OooModelInstr := []
  dibHitsLeft : List OooModelInstr
  decodesLeft : List OooModelInstr

namespace Selection

def takeDibHit (selection : Selection) (entry : OooModelInstr) (rest : List OooModelInstr) :
    Selection :=
  { selection with
    inorder := selection.inorder - 1
    dibHits := selection.dibHits ++ [entry]
    dibHitsLeft := rest }

def takeDecode (selection : Selection) (entry : OooModelInstr) (rest : List OooModelInstr) :
    Selection :=
  { selection with
    inorder := selection.inorder - 1
    decoding := selection.decoding - 1
    decodes := selection.decodes ++ [entry]
    decodesLeft := rest }

/-- One turn of the loop while both buffers have instructions. -/
def chooseEither (time : Nat) (selection : Selection) : Option Selection :=
  match selection.dibHitsLeft, selection.decodesLeft with
  | dibHit :: dibHits, decode :: decodes =>
      if 0 < selection.decoding ∧
          (if decode.programOrder dibHit then decode else dibHit).isReady time = true then
        if dibHit.programOrder decode then some (selection.takeDibHit dibHit dibHits)
        else some (selection.takeDecode decode decodes)
      else none
  | _, _ => none

def chooseDibHit (time : Nat) (selection : Selection) : Option Selection :=
  match selection.dibHitsLeft with
  | dibHit :: dibHits =>
      if dibHit.isReady time &&
          selection.decodesLeft.head?.all (fun decode => dibHit.programOrder decode) then
        some (selection.takeDibHit dibHit dibHits)
      else none
  | [] => none

def chooseDecode (time : Nat) (selection : Selection) : Option Selection :=
  match selection.decodesLeft with
  | decode :: decodes =>
      if decide (0 < selection.decoding) && decode.isReady time &&
          selection.dibHitsLeft.head?.all (fun dibHit => decode.programOrder dibHit) then
        some (selection.takeDecode decode decodes)
      else none
  | [] => none

/-- A loop that chooses while the bandwidth of the dispatch buffer lasts. -/
def loop (choose : Selection → Option Selection) : Nat → Selection → Selection
  | 0, selection => selection
  | inorder + 1, selection =>
      match choose selection with
      | some next => loop choose inorder next
      | none => selection

def run (choose : Selection → Option Selection) (selection : Selection) : Selection :=
  loop choose selection.inorder selection

end Selection

namespace O3Cpu

variable {Module : Type} (config : Config) (hooks : CoreModules Module)

def selectDecodes (state : O3Cpu Module) : Selection :=
  let selection : Selection :=
    { inorder := min config.dibInorderWidth (config.dispatchBufferSize - state.dispatchBuffer.length)
      decoding := config.decodeWidth
      dibHitsLeft := state.dibHitBuffer
      decodesLeft := state.decodeBuffer }
  ((selection.run (Selection.chooseEither state.currentTime)).run
    (Selection.chooseDibHit state.currentTime)).run (Selection.chooseDecode state.currentTime)

def doDecode (state : O3Cpu Module) (dbEntry : OooModelInstr) :
    OooModelInstr × O3Cpu Module :=
  ({ dbEntry with
      branchMispredicted := dbEntry.branchMispredicted && !dbEntry.resolvesAtDecode
      readyTime := state.currentTime + state.latency config.dispatchLatency },
    { state with
      modules := hooks.dibFill state.modules dbEntry.ip
      fetchResumeTime :=
        if dbEntry.resolvesAtDecode then some (state.currentTime + config.branchMispredictPenalty)
        else state.fetchResumeTime })

def decodeEach (state : O3Cpu Module) :
    List OooModelInstr → List OooModelInstr × O3Cpu Module
  | [] => ([], state)
  | entry :: rest =>
      let decoded := state.doDecode config hooks entry
      let others := decodeEach decoded.2 rest
      (decoded.1 :: others.1, others.2)

def doDibHit (state : O3Cpu Module) (dibEntry : OooModelInstr) : OooModelInstr :=
  { dibEntry with readyTime := state.currentTime + state.latency config.dispatchLatency }

def decodeInstruction (state : O3Cpu Module) : O3Cpu Module :=
  let selection := state.selectDecodes config
  let decoded := state.decodeEach config hooks selection.decodes
  { decoded.2 with
    dispatchBuffer := state.dispatchBuffer ++
      mergeInOrder (selection.dibHits.map (state.doDibHit config)) decoded.1
    dibHitBuffer := selection.dibHitsLeft
    decodeBuffer := selection.decodesLeft }

end O3Cpu

end ChampSim.Core
