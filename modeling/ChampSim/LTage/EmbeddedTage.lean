/-
The TAGE predictor of branch/LTage/tage.h, which L-TAGE embeds.

It is a second copy of the source of branch/Tage with constants of its own, and
it is translated here on its own. Only the data types are shared. Each function
is followed by the proof that it computes what the stand-alone function
computes.
-/

import ChampSim.Tage.Runs

set_option autoImplicit false

namespace ChampSim.LTage.EmbeddedTage

open Msl Branch ShiftRegister
open Tage (TageEntry BranchInfo)

def numComponents : Int := 13

def bimodalEntries : Nat := 16 * 1024

def phistBits : Nat := 16

def weaklyTaken : Int := 4

def weaklyNotTaken : Int := 3

def resetUsefulInterval : Int := 512 * 1024

def tagWidths : List Nat := [7, 7, 8, 8, 9, 10, 11, 12, 12, 13, 14, 15]

def histLens : List Nat := [4, 6, 10, 16, 25, 40, 64, 101, 160, 254, 403, 640]

def tageIndexBits : List Nat := [10, 10, 10, 10, 10, 10, 10, 10, 10, 10, 10, 10]

def ofComponent (table : List Nat) (component : Int) : Nat :=
  table.getD (component - 1).toNat 0

def components : List Int := Int.range 1 numComponents

def predictsTaken {width : Nat} (counter : Fwcounter width) : Bool :=
  decide (counter.value > counter.maximum / 2)

/-! ### Initialisation -/

def resetEntry (entry : TageEntry) : TageEntry :=
  { pred := entry.pred.assign 0
    tag := 0
    u := entry.u.assign 0 }

def resetInfo (info : BranchInfo) : BranchInfo :=
  { branchIp := -1
    providerComp := -1
    altpredComp := -1
    providerIndex := -1
    altpredIndex := -1
    providerCompPred := true
    altpredCompPred := true
    ultimatePred := true
    providerCompEntry := resetEntry info.providerCompEntry
    altpredCompEntry := resetEntry info.altpredCompEntry
    bimodalEntry := info.bimodalEntry.assign 2 }

def initializeBranchPredictor (tage : Tage) : Tage :=
  { tage with
    tageTable := tage.tageTable.map2 resetEntry
    bimodalTable := tage.bimodalTable.map (fun counter => counter.assign (1 + counter.maximum / 2))
    numBranches := 0
    ghist := 0
    phist := 0
    branchInfo := resetInfo tage.branchInfo }

theorem initializeBranchPredictor_eq :
    initializeBranchPredictor = Tage.initializeBranchPredictor := rfl

/-! ### Hashes -/

def getGhistHash (tage : Tage) (inSize outSize : Nat) : BitVec 32 :=
  (List.range inSize).foldl
    (fun hash i =>
      if tage.ghist.getLsbD i then hash ^^^ (1#64 <<< (i % outSize)).setWidth 32 else hash) 0

def tagHash (tage : Tage) (ip : Address) (component : Int) : BitVec 32 :=
  let ip_ := ip.setWidth 32
  let width := ofComponent tagWidths component
  let length := ofComponent histLens component
  let globalHistoryHash := getGhistHash tage length width
  let globalHistoryHash := globalHistoryHash ^^^ (getGhistHash tage length (width - 1) <<< 1)
  (ip_ &&& ((1#32 <<< width) - 1)) ^^^ globalHistoryHash

def indexHash (tage : Tage) (ip : Address) (component : Int) : BitVec 32 :=
  let ip_ := ip.setWidth 32
  let bits := ofComponent tageIndexBits component
  let globalHistoryHash := getGhistHash tage (ofComponent histLens component) bits
  (ip_ ^^^ (ip_ >>> bits) ^^^ globalHistoryHash ^^^ tage.phist) &&& ((1#32 <<< bits) - 1)

/-! ### Prediction -/

/-- `tage_table[i - 1][tage_index[i]]`. -/
def slotEntry (tage : Tage) (ip : Address) (component : Int) : TageEntry :=
  tage.entry component (indexHash tage ip component).toInt

def tagMatches (tage : Tage) (ip : Address) (component : Int) : Bool :=
  (slotEntry tage ip component).tag == tagHash tage ip component

/-- The search loop over `(provider_comp, altpred_comp)`. -/
def search (matched : Int → Bool) : Int × Int :=
  components.foldl
    (fun found component =>
      if matched component then
        (component, if found.1 ≠ -1 then found.1 else found.2)
      else found) (-1, -1)

def predictBranch (tage : Tage) (ip : Address) : Bool × Tage :=
  let basePred := tage.bimodalTable.get (ip.toNat % bimodalEntries : Nat)
  let (provider, altpred) := search (tagMatches tage ip)
  let info := { resetInfo tage.branchInfo with
    bimodalEntry := basePred
    providerComp := provider
    altpredComp := altpred }
  if provider = -1 then
    let prediction := predictsTaken basePred
    (prediction, { tage with branchInfo := { info with ultimatePred := prediction } })
  else
    let entry := slotEntry tage ip provider
    let info := { info with
      providerIndex := (indexHash tage ip provider).toInt
      providerCompPred := predictsTaken entry.pred
      providerCompEntry := entry }
    let info :=
      if altpred ≠ -1 then
        { info with
          altpredIndex := (indexHash tage ip altpred).toInt
          altpredCompPred := predictsTaken (slotEntry tage ip altpred).pred
          altpredCompEntry := slotEntry tage ip altpred }
      else info
    let newlyAllocated :=
      ((entry.pred.value == weaklyNotTaken || entry.pred.value == weaklyTaken) &&
        entry.u.value == 0) && decide (tage.useAltOnNa.value > 7)
    let prediction :=
      if newlyAllocated then
        if altpred = -1 then predictsTaken basePred else info.altpredCompPred
      else info.providerCompPred
    (prediction, { tage with branchInfo := { info with ultimatePred := prediction } })

theorem predictBranch_eq : predictBranch = Tage.predictBranch := rfl

/-! ### Update -/

def bimodalPrediction (info : BranchInfo) : Bool := predictsTaken info.bimodalEntry

def providerPrediction (info : BranchInfo) : Bool :=
  if info.providerComp = -1 then bimodalPrediction info else info.providerCompPred

def altpredPrediction (info : BranchInfo) : Bool :=
  if info.altpredComp = -1 then bimodalPrediction info else info.altpredCompPred

def modifyEntry (tage : Tage) (component index : Int) (change : TageEntry → TageEntry) : Tage :=
  tage.setEntry component index (change (tage.entry component index))

def updateUseAltOnNa (tage : Tage) (taken : Bool) : Tage :=
  let info := tage.branchInfo
  let provider := tage.entry info.providerComp info.providerIndex
  if info.providerComp ≠ -1 ∧ (provider.u.value = 0 ∧
      (provider.pred.value = weaklyNotTaken ∨ provider.pred.value = weaklyTaken)) ∧
      providerPrediction info ≠ altpredPrediction info then
    { tage with useAltOnNa :=
        if altpredPrediction info = taken then tage.useAltOnNa.addAssign 1
        else tage.useAltOnNa.subAssign 1 }
  else tage

theorem updateUseAltOnNa_eq : updateUseAltOnNa = Tage.updateUseAltOnNa := rfl

def updateCtr (tage : Tage) (ip : Address) (taken : Bool) : Tage :=
  let info := tage.branchInfo
  if info.providerComp ≠ -1 then
    modifyEntry tage info.providerComp info.providerIndex
      (fun entry => { entry with pred := entry.pred.addAssign (if taken then 1 else -1) })
  else
    let bimodalIndex : Int := (ip.toNat % bimodalEntries : Nat)
    let trained := (tage.bimodalTable.get bimodalIndex).addAssign (if taken then 1 else -1)
    { tage with bimodalTable := tage.bimodalTable.set bimodalIndex trained }

theorem updateCtr_eq : updateCtr = Tage.updateCtr := rfl

def updateAltpred (tage : Tage) (taken : Bool) : Tage :=
  let info := tage.branchInfo
  if info.providerComp ≠ -1 ∧ (tage.entry info.providerComp info.providerIndex).u.value = 0 ∧
      info.altpredComp ≠ -1 then
    modifyEntry tage info.altpredComp info.altpredIndex (fun entry =>
      { entry with pred := if taken then entry.pred.addAssign 1 else entry.pred.subAssign 1 })
  else tage

theorem updateAltpred_eq : updateAltpred = Tage.updateAltpred := rfl

def updateUseful (tage : Tage) (taken : Bool) : Tage :=
  let info := tage.branchInfo
  if info.providerComp ≠ -1 ∧ info.ultimatePred ≠ altpredPrediction info then
    modifyEntry tage info.providerComp info.providerIndex (fun entry =>
      { entry with u :=
          if info.ultimatePred = taken then entry.u.addAssign 1 else entry.u.subAssign 1 })
  else tage

theorem updateUseful_eq : updateUseful = Tage.updateUseful := rfl

def nextComp (provider : Int) (random : Nat) : Int :=
  let next := if provider = -1 then 1 else provider + 1
  let rand_ := random &&& ((1 <<< (numComponents - provider - 1).toNat) - 1)
  if rand_ &&& 1 ≠ 0 then
    if rand_ &&& 2 ≠ 0 then next + 1 + 1 else next + 1
  else next

def allocate (tage : Tage) (ip : Address) (taken : Bool) (stream : Rand) : Tage × Rand :=
  let info := tage.branchInfo
  if decide (info.ultimatePred ≠ taken ∧ info.providerComp < numComponents - 1) then
    let next := nextComp info.providerComp stream.rand
    match (Int.range next numComponents).find? (fun i => (slotEntry tage ip i).u.value == 0) with
    | some component =>
        (modifyEntry tage component (indexHash tage ip component).toInt (fun entry =>
          { pred := entry.pred.assign (if taken then weaklyTaken else weaklyNotTaken)
            tag := tagHash tage ip component
            u := entry.u.assign 0 }), stream.rest)
    | none =>
        ((Int.range next numComponents).foldl (fun tage i =>
          modifyEntry tage i (indexHash tage ip i).toNat
            (fun entry => { entry with u := entry.u.subAssign 1 })) tage, stream.rest)
  else (tage, stream)

theorem allocate_eq : allocate = Tage.allocate := rfl

def maskUseful (mask : Nat) (entry : TageEntry) : TageEntry :=
  { entry with u := entry.u.assign (entry.u.value.toNat &&& mask : Nat) }

def countBranch (tage : Tage) : Tage :=
  let numBranches := tage.numBranches + 1
  if numBranches = resetUsefulInterval / 2 then
    { tage with
      numBranches := numBranches
      tageTable := tage.tageTable.map2 (maskUseful 1) }
  else if numBranches = resetUsefulInterval then
    { tage with
      numBranches := 0
      tageTable := tage.tageTable.map2 (maskUseful 2) }
  else { tage with numBranches := numBranches }

theorem countBranch_eq : countBranch = Tage.countBranch := rfl

def updateHistory (tage : Tage) (ip : Address) (taken : Bool) : Tage :=
  let phist := (tage.phist <<< 1) ||| (ip.setWidth 32 &&& 1)
  { tage with
    phist := phist &&& ((1#32 <<< phistBits) - 1)
    ghist := push tage.ghist taken }

theorem updateHistory_eq : updateHistory = Tage.updateHistory := rfl

def lastBranchResult (tage : Tage) (ip : Address) (taken : Bool) (stream : Rand) : Tage × Rand :=
  let tage := updateUseAltOnNa tage taken
  let tage := updateCtr tage ip taken
  let tage := updateAltpred tage taken
  let tage := updateUseful tage taken
  let allocated := allocate tage ip taken stream
  (updateHistory (countBranch allocated.1) ip taken, allocated.2)

theorem lastBranchResult_eq : lastBranchResult = Tage.lastBranchResult := by
  funext tage ip taken stream
  unfold lastBranchResult Tage.lastBranchResult
  rw [updateUseAltOnNa_eq, updateCtr_eq, updateAltpred_eq, updateUseful_eq, allocate_eq,
    countBranch_eq, updateHistory_eq]

end ChampSim.LTage.EmbeddedTage
