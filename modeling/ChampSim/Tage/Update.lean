/-
`Tage::last_branch_result`, one definition for each stage of the source, in the
order of the source: `USE_ALT_ON_NA`, the provider's counter, the alternate's
counter, the usefulness of the provider, the allocation, the periodic reset of
all usefulness counters and the histories.

The locals that the source reads off `branch_info` at its head are read off the
state here: no stage writes `branch_info`.
-/

import ChampSim.Tage.Predict

set_option autoImplicit false

namespace ChampSim.Tage

open Msl Branch ShiftRegister

/-- `taken ? 1 : -1`. -/
def outcomeStep (taken : Bool) : Int := if taken then 1 else -1

def modifyEntry (tage : Tage) (component index : Int) (change : TageEntry → TageEntry) : Tage :=
  tage.setEntry component index (change (tage.entry component index))

def bimodalPrediction (info : BranchInfo) : Bool := predictsTaken info.bimodalEntry

def providerPrediction (info : BranchInfo) : Bool :=
  if info.providerComp = -1 then bimodalPrediction info else info.providerCompPred

def altpredPrediction (info : BranchInfo) : Bool :=
  if info.altpredComp = -1 then bimodalPrediction info else info.altpredCompPred

def updateUseAltOnNa (tage : Tage) (taken : Bool) : Tage :=
  let info := tage.branchInfo
  let provider := tage.entry info.providerComp info.providerIndex
  if info.providerComp ≠ -1 ∧ (provider.u.value = 0 ∧
      (provider.pred.value = weaklyNotTaken ∨ provider.pred.value = weaklyTaken)) ∧
      providerPrediction info ≠ altpredPrediction info then
    { tage with useAltOnNa :=
        if altpredPrediction info = taken then tage.useAltOnNa.addAssign 1
        else tage.useAltOnNa.subAssign 1 }
  else tage

def updateCtr (tage : Tage) (ip : Address) (taken : Bool) : Tage :=
  let info := tage.branchInfo
  if info.providerComp ≠ -1 then
    tage.modifyEntry info.providerComp info.providerIndex
      (fun entry => { entry with pred := entry.pred.addAssign (outcomeStep taken) })
  else
    let bimodalIndex : Int := (ip.toNat % bimodalEntries : Nat)
    let trained := (tage.bimodalTable.get bimodalIndex).addAssign (outcomeStep taken)
    { tage with bimodalTable := tage.bimodalTable.set bimodalIndex trained }

/-- The L-TAGE improvement: a provider that is not useful yet trains its
alternate as well. -/
def updateAltpred (tage : Tage) (taken : Bool) : Tage :=
  let info := tage.branchInfo
  if info.providerComp ≠ -1 ∧ (tage.entry info.providerComp info.providerIndex).u.value = 0 ∧
      info.altpredComp ≠ -1 then
    tage.modifyEntry info.altpredComp info.altpredIndex (fun entry =>
      { entry with pred := if taken then entry.pred.addAssign 1 else entry.pred.subAssign 1 })
  else tage

def updateUseful (tage : Tage) (taken : Bool) : Tage :=
  let info := tage.branchInfo
  if info.providerComp ≠ -1 ∧ info.ultimatePred ≠ altpredPrediction info then
    tage.modifyEntry info.providerComp info.providerIndex (fun entry =>
      { entry with u :=
          if info.ultimatePred = taken then entry.u.addAssign 1 else entry.u.subAssign 1 })
  else tage

/-- `next_comp` after its random advance; `rand_` keeps one bit for each
component that the shift in the source counts. -/
def nextComp (provider : Int) (random : Nat) : Int :=
  let next := if provider = -1 then 1 else provider + 1
  let rand_ := random &&& ((1 <<< (numComponents - provider - 1).toNat) - 1)
  if rand_ &&& 1 ≠ 0 then
    if rand_ &&& 2 ≠ 0 then next + 1 + 1 else next + 1
  else next

/-- The allocation loop stops at the first entry that is not useful. -/
def freeComponent (tage : Tage) (ip : Address) (next : Int) : Option Int :=
  (Int.range next numComponents).find? (fun i => (tage.slotEntry ip i).u.value == 0)

def allocateEntry (tage : Tage) (ip : Address) (taken : Bool) (component : Int) : Tage :=
  tage.modifyEntry component (tage.compIndex ip component) (fun entry =>
    { pred := entry.pred.assign (weak taken)
      tag := tage.tagHash ip component
      u := entry.u.assign 0 })

def decrementUseful (tage : Tage) (ip : Address) (next : Int) : Tage :=
  (Int.range next numComponents).foldl (fun tage i =>
    tage.modifyEntry i (tage.indexHash ip i).toNat
      (fun entry => { entry with u := entry.u.subAssign 1 })) tage

/-- The branch on which the source draws a random number and allocates. -/
def allocates (info : BranchInfo) (taken : Bool) : Bool :=
  decide (info.ultimatePred ≠ taken ∧ info.providerComp < numComponents - 1)

def allocate (tage : Tage) (ip : Address) (taken : Bool) (stream : Rand) : Tage × Rand :=
  let info := tage.branchInfo
  if allocates info taken then
    let next := nextComp info.providerComp stream.rand
    match tage.freeComponent ip next with
    | some component => (tage.allocateEntry ip taken component, stream.rest)
    | none => (tage.decrementUseful ip next, stream.rest)
  else (tage, stream)

def maskUseful (mask : Nat) (entry : TageEntry) : TageEntry :=
  { entry with u := entry.u.assign (entry.u.value.toNat &&& mask : Nat) }

/-- What the branch counter does to every entry when it is about to count. -/
def ageEntry (numBranches : Int) (entry : TageEntry) : TageEntry :=
  if numBranches + 1 = resetUsefulInterval / 2 then maskUseful 1 entry
  else if numBranches + 1 = resetUsefulInterval then maskUseful 2 entry
  else entry

def countBranch (tage : Tage) : Tage :=
  let numBranches := tage.numBranches + 1
  if numBranches = resetUsefulInterval / 2 then
    { tage with
      numBranches := numBranches
      tageTable := tage.tageTable.map2 (maskUseful 1) }
  else if numBranches = resetUsefulInterval then
    { tage with
      numBranches := 0
      tageTable := tage.tageTable.map2 (maskUseful 2) }
  else { tage with numBranches := numBranches }

def updateHistory (tage : Tage) (ip : Address) (taken : Bool) : Tage :=
  let phist := (tage.phist <<< 1) ||| (lowWord ip &&& 1)
  { tage with
    phist := phist &&& ((1#32 <<< phistBits) - 1)
    ghist := push tage.ghist taken }

def lastBranchResult (tage : Tage) (ip : Address) (taken : Bool) (stream : Rand) : Tage × Rand :=
  let tage := tage.updateUseAltOnNa taken
  let tage := tage.updateCtr ip taken
  let tage := tage.updateAltpred taken
  let tage := tage.updateUseful taken
  let allocated := tage.allocate ip taken stream
  (allocated.1.countBranch.updateHistory ip taken, allocated.2)

/-! ### What each stage leaves alone -/

/-- Equal in everything but the tables and `USE_ALT_ON_NA`. -/
structure SameFrame (left right : Tage) : Prop where
  branchInfo : left.branchInfo = right.branchInfo
  numBranches : left.numBranches = right.numBranches
  phist : left.phist = right.phist
  ghist : left.ghist = right.ghist

theorem SameFrame.refl (tage : Tage) : SameFrame tage tage := ⟨rfl, rfl, rfl, rfl⟩

theorem SameFrame.trans {first second third : Tage} (left : SameFrame first second)
    (right : SameFrame second third) : SameFrame first third :=
  ⟨left.branchInfo.trans right.branchInfo, left.numBranches.trans right.numBranches,
    left.phist.trans right.phist, left.ghist.trans right.ghist⟩

theorem SameFrame.sameHistory {left right : Tage} (same : SameFrame left right) :
    SameHistory left right :=
  ⟨fun i _inside => by rw [same.ghist], same.phist⟩

theorem modifyEntry_sameFrame (tage : Tage) (component index : Int)
    (change : TageEntry → TageEntry) :
    SameFrame (tage.modifyEntry component index change) tage := ⟨rfl, rfl, rfl, rfl⟩

theorem updateUseAltOnNa_sameFrame (tage : Tage) (taken : Bool) :
    SameFrame (tage.updateUseAltOnNa taken) tage := by
  unfold updateUseAltOnNa
  dsimp only
  split
  · exact ⟨rfl, rfl, rfl, rfl⟩
  · exact SameFrame.refl tage

theorem updateCtr_sameFrame (tage : Tage) (ip : Address) (taken : Bool) :
    SameFrame (tage.updateCtr ip taken) tage := by
  unfold updateCtr
  dsimp only
  split
  · exact modifyEntry_sameFrame _ _ _ _
  · exact ⟨rfl, rfl, rfl, rfl⟩

theorem updateAltpred_sameFrame (tage : Tage) (taken : Bool) :
    SameFrame (tage.updateAltpred taken) tage := by
  unfold updateAltpred
  dsimp only
  split
  · exact modifyEntry_sameFrame _ _ _ _
  · exact SameFrame.refl tage

theorem updateUseful_sameFrame (tage : Tage) (taken : Bool) :
    SameFrame (tage.updateUseful taken) tage := by
  unfold updateUseful
  dsimp only
  split
  · exact modifyEntry_sameFrame _ _ _ _
  · exact SameFrame.refl tage

private theorem decrement_fold_sameFrame (ip : Address) (candidates : List Int) (tage : Tage) :
    SameFrame (candidates.foldl (fun tage i => tage.modifyEntry i (tage.indexHash ip i).toNat
      (fun entry => { entry with u := entry.u.subAssign 1 })) tage) tage := by
  induction candidates generalizing tage with
  | nil => exact SameFrame.refl tage
  | cons first rest ih =>
      rw [List.foldl_cons]
      exact (ih _).trans (modifyEntry_sameFrame _ _ _ _)

theorem decrementUseful_sameFrame (tage : Tage) (ip : Address) (next : Int) :
    SameFrame (tage.decrementUseful ip next) tage :=
  decrement_fold_sameFrame ip _ tage

theorem allocateEntry_sameFrame (tage : Tage) (ip : Address) (taken : Bool) (component : Int) :
    SameFrame (tage.allocateEntry ip taken component) tage :=
  modifyEntry_sameFrame _ _ _ _

theorem allocate_sameFrame (tage : Tage) (ip : Address) (taken : Bool) (stream : Rand) :
    SameFrame (tage.allocate ip taken stream).1 tage := by
  unfold allocate
  dsimp only
  split
  · split
    · exact allocateEntry_sameFrame _ _ _ _
    · exact decrementUseful_sameFrame _ _ _
  · exact SameFrame.refl tage

end ChampSim.Tage
