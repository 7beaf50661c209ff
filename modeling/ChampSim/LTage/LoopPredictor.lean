/-
The loop predictor of branch/LTage/loop_predictor.h.

An update reaches at most one set. `updatedWay` says what it leaves in each way
of that set, and every property of runs is derived from
`entry_lastBranchResult`.
-/

import ChampSim.Library.CArray
import ChampSim.Msl.Fwcounter
import ChampSim.Branch.Module
import Mathlib.Data.Int.Range

set_option autoImplicit false

namespace ChampSim.LTage

open Msl Branch

def numWays : Nat := 4

def initAge : Int := 255

def tagWidth : Nat := 14

def iterWidth : Nat := 14

def numSets : Nat := 64

def indexWidth : Nat := 6

/-- The ways of a set, in the order of every loop of the source. -/
def ways : List Int := Int.range 0 numWays

@[ext] structure LoopEntry where
  pastIterCnt : Fwcounter iterWidth
  currIterCnt : Fwcounter iterWidth
  tag : BitVec 32
  confidence : Fwcounter 2
  age : Fwcounter 8
deriving DecidableEq, Repr

instance : Inhabited LoopEntry :=
  ⟨⟨Fwcounter.zero iterWidth, Fwcounter.zero iterWidth, 0, Fwcounter.zero 2, Fwcounter.zero 8⟩⟩

namespace LoopEntry

def reset (entry : LoopEntry) : LoopEntry :=
  { pastIterCnt := entry.pastIterCnt.assign 0
    currIterCnt := entry.currIterCnt.assign 0
    tag := 0
    confidence := entry.confidence.assign 0
    age := entry.age.assign 0 }

/-- The entry of a branch that was taken and found no way with its tag. -/
def allocate (entry : LoopEntry) (tag : BitVec 32) : LoopEntry :=
  { pastIterCnt := entry.pastIterCnt.assign 0
    currIterCnt := entry.currIterCnt.assign 1
    confidence := entry.confidence.assign 0
    tag := tag
    age := entry.age.assign initAge }

/-- Not a regular loop: counting starts again at `count`. -/
def restart (entry : LoopEntry) (count : Int) : LoopEntry :=
  { entry with
    pastIterCnt := entry.pastIterCnt.assign 0
    currIterCnt := entry.currIterCnt.assign count
    age := entry.age.assign 0
    confidence := entry.confidence.assign 0 }

def complete (entry : LoopEntry) : LoopEntry :=
  { entry with
    pastIterCnt := entry.currIterCnt
    currIterCnt := entry.currIterCnt.assign 0
    confidence := entry.confidence.addAssign 1 }

def trainValid (entry : LoopEntry) (prediction taken : Bool) : LoopEntry :=
  if prediction = taken ∧ taken = true then
    { entry with
      age := entry.age.addAssign 1
      currIterCnt := entry.currIterCnt.addAssign 1 }
  else if prediction = taken ∧ taken = false then
    { entry with age := entry.age.addAssign 1 }.complete
  else if prediction ≠ taken ∧ taken = true then entry.restart 1
  else entry.restart 0

def trainUnsure (entry : LoopEntry) (taken : Bool) : LoopEntry :=
  if taken then
    if entry.pastIterCnt.value = 0 then
      { entry with currIterCnt := entry.currIterCnt.addAssign 1 }
    else if entry.currIterCnt.value + 1 > entry.pastIterCnt.value then entry.restart 1
    else { entry with currIterCnt := entry.currIterCnt.addAssign 1 }
  else if entry.pastIterCnt.value = 0 then entry.complete
  else if entry.pastIterCnt.value = entry.currIterCnt.value then entry.complete
  else entry.restart 0

def predicts (entry : LoopEntry) : Bool :=
  if entry.currIterCnt.value = entry.pastIterCnt.value then false else true

def confident (entry : LoopEntry) : Bool := entry.confidence.value == 3

/-- The update of an entry by the outcome of the branch it has predicted. -/
def learn (entry : LoopEntry) (taken : Bool) : LoopEntry :=
  if entry.confident then entry.trainValid entry.predicts taken else entry.trainUnsure taken

/-! ### What an entry can learn -/

theorem confident_iff (entry : LoopEntry) :
    entry.confident = true ↔ entry.confidence.value = 3 := beq_iff_eq

theorem predicts_iff (entry : LoopEntry) :
    entry.predicts = true ↔ entry.currIterCnt.value ≠ entry.pastIterCnt.value := by
  unfold predicts
  split
  · rename_i same
    constructor
    · intro impossible
      cases impossible
    · intro different
      exact absurd same different
  · rename_i different
    constructor
    · intro _taken
      exact different
    · intro _different
      rfl

def Advances (entry : LoopEntry) : Prop :=
  (entry.confident = true ∧ entry.currIterCnt.value ≠ entry.pastIterCnt.value) ∨
    (¬entry.confident = true ∧ (entry.pastIterCnt.value = 0 ∨
      entry.currIterCnt.value + 1 ≤ entry.pastIterCnt.value))

def Completes (entry : LoopEntry) : Prop :=
  entry.pastIterCnt.value = entry.currIterCnt.value ∨
    (¬entry.confident = true ∧ entry.pastIterCnt.value = 0)

variable {entry : LoopEntry}

theorem predicts_false (same : entry.currIterCnt.value = entry.pastIterCnt.value) :
    entry.predicts = false := if_pos same

theorem learn_advance (advances : entry.Advances) :
    ∃ age, entry.learn true =
      { entry with currIterCnt := entry.currIterCnt.addAssign 1, age := age } := by
  unfold learn
  rcases advances with ⟨confident, different⟩ | ⟨unsure, room⟩
  · rw [if_pos confident, (predicts_iff entry).mpr different]
    exact ⟨_, rfl⟩
  · rw [if_neg unsure]
    unfold trainUnsure
    rw [if_pos rfl]
    by_cases untrained : entry.pastIterCnt.value = 0
    · rw [if_pos untrained]
      exact ⟨_, rfl⟩
    · rw [if_neg untrained, if_neg (by omega)]
      exact ⟨_, rfl⟩

theorem learn_beyond (beyond : ¬entry.Advances) : entry.learn true = entry.restart 1 := by
  unfold learn
  by_cases confident : entry.confident = true
  · have same : entry.currIterCnt.value = entry.pastIterCnt.value := by
      by_contra different
      exact beyond (Or.inl ⟨confident, different⟩)
    rw [if_pos confident, predicts_false same]
    rfl
  · have full : ¬(entry.pastIterCnt.value = 0 ∨
        entry.currIterCnt.value + 1 ≤ entry.pastIterCnt.value) :=
      fun room => beyond (Or.inr ⟨confident, room⟩)
    rw [if_neg confident]
    unfold trainUnsure
    rw [if_pos rfl, if_neg (by omega), if_pos (by omega)]

theorem learn_complete (completes : entry.Completes) :
    ∃ age, entry.learn false = { entry with age := age }.complete := by
  unfold learn
  by_cases confident : entry.confident = true
  · have same : entry.pastIterCnt.value = entry.currIterCnt.value :=
      completes.resolve_right (fun untrained => untrained.1 confident)
    rw [if_pos confident, predicts_false same.symm]
    exact ⟨_, rfl⟩
  · rw [if_neg confident]
    unfold trainUnsure
    rw [if_neg Bool.false_ne_true]
    by_cases untrained : entry.pastIterCnt.value = 0
    · rw [if_pos untrained]
      exact ⟨_, rfl⟩
    · have same : entry.pastIterCnt.value = entry.currIterCnt.value :=
        completes.resolve_right (fun first => untrained first.2)
      rw [if_neg untrained, if_pos same]
      exact ⟨_, rfl⟩

theorem learn_early (early : ¬entry.Completes) : entry.learn false = entry.restart 0 := by
  have different : entry.pastIterCnt.value ≠ entry.currIterCnt.value :=
    fun same => early (Or.inl same)
  unfold learn
  by_cases confident : entry.confident = true
  · rw [if_pos confident, (predicts_iff entry).mpr different.symm]
    rfl
  · have trained : entry.pastIterCnt.value ≠ 0 := fun zero => early (Or.inr ⟨confident, zero⟩)
    rw [if_neg confident]
    unfold trainUnsure
    rw [if_neg Bool.false_ne_true, if_neg trained, if_neg different]

theorem learn_tag (entry : LoopEntry) (taken : Bool) : (entry.learn taken).tag = entry.tag := by
  cases taken with
  | true =>
      by_cases advances : entry.Advances
      · obtain ⟨age, same⟩ := learn_advance advances
        rw [same]
      · rw [learn_beyond advances]
        rfl
  | false =>
      by_cases completes : entry.Completes
      · obtain ⟨age, same⟩ := learn_complete completes
        rw [same]
        rfl
      · rw [learn_early completes]
        rfl

end LoopEntry

structure LoopBranchInfo where
  hit : Bool
  index : Int
  way : Int
  prediction : Bool
  isValidLoopPrediction : Bool
deriving DecidableEq, Repr, Inhabited

/-- `ip_ % NUM_SETS`. -/
def setIndex (ip : Address) : Int := (ip.toNat % numSets : Nat)

def loopTag (ip : Address) : BitVec 32 :=
  ((ip >>> indexWidth) &&& ((1#64 <<< tagWidth) - 1)).setWidth 32

structure LoopPredictor where
  loopComponent : CArray numSets (CArray numWays LoopEntry)
  loopBranchInfo : LoopBranchInfo
  loopPrediction : Bool
deriving Inhabited

namespace LoopPredictor

def entry (loops : LoopPredictor) (set way : Int) : LoopEntry := loops.loopComponent.at2 set way

def setEntry (loops : LoopPredictor) (set way : Int) (changed : LoopEntry) : LoopPredictor :=
  { loops with loopComponent := loops.loopComponent.set2 set way changed }

def modifyEntry (loops : LoopPredictor) (set way : Int) (change : LoopEntry → LoopEntry) :
    LoopPredictor :=
  loops.setEntry set way (change (loops.entry set way))

/-- `loop_predictor_init`: only the entries are reset. -/
def loopPredictorInit (memory : LoopPredictor) : LoopPredictor :=
  { memory with loopComponent := memory.loopComponent.map2 LoopEntry.reset }

def hitWay (loops : LoopPredictor) (ip : Address) : Option Int :=
  ways.find? (fun way => (loops.entry (setIndex ip) way).tag == loopTag ip)

def predictBranch (loops : LoopPredictor) (ip : Address) : Bool × LoopPredictor :=
  match loops.hitWay ip with
  | some way =>
      let entry := loops.entry (setIndex ip) way
      (entry.predicts,
        { loops with
          loopPrediction := entry.predicts
          loopBranchInfo :=
            { hit := true
              index := setIndex ip
              way := way
              isValidLoopPrediction := entry.confident
              prediction := entry.predicts } })
  | none =>
      (false,
        { loops with
          loopPrediction := false
          loopBranchInfo :=
            { loops.loopBranchInfo with hit := false, isValidLoopPrediction := false } })

def freeWay (loops : LoopPredictor) (ip : Address) : Option Int :=
  ways.find? (fun way => (loops.entry (setIndex ip) way).age.value == 0)

def agedEntry (entry : LoopEntry) : LoopEntry := { entry with age := entry.age.subAssign 1 }

def ageSet (loops : LoopPredictor) (set : Int) : LoopPredictor :=
  ways.foldl (fun loops way => loops.modifyEntry set way agedEntry) loops

def lastBranchResult (loops : LoopPredictor) (ip : Address) (taken : Bool) : LoopPredictor :=
  let info := loops.loopBranchInfo
  if !info.hit then
    if !taken then loops
    else
      match loops.freeWay ip with
      | some way => loops.modifyEntry (setIndex ip) way (fun entry => entry.allocate (loopTag ip))
      | none => loops.ageSet (setIndex ip)
  else
    loops.modifyEntry info.index info.way (fun entry =>
      if info.isValidLoopPrediction then entry.trainValid info.prediction taken
      else entry.trainUnsure taken)

/-! ### Entries -/

def Way (set way : Int) : Prop := (0 ≤ set ∧ set < 64) ∧ (0 ≤ way ∧ way < 4)

theorem mem_ways (way : Int) : way ∈ ways ↔ 0 ≤ way ∧ way < 4 := Int.mem_range_iff

theorem setIndex_range (ip : Address) : 0 ≤ setIndex ip ∧ setIndex ip < 64 := by
  have below : ip.toNat % numSets < 64 := Nat.mod_lt _ (by decide)
  unfold setIndex
  omega

theorem way_setIndex (ip : Address) {way : Int} (member : way ∈ ways) : Way (setIndex ip) way :=
  ⟨setIndex_range ip, (mem_ways way).mp member⟩

theorem entry_modifyEntry (loops : LoopPredictor) (set way other otherWay : Int)
    (change : LoopEntry → LoopEntry) (inside : Way other otherWay) :
    (loops.modifyEntry set way change).entry other otherWay =
      if other = set ∧ otherWay = way then change (loops.entry other otherWay)
      else loops.entry other otherWay := by
  by_cases same : other = set ∧ otherWay = way
  · obtain ⟨sameSet, sameWay⟩ := same
    subst sameSet sameWay
    rw [if_pos ⟨rfl, rfl⟩]
    exact CArray.at2_set2_same _ _ _ _ inside.1 inside.2
  · rw [if_neg same]
    apply CArray.at2_set2_other
    by_cases sameSet : other = set
    · exact Or.inr (fun sameWay => same ⟨sameSet, sameWay⟩)
    · exact Or.inl sameSet

theorem entry_loopPredictorInit (memory : LoopPredictor) {set way : Int} (inside : Way set way) :
    memory.loopPredictorInit.entry set way = default :=
  CArray.at2_map2 _ _ _ _ inside.1 inside.2

theorem hitWay_some {loops : LoopPredictor} {ip : Address} {way : Int}
    (found : loops.hitWay ip = some way) :
    way ∈ ways ∧ (loops.entry (setIndex ip) way).tag = loopTag ip := by
  have hit := List.find?_some found
  exact ⟨List.mem_of_find?_eq_some found, eq_of_beq hit⟩

theorem freeWay_some {loops : LoopPredictor} {ip : Address} {way : Int}
    (found : loops.freeWay ip = some way) :
    way ∈ ways ∧ (loops.entry (setIndex ip) way).age.value = 0 := by
  have aged := List.find?_some found
  exact ⟨List.mem_of_find?_eq_some found, eq_of_beq aged⟩

/-! ### A prediction and the update after it -/

/-- `loop_branch_info` after a hit. -/
def hitInfo (loops : LoopPredictor) (ip : Address) (way : Int) : LoopBranchInfo :=
  { hit := true
    index := setIndex ip
    way := way
    isValidLoopPrediction := (loops.entry (setIndex ip) way).confident
    prediction := (loops.entry (setIndex ip) way).predicts }

theorem predictBranch_hit {loops : LoopPredictor} {ip : Address} {way : Int}
    (found : loops.hitWay ip = some way) :
    loops.predictBranch ip =
      ((loops.entry (setIndex ip) way).predicts,
        { loops with
          loopPrediction := (loops.entry (setIndex ip) way).predicts
          loopBranchInfo := loops.hitInfo ip way }) := by
  unfold predictBranch
  rw [found]
  rfl

theorem predictBranch_miss {loops : LoopPredictor} {ip : Address}
    (missed : loops.hitWay ip = none) :
    loops.predictBranch ip =
      (false,
        { loops with
          loopPrediction := false
          loopBranchInfo :=
            { loops.loopBranchInfo with hit := false, isValidLoopPrediction := false } }) := by
  unfold predictBranch
  rw [missed]

/-- `loop_branch_info` as the prediction of `ip` leaves it. -/
def predictedInfo (loops : LoopPredictor) (ip : Address) : LoopBranchInfo :=
  (loops.predictBranch ip).2.loopBranchInfo

theorem predictedInfo_hit {loops : LoopPredictor} {ip : Address} {way : Int}
    (found : loops.hitWay ip = some way) : loops.predictedInfo ip = loops.hitInfo ip way := by
  unfold predictedInfo
  rw [predictBranch_hit found]

theorem predictedInfo_miss {loops : LoopPredictor} {ip : Address}
    (missed : loops.hitWay ip = none) :
    (loops.predictedInfo ip).hit = false ∧
      (loops.predictedInfo ip).isValidLoopPrediction = false := by
  unfold predictedInfo
  rw [predictBranch_miss missed]
  exact ⟨rfl, rfl⟩

theorem loopComponent_predictBranch (loops : LoopPredictor) (ip : Address) :
    (loops.predictBranch ip).2.loopComponent = loops.loopComponent := by
  cases found : loops.hitWay ip with
  | some way => rw [predictBranch_hit found]
  | none => rw [predictBranch_miss found]

theorem entry_predictBranch (loops : LoopPredictor) (ip : Address) :
    (loops.predictBranch ip).2.entry = loops.entry := by
  funext set way
  exact congrArg (fun component => CArray.at2 component set way)
    (loopComponent_predictBranch loops ip)

theorem hitWay_predictBranch (loops : LoopPredictor) (ip other : Address) :
    (loops.predictBranch ip).2.hitWay other = loops.hitWay other := by
  unfold hitWay
  rw [entry_predictBranch]

theorem freeWay_predictBranch (loops : LoopPredictor) (ip other : Address) :
    (loops.predictBranch ip).2.freeWay other = loops.freeWay other := by
  unfold freeWay
  rw [entry_predictBranch]

/-- What `loop_branch_info` says between the prediction of `ip` and its result. -/
structure Ready (loops : LoopPredictor) (ip : Address) : Prop where
  missed : loops.hitWay ip = none →
    loops.loopBranchInfo.hit = false ∧ loops.loopBranchInfo.isValidLoopPrediction = false
  found : ∀ way, loops.hitWay ip = some way → loops.loopBranchInfo = loops.hitInfo ip way

theorem ready_predictBranch (loops : LoopPredictor) (ip : Address) :
    Ready (loops.predictBranch ip).2 ip := by
  constructor
  · intro missed
    rw [hitWay_predictBranch] at missed
    exact predictedInfo_miss missed
  · intro way found
    rw [hitWay_predictBranch] at found
    rw [hitInfo, entry_predictBranch]
    exact predictedInfo_hit found

/-- What the update of `ip` leaves in a way of its set. -/
def updatedWay (loops : LoopPredictor) (ip : Address) (taken : Bool) (way : Int) : LoopEntry :=
  let entry := loops.entry (setIndex ip) way
  match loops.hitWay ip with
  | some hit => if way = hit then entry.learn taken else entry
  | none =>
      if taken then
        match loops.freeWay ip with
        | some free => if way = free then entry.allocate (loopTag ip) else entry
        | none => agedEntry entry
      else entry

section UpdatedWay

variable {loops : LoopPredictor} {ip : Address}

theorem updatedWay_hit {hit : Int} (found : loops.hitWay ip = some hit) (taken : Bool)
    (way : Int) :
    loops.updatedWay ip taken way =
      if way = hit then (loops.entry (setIndex ip) way).learn taken
      else loops.entry (setIndex ip) way := by
  unfold updatedWay
  rw [found]

theorem updatedWay_exit (missed : loops.hitWay ip = none) (way : Int) :
    loops.updatedWay ip false way = loops.entry (setIndex ip) way := by
  unfold updatedWay
  rw [missed]
  rfl

theorem updatedWay_allocated {chosen : Int} (missed : loops.hitWay ip = none)
    (free : loops.freeWay ip = some chosen) (way : Int) :
    loops.updatedWay ip true way =
      if way = chosen then (loops.entry (setIndex ip) way).allocate (loopTag ip)
      else loops.entry (setIndex ip) way := by
  unfold updatedWay
  rw [missed, free]
  rfl

theorem updatedWay_aged (missed : loops.hitWay ip = none) (full : loops.freeWay ip = none)
    (way : Int) :
    loops.updatedWay ip true way = agedEntry (loops.entry (setIndex ip) way) := by
  unfold updatedWay
  rw [missed, full]
  rfl

theorem updatedWay_cases (loops : LoopPredictor) (ip : Address) (taken : Bool) (way : Int) :
    (loops.hitWay ip = some way ∧
        loops.updatedWay ip taken way = (loops.entry (setIndex ip) way).learn taken) ∨
      (loops.hitWay ip = none ∧ loops.freeWay ip = some way ∧
        loops.updatedWay ip taken way =
          (loops.entry (setIndex ip) way).allocate (loopTag ip)) ∨
      (∃ age : Fwcounter 8, ((loops.entry (setIndex ip) way).age.value = 0 → age.value = 0) ∧
        loops.updatedWay ip taken way = { loops.entry (setIndex ip) way with age }) := by
  cases found : loops.hitWay ip with
  | some hit =>
      rw [updatedWay_hit found]
      by_cases same : way = hit
      · rw [if_pos same]
        exact Or.inl ⟨congrArg some same.symm, rfl⟩
      · rw [if_neg same]
        exact Or.inr (Or.inr ⟨_, id, rfl⟩)
  | none =>
      refine Or.inr ?_
      cases taken with
      | false =>
          rw [updatedWay_exit found]
          exact Or.inr ⟨_, id, rfl⟩
      | true =>
          cases free : loops.freeWay ip with
          | none =>
              rw [updatedWay_aged found free]
              refine Or.inr ⟨_, ?_, rfl⟩
              intro unused
              rw [BaseFwcounter.subAssign_one_value, unused]
              rfl
          | some chosen =>
              rw [updatedWay_allocated found free]
              by_cases same : way = chosen
              · rw [if_pos same]
                exact Or.inl ⟨rfl, congrArg some same.symm, rfl⟩
              · rw [if_neg same]
                exact Or.inr ⟨_, id, rfl⟩

end UpdatedWay

private theorem entry_age_fold (set : Int) (remaining : List Int) (distinct : remaining.Nodup)
    (loops : LoopPredictor) {other way : Int} (inside : Way other way) :
    (remaining.foldl (fun loops way => loops.modifyEntry set way agedEntry) loops).entry other way =
      if other = set ∧ way ∈ remaining then agedEntry (loops.entry other way)
      else loops.entry other way := by
  induction remaining generalizing loops with
  | nil => simp only [List.foldl_nil, List.not_mem_nil, and_false, if_false]
  | cons first rest ih =>
      obtain ⟨notLater, distinctRest⟩ := List.nodup_cons.mp distinct
      rw [List.foldl_cons, ih distinctRest, entry_modifyEntry _ _ _ _ _ _ inside]
      by_cases same : way = first
      · subst same
        simp only [notLater, and_false, if_false, and_true, List.mem_cons, true_or]
      · simp only [same, and_false, if_false, List.mem_cons, false_or]

theorem entry_ageSet (loops : LoopPredictor) (set : Int) {other way : Int}
    (inside : Way other way) :
    (loops.ageSet set).entry other way =
      if other = set then agedEntry (loops.entry other way) else loops.entry other way := by
  have distinct : ways.Nodup :=
    List.Nodup.map (fun left right same => by simpa using same) List.nodup_range
  have member : way ∈ ways := (mem_ways way).mpr inside.2
  unfold ageSet
  rw [entry_age_fold set ways distinct loops inside]
  simp only [member, and_true]

theorem entry_lastBranchResult (loops : LoopPredictor) (ip : Address) (taken : Bool)
    (ready : Ready loops ip) {set way : Int} (inside : Way set way) :
    (loops.lastBranchResult ip taken).entry set way =
      if set = setIndex ip then loops.updatedWay ip taken way else loops.entry set way := by
  have split : ∀ (other : Int) (change : LoopEntry → LoopEntry),
      (if set = setIndex ip ∧ way = other then change (loops.entry set way)
        else loops.entry set way) =
      if set = setIndex ip then
        if way = other then change (loops.entry (setIndex ip) way)
        else loops.entry (setIndex ip) way
      else loops.entry set way := by
    intro other change
    by_cases here : set = setIndex ip
    · rw [here]
      simp only [true_and, if_true]
    · simp only [here, false_and, if_false]
  unfold lastBranchResult
  dsimp only
  cases found : loops.hitWay ip with
  | some hit =>
      rw [ready.found hit found, updatedWay_hit found]
      simp only [hitInfo, Bool.not_true, Bool.false_eq_true, if_false]
      rw [entry_modifyEntry _ _ _ _ _ _ inside]
      by_cases here : set = setIndex ip ∧ way = hit
      · obtain ⟨sameSet, sameWay⟩ := here
        subst sameSet sameWay
        simp only [and_self, if_true]
        rfl
      · rw [if_neg here, ← split hit (fun entry => entry.learn taken), if_neg here]
  | none =>
      rw [(ready.missed found).1]
      cases taken with
      | false =>
          simp only [Bool.not_false, if_true]
          rw [updatedWay_exit found]
          by_cases here : set = setIndex ip
          · rw [if_pos here, here]
          · rw [if_neg here]
      | true =>
          simp only [Bool.not_false, Bool.not_true, Bool.false_eq_true, if_true, if_false]
          cases free : loops.freeWay ip with
          | some chosen =>
              dsimp only
              rw [entry_modifyEntry _ _ _ _ _ _ inside, updatedWay_allocated found free]
              exact split chosen (fun entry => entry.allocate (loopTag ip))
          | none =>
              dsimp only
              rw [entry_ageSet loops _ inside, updatedWay_aged found free]
              by_cases here : set = setIndex ip
              · rw [if_pos here, if_pos here, here]
              · rw [if_neg here, if_neg here]

theorem updatedWay_predictBranch (loops : LoopPredictor) (ip : Address) (taken : Bool) (way : Int) :
    (loops.predictBranch ip).2.updatedWay ip taken way = loops.updatedWay ip taken way := by
  unfold updatedWay
  rw [entry_predictBranch, hitWay_predictBranch, freeWay_predictBranch]

end LoopPredictor

def loopModule : PredictorModule LoopPredictor where
  predictBranch := LoopPredictor.predictBranch
  lastBranchResult := LoopPredictor.lastBranchResult

theorem entry_branch (loops : LoopPredictor) (ip : Address) (taken : Bool) {set way : Int}
    (inside : LoopPredictor.Way set way) :
    (loopModule.branch loops (ip, taken)).entry set way =
      if set = setIndex ip then loops.updatedWay ip taken way else loops.entry set way := by
  change ((loops.predictBranch ip).2.lastBranchResult ip taken).entry set way = _
  rw [LoopPredictor.entry_lastBranchResult _ ip taken (LoopPredictor.ready_predictBranch loops ip)
    inside, LoopPredictor.updatedWay_predictBranch, LoopPredictor.entry_predictBranch]

end ChampSim.LTage
