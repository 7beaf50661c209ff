/-
What the entries of the loop predictor know about the outcomes they have seen.

A run is recorded beside, for every way, the branch that allocated it last and
the outcomes delivered to it since. `Counted` relates the counters of an entry
to these outcomes. It is kept by `LoopEntry.learn`, so that it holds in every
reachable state.
-/

import ChampSim.LTage.LoopPredictor

set_option autoImplicit false

namespace ChampSim.LTage

open Msl Branch Transition

/-! ### Executions of a loop -/

/-- The taken outcomes since the last exit, and the closed executions with the
newest first. -/
def tallyStep (tally : Nat × List Nat) (taken : Bool) : Nat × List Nat :=
  if taken then (tally.1 + 1, tally.2) else (0, tally.1 :: tally.2)

def tally (outcomes : List Bool) : Nat × List Nat := outcomes.foldl tallyStep (0, [])

def running (outcomes : List Bool) : Nat := (tally outcomes).1

def executions (outcomes : List Bool) : List Nat := (tally outcomes).2

theorem tally_snoc (outcomes : List Bool) (taken : Bool) :
    tally (outcomes ++ [taken]) = tallyStep (tally outcomes) taken := by
  unfold tally
  rw [List.foldl_append]
  rfl

theorem running_taken (outcomes : List Bool) :
    running (outcomes ++ [true]) = running outcomes + 1 := by
  rw [running, tally_snoc]
  rfl

theorem running_exit (outcomes : List Bool) : running (outcomes ++ [false]) = 0 := by
  rw [running, tally_snoc]
  rfl

theorem executions_taken (outcomes : List Bool) :
    executions (outcomes ++ [true]) = executions outcomes := by
  rw [executions, tally_snoc]
  rfl

theorem executions_exit (outcomes : List Bool) :
    executions (outcomes ++ [false]) = running outcomes :: executions outcomes := by
  rw [executions, tally_snoc]
  rfl

/-- The newest `count` executions never took the branch. -/
inductive ZeroTrips : Nat → List Nat → Prop where
  | none (older : List Nat) : ZeroTrips 0 older
  | again {count : Nat} {older : List Nat} : ZeroTrips count older →
      ZeroTrips (count + 1) (0 :: older)

/-- The newest `count` executions led to the trip count `past`: the oldest of
them was counted, after zero-trip executions only, and may have been longer
than what was counted; the others repeated it. -/
inductive Confirmed (past : Int) : Nat → List Nat → Prop where
  | counted {count first : Nat} {older : List Nat} : past ≤ first → ZeroTrips count older →
      Confirmed past (count + 1) (first :: older)
  | repeated {count next : Nat} {older : List Nat} : (next : Int) = past →
      Confirmed past count older → Confirmed past (count + 1) (next :: older)

/-! ### The counters of an entry -/

/-- `confidence` saturates at 3. -/
def Streak (confidence : Int) (count : Nat) : Prop := confidence = min (count : Int) 3

/-- What the counters of an entry say about the outcomes it has seen. -/
structure Counted (entry : LoopEntry) (outcomes : List Bool) : Prop where
  untrained : entry.pastIterCnt.value = 0 →
    entry.currIterCnt.value ≤ running outcomes ∧
      (entry.currIterCnt.value = 0 → running outcomes = 0) ∧
      (entry.confidence.value = 3 → entry.currIterCnt.value = 0) ∧
      ∃ count, Streak entry.confidence.value count ∧ ZeroTrips count (executions outcomes)
  trained : entry.pastIterCnt.value ≠ 0 →
    entry.currIterCnt.value = running outcomes ∧
      entry.currIterCnt.value ≤ entry.pastIterCnt.value ∧
      ∃ count, Streak entry.confidence.value count ∧
        Confirmed entry.pastIterCnt.value count (executions outcomes)

section Learning

variable {entry : LoopEntry} {outcomes : List Bool}

theorem counted_restart (entry : LoopEntry) (count : Nat) (single : count ≤ 1)
    (seen : count ≤ running outcomes) (fresh : count = 0 → running outcomes = 0) :
    Counted (entry.restart count) outcomes := by
  have current : (entry.restart count).currIterCnt.value = count :=
    BaseFwcounter.assign_value_of_range entry.currIterCnt _ (by omega)
      (by unfold iterWidth; omega)
  constructor
  · intro _zero
    rw [current]
    refine ⟨by omega, by omega, ?_, 0, rfl, ZeroTrips.none _⟩
    intro impossible
    have unsure : (entry.restart count).confidence.value = 0 := rfl
    omega
  · intro impossible
    exact absurd rfl impossible

theorem counted_allocate (entry : LoopEntry) (tag : BitVec 32) :
    Counted (entry.allocate tag) [true] := by
  constructor
  · intro _zero
    refine ⟨Int.le_refl 1, ?_, ?_, 0, rfl, ZeroTrips.none _⟩
    · intro impossible
      cases impossible
    · intro impossible
      cases impossible
  · intro impossible
    exact absurd rfl impossible

theorem counted_default : Counted default [] := by
  constructor
  · intro _zero
    exact ⟨Int.le_refl 0, fun _ => rfl, fun _ => rfl, 0, rfl, ZeroTrips.none _⟩
  · intro impossible
    exact absurd rfl impossible

theorem Streak.complete {entry : LoopEntry} {count : Nat}
    (streak : Streak entry.confidence.value count) :
    Streak entry.complete.confidence.value (count + 1) := by
  have next : entry.complete.confidence.value = min (entry.confidence.value + 1) 3 :=
    BaseFwcounter.addAssign_one_value entry.confidence
  unfold Streak at streak ⊢
  omega

/-- One more execution is closed, either the first one counted or one that
repeats the count. -/
theorem Counted.complete (counted : Counted entry outcomes)
    (expected : entry.pastIterCnt.value = 0 ∨
      entry.pastIterCnt.value = entry.currIterCnt.value) :
    Counted entry.complete (outcomes ++ [false]) := by
  have current : entry.complete.currIterCnt.value = 0 := rfl
  have past : entry.complete.pastIterCnt.value = entry.currIterCnt.value := rfl
  by_cases untrained : entry.pastIterCnt.value = 0
  · obtain ⟨seen, empty, _idle, count, streak, zero⟩ := counted.untrained untrained
    constructor
    · intro zeroTrip
      rw [past] at zeroTrip
      refine ⟨?_, ?_, fun _ => current, count + 1, streak.complete, ?_⟩
      · rw [current, running_exit]
        exact Int.le_refl 0
      · intro _same
        exact running_exit outcomes
      · rw [executions_exit, empty zeroTrip]
        exact ZeroTrips.again zero
    · intro counts
      rw [past] at counts ⊢
      refine ⟨?_, ?_, count + 1, streak.complete, ?_⟩
      · rw [current, running_exit]
        rfl
      · rw [current]
        exact entry.currIterCnt.atLeast
      · rw [executions_exit]
        exact Confirmed.counted seen zero
  · obtain ⟨same, _below, count, streak, confirmed⟩ := counted.trained untrained
    have equal : entry.pastIterCnt.value = entry.currIterCnt.value :=
      expected.resolve_left untrained
    constructor
    · intro zero
      rw [past, ← equal] at zero
      exact absurd zero untrained
    · intro _counts
      rw [past]
      refine ⟨?_, ?_, count + 1, streak.complete, ?_⟩
      · rw [current, running_exit]
        rfl
      · rw [current]
        exact entry.currIterCnt.atLeast
      · rw [executions_exit, ← equal]
        exact Confirmed.repeated (same.symm.trans equal.symm) confirmed

theorem Counted.advance (counted : Counted entry outcomes) (advances : entry.Advances)
    (age : Fwcounter 8) :
    Counted { entry with currIterCnt := entry.currIterCnt.addAssign 1, age := age }
      (outcomes ++ [true]) := by
  have next : (entry.currIterCnt.addAssign 1).value =
      min (entry.currIterCnt.value + 1) (2 ^ iterWidth - 1) :=
    BaseFwcounter.addAssign_one_value entry.currIterCnt
  have atLeast := entry.currIterCnt.atLeast
  have atMost := entry.pastIterCnt.atMost
  have capacity : (2 : Int) ^ iterWidth - 1 = 16383 := by decide
  constructor <;> dsimp only
  · intro zero
    obtain ⟨seen, _empty, idle, count, streak, zeroTrips⟩ := counted.untrained zero
    have doubtful : entry.confidence.value ≠ 3 := by
      intro sure
      rcases advances with ⟨_confident, different⟩ | ⟨unsure, _room⟩
      · exact different ((idle sure).trans zero.symm)
      · exact unsure ((LoopEntry.confident_iff entry).mpr sure)
    rw [running_taken, executions_taken]
    exact ⟨by omega, by omega, fun sure => absurd sure doubtful, count, streak, zeroTrips⟩
  · intro trained
    obtain ⟨same, below, count, streak, confirmed⟩ := counted.trained trained
    rw [running_taken, executions_taken]
    have room : entry.currIterCnt.value + 1 ≤ entry.pastIterCnt.value := by
      rcases advances with ⟨_confident, different⟩ | ⟨_unsure, untrained | room⟩
      · omega
      · exact absurd untrained trained
      · exact room
    exact ⟨by omega, by omega, count, streak, confirmed⟩

theorem Counted.learn (counted : Counted entry outcomes) (taken : Bool) :
    Counted (entry.learn taken) (outcomes ++ [taken]) := by
  cases taken with
  | true =>
      by_cases advances : entry.Advances
      · obtain ⟨age, same⟩ := LoopEntry.learn_advance advances
        rw [same]
        exact counted.advance advances age
      · rw [LoopEntry.learn_beyond advances]
        refine counted_restart entry 1 (Nat.le_refl 1) ?_ ?_
        · rw [running_taken]
          exact Nat.le_add_left 1 _
        · intro impossible
          cases impossible
  | false =>
      by_cases completes : entry.Completes
      · obtain ⟨age, same⟩ := LoopEntry.learn_complete completes
        have aged : Counted { entry with age := age } outcomes :=
          ⟨counted.untrained, counted.trained⟩
        rw [same]
        exact aged.complete (completes.elim Or.inr (fun first => Or.inl first.2))
      · rw [LoopEntry.learn_early completes]
        exact counted_restart entry 0 (Nat.zero_le 1) (Nat.zero_le _)
          (fun _ => running_exit outcomes)

end Learning

/-! ### Recorded runs -/

structure WayHistory where
  allocatedBy : Option Address
  outcomes : List Bool
deriving DecidableEq, Repr, Inhabited

abbrev LoopHistory := Int → Int → WayHistory

def LoopHistory.put (history : LoopHistory) (set way : Int) (seen : WayHistory) : LoopHistory :=
  fun otherSet otherWay =>
    if otherSet = set ∧ otherWay = way then seen else history otherSet otherWay

/-- An allocation starts a new history with its taken outcome, and a hit
delivers its outcome to the entry. -/
def noteOutcome (session : Session LoopPredictor) (call : Call) (history : LoopHistory) :
    LoopHistory :=
  match call with
  | .predictBranch _ => history
  | .lastBranchResult ip taken =>
      let info := session.predictor.loopBranchInfo
      if !info.hit then
        if !taken then history
        else
          match session.predictor.freeWay ip with
          | some way =>
              history.put (setIndex ip) way { allocatedBy := some ip, outcomes := [true] }
          | none => history
      else
        let seen := history info.index info.way
        history.put info.index info.way { seen with outcomes := seen.outcomes ++ [taken] }

/-- `session` is reached from initialisation by a run that leaves `history`. -/
def ReachesWith (memory : LoopPredictor) (calls : List Call) (session : Session LoopPredictor)
    (history : LoopHistory) : Prop :=
  (loopModule.machine.record noteOutcome).run
    (PredictorModule.start memory.loopPredictorInit, fun _ _ => default) calls =
      some (session, history)

theorem exists_reachesWith (memory : LoopPredictor) (calls : List Call)
    (session : Session LoopPredictor)
    (ran : loopModule.machine.run (PredictorModule.start memory.loopPredictorInit) calls =
      some session) :
    ∃ history, ReachesWith memory calls session history :=
  loopModule.machine.exists_recorded_run noteOutcome calls _ session _ ran

structure Remembers (set : Int) (entry : LoopEntry) (seen : WayHistory) : Prop where
  tagged : ∀ ip, seen.allocatedBy = some ip → setIndex ip = set ∧ entry.tag = loopTag ip
  untagged : seen.allocatedBy = none → entry.tag = 0
  counted : Counted entry seen.outcomes

def Remembered (loops : LoopPredictor) (history : LoopHistory) : Prop :=
  ∀ set way, LoopPredictor.Way set way → Remembers set (loops.entry set way) (history set way)

theorem Remembers.learn {set : Int} {entry : LoopEntry} {seen : WayHistory}
    (remembers : Remembers set entry seen) (taken : Bool) :
    Remembers set (entry.learn taken) { seen with outcomes := seen.outcomes ++ [taken] } := by
  constructor
  · intro ip allocated
    rw [entry.learn_tag]
    exact remembers.tagged ip allocated
  · intro never
    rw [entry.learn_tag]
    exact remembers.untagged never
  · exact remembers.counted.learn taken

theorem Remembers.aged {set : Int} {entry : LoopEntry} {seen : WayHistory}
    (remembers : Remembers set entry seen) :
    Remembers set (LoopPredictor.agedEntry entry) seen :=
  ⟨remembers.tagged, remembers.untagged,
    ⟨remembers.counted.untrained, remembers.counted.trained⟩⟩

theorem remembers_allocate (entry : LoopEntry) (ip : Address) :
    Remembers (setIndex ip) (entry.allocate (loopTag ip))
      { allocatedBy := some ip, outcomes := [true] } := by
  constructor
  · intro other same
    cases same
    exact ⟨rfl, rfl⟩
  · intro impossible
    cases impossible
  · exact counted_allocate entry (loopTag ip)

theorem remembered_put {loops : LoopPredictor} {history : LoopHistory} {set way : Int}
    {entry : LoopEntry} {seen : WayHistory}
    (changed : Remembers set entry seen)
    (others : ∀ otherSet otherWay, LoopPredictor.Way otherSet otherWay →
      ¬(otherSet = set ∧ otherWay = way) →
      Remembers otherSet (loops.entry otherSet otherWay) (history otherSet otherWay))
    (here : LoopPredictor.Way set way → loops.entry set way = entry) :
    Remembered loops (history.put set way seen) := by
  intro otherSet otherWay inside
  unfold LoopHistory.put
  by_cases same : otherSet = set ∧ otherWay = way
  · rw [if_pos same]
    obtain ⟨sameSet, sameWay⟩ := same
    subst sameSet sameWay
    rw [here inside]
    exact changed
  · rw [if_neg same]
    exact others otherSet otherWay inside same

section Update

variable {session : Session LoopPredictor} {history : LoopHistory} {ip : Address} {taken : Bool}

private theorem remembered_hit (remembered : Remembered session.predictor history)
    (ready : LoopPredictor.Ready session.predictor ip) {hit : Int}
    (found : session.predictor.hitWay ip = some hit) :
    Remembered (session.predictor.lastBranchResult ip taken)
      (noteOutcome session (.lastBranchResult ip taken) history) := by
  have noted : noteOutcome session (.lastBranchResult ip taken) history =
      history.put (setIndex ip) hit
        { history (setIndex ip) hit with
          outcomes := (history (setIndex ip) hit).outcomes ++ [taken] } := by
    simp only [noteOutcome, ready.found hit found]
    rfl
  have inside := LoopPredictor.way_setIndex ip (LoopPredictor.hitWay_some found).1
  rw [noted]
  apply remembered_put ((remembered _ _ inside).learn taken)
  · intro otherSet otherWay otherInside different
    have kept : (session.predictor.lastBranchResult ip taken).entry otherSet otherWay =
        session.predictor.entry otherSet otherWay := by
      rw [LoopPredictor.entry_lastBranchResult _ ip taken ready otherInside]
      by_cases here : otherSet = setIndex ip
      · have elsewhere : otherWay ≠ hit := fun same => different ⟨here, same⟩
        rw [if_pos here, LoopPredictor.updatedWay_hit found, if_neg elsewhere, here]
      · rw [if_neg here]
    rw [kept]
    exact remembered _ _ otherInside
  · intro _inside
    rw [LoopPredictor.entry_lastBranchResult _ ip taken ready inside, if_pos rfl,
      LoopPredictor.updatedWay_hit found, if_pos rfl]

private theorem remembered_unchanged (remembered : Remembered session.predictor history)
    (ready : LoopPredictor.Ready session.predictor ip)
    (updated : ∀ way, session.predictor.updatedWay ip taken way =
        session.predictor.entry (setIndex ip) way ∨
      session.predictor.updatedWay ip taken way =
        LoopPredictor.agedEntry (session.predictor.entry (setIndex ip) way)) :
    Remembered (session.predictor.lastBranchResult ip taken) history := by
  intro set way inside
  have before := remembered set way inside
  rw [LoopPredictor.entry_lastBranchResult _ ip taken ready inside]
  by_cases here : set = setIndex ip
  · rw [if_pos here]
    rcases updated way with same | aged
    · rw [same, ← here]
      exact before
    · rw [aged, ← here]
      exact before.aged
  · rw [if_neg here]
    exact before

private theorem remembered_miss (remembered : Remembered session.predictor history)
    (ready : LoopPredictor.Ready session.predictor ip)
    (missed : session.predictor.hitWay ip = none) :
    Remembered (session.predictor.lastBranchResult ip taken)
      (noteOutcome session (.lastBranchResult ip taken) history) := by
  have noHit := (ready.missed missed).1
  cases taken with
  | false =>
      have noted : noteOutcome session (.lastBranchResult ip false) history = history := by
        simp only [noteOutcome, noHit]
        rfl
      rw [noted]
      apply remembered_unchanged remembered ready
      intro way
      exact Or.inl (LoopPredictor.updatedWay_exit missed way)
  | true =>
      cases free : session.predictor.freeWay ip with
      | none =>
          have noted : noteOutcome session (.lastBranchResult ip true) history = history := by
            simp only [noteOutcome, noHit, free]
            rfl
          rw [noted]
          apply remembered_unchanged remembered ready
          intro way
          exact Or.inr (LoopPredictor.updatedWay_aged missed free way)
      | some chosen =>
          have noted : noteOutcome session (.lastBranchResult ip true) history =
              history.put (setIndex ip) chosen
                { allocatedBy := some ip, outcomes := [true] } := by
            simp only [noteOutcome, noHit, free]
            rfl
          rw [noted]
          apply remembered_put (remembers_allocate
            (session.predictor.entry (setIndex ip) chosen) ip)
          · intro otherSet otherWay otherInside different
            have kept : (session.predictor.lastBranchResult ip true).entry otherSet otherWay =
                session.predictor.entry otherSet otherWay := by
              rw [LoopPredictor.entry_lastBranchResult _ ip true ready otherInside]
              by_cases here : otherSet = setIndex ip
              · have elsewhere : otherWay ≠ chosen := fun same => different ⟨here, same⟩
                rw [if_pos here, LoopPredictor.updatedWay_allocated missed free, if_neg elsewhere,
                  here]
              · rw [if_neg here]
            rw [kept]
            exact remembered _ _ otherInside
          · intro inside
            rw [LoopPredictor.entry_lastBranchResult _ ip true ready inside, if_pos rfl,
              LoopPredictor.updatedWay_allocated missed free, if_pos rfl]

theorem Remembered.lastBranchResult (remembered : Remembered session.predictor history)
    (ready : LoopPredictor.Ready session.predictor ip) :
    Remembered (session.predictor.lastBranchResult ip taken)
      (noteOutcome session (.lastBranchResult ip taken) history) := by
  cases found : session.predictor.hitWay ip with
  | some hit => exact remembered_hit remembered ready found
  | none => exact remembered_miss remembered ready found

end Update

theorem reachesWith_remembered (memory : LoopPredictor) (calls : List Call)
    (session : Session LoopPredictor) (history : LoopHistory)
    (ran : ReachesWith memory calls session history) : Remembered session.predictor history := by
  refine (loopModule.record_invariant noteOutcome LoopPredictor.Ready Remembered ?_ ?_ ?_ calls
    memory.loopPredictorInit session _ history ?_ ran).1
  · intro loops ip
    exact LoopPredictor.ready_predictBranch loops ip
  · intro session ip history remembered set way inside
    change Remembers set ((session.predictor.predictBranch ip).2.entry set way) _
    rw [LoopPredictor.entry_predictBranch]
    exact remembered set way inside
  · intro session ip taken history ready remembered
    exact remembered.lastBranchResult ready
  · intro set way inside
    change Remembers set (memory.loopPredictorInit.entry set way) default
    rw [LoopPredictor.entry_loopPredictorInit memory inside]
    constructor
    · intro ip impossible
      cases impossible
    · intro _never
      rfl
    · exact counted_default

/-! ### What a hit and a valid prediction mean -/

/-- A way that hits was allocated last by a branch with the same set and tag,
or never, and then the branch has the tag of a reset entry. -/
def HitExplained (loops : LoopPredictor) (ip : Address) (seen : WayHistory) : Prop :=
  (loops.predictedInfo ip).hit = true →
    (∃ allocator, seen.allocatedBy = some allocator ∧
      setIndex allocator = setIndex ip ∧ loopTag allocator = loopTag ip) ∨
    (seen.allocatedBy = none ∧ loopTag ip = 0)

/-- The history of the way that the prediction of `ip` has found. -/
def LoopHistory.foundBy (history : LoopHistory) (loops : LoopPredictor) (ip : Address) :
    WayHistory :=
  history (loops.predictedInfo ip).index (loops.predictedInfo ip).way

theorem LoopHistory.foundBy_hit (history : LoopHistory) {loops : LoopPredictor} {ip : Address}
    {way : Int} (found : loops.hitWay ip = some way) :
    history.foundBy loops ip = history (setIndex ip) way := by
  unfold LoopHistory.foundBy
  rw [LoopPredictor.predictedInfo_hit found]
  rfl

theorem reachesWith_hitExplained (memory : LoopPredictor) (calls : List Call)
    (session : Session LoopPredictor) (history : LoopHistory)
    (ran : ReachesWith memory calls session history) (ip : Address) :
    HitExplained session.predictor ip (history.foundBy session.predictor ip) := by
  have remembered := reachesWith_remembered memory calls session history ran
  intro hit
  cases found : session.predictor.hitWay ip with
  | none =>
      rw [(LoopPredictor.predictedInfo_miss found).1] at hit
      cases hit
  | some way =>
      obtain ⟨member, tagged⟩ := LoopPredictor.hitWay_some found
      have remembers := remembered _ way (LoopPredictor.way_setIndex ip member)
      rw [history.foundBy_hit found]
      cases allocated : (history (setIndex ip) way).allocatedBy with
      | none => exact Or.inr ⟨rfl, tagged.symm.trans (remembers.untagged allocated)⟩
      | some allocator =>
          obtain ⟨sameSet, sameTag⟩ := remembers.tagged allocator allocated
          exact Or.inl ⟨allocator, rfl, sameSet, sameTag.symm.trans tagged⟩

/-- The tag of 0x100080 is the tag of 128, which has allocated the second way of the set. -/
private theorem aliased_run :
    ((loopModule.machine.record noteOutcome).run
      (PredictorModule.start (default : LoopPredictor).loopPredictorInit, fun _ _ => default)
      (PredictorModule.callsOf [(64, true), (128, true)])).map
        (fun recorded =>
          ((recorded.1.predictor.predictedInfo 0x100080).hit,
            (recorded.2.foundBy recorded.1.predictor 0x100080).allocatedBy)) =
      some (true, some 128) := by
  decide +kernel

theorem reachesWith_hitExplained_aliased :
    ∃ session history,
      ReachesWith default (PredictorModule.callsOf [(64, true), (128, true)]) session history ∧
      (session.predictor.predictedInfo 0x100080).hit = true ∧
      (history.foundBy session.predictor 0x100080).allocatedBy = some 128 ∧
      HitExplained session.predictor 0x100080 (history.foundBy session.predictor 0x100080) := by
  obtain ⟨⟨session, history⟩, ran, same⟩ := Option.map_eq_some_iff.mp aliased_run
  obtain ⟨hit, allocated⟩ := Prod.mk.inj same
  exact ⟨session, history, ran, hit, allocated,
    reachesWith_hitExplained default _ session history ran 0x100080⟩

/-- A reset entry holds the tag 0 of the branch at address 0. -/
theorem reset_entry_hits :
    ¬∀ (memory : LoopPredictor) (calls : List Call) (session : Session LoopPredictor)
      (history : LoopHistory), ReachesWith memory calls session history →
      ∀ ip, (session.predictor.predictedInfo ip).hit = true →
        ∃ allocator, (history.foundBy session.predictor ip).allocatedBy = some allocator ∧
          setIndex allocator = setIndex ip ∧ loopTag allocator = loopTag ip := by
  intro always
  obtain ⟨allocator, impossible, _same⟩ := always default []
    (PredictorModule.start (default : LoopPredictor).loopPredictorInit) (fun _ _ => default) rfl 0
    (by decide +kernel)
  change none = some allocator at impossible
  cases impossible

/-- The last three executions behind a confident entry. A zero-trip execution
among them is left open unless the trip count itself is 0. -/
def SeenThrice (past : Int) (seen : List Nat) : Prop :=
  ∃ first second third older, seen = first :: second :: third :: older ∧
    (past = 0 → first = 0 ∧ second = 0 ∧ third = 0) ∧
    (past ≠ 0 → first ≠ 0 → second ≠ 0 → third ≠ 0 →
      (first : Int) = past ∧ (second : Int) = past ∧ past ≤ third)

theorem seenThrice_of_zeroTrips {count : Nat} {seen : List Nat} (enough : 3 ≤ count)
    (zero : ZeroTrips count seen) : SeenThrice 0 seen := by
  cases zero with
  | none older => omega
  | again second =>
      cases second with
      | none older => omega
      | again third =>
          cases third with
          | none older => omega
          | again rest =>
              refine ⟨0, 0, 0, _, rfl, fun _ => ⟨rfl, rfl, rfl⟩, ?_⟩
              intro impossible
              exact absurd rfl impossible

private theorem ZeroTrips.head {count first : Nat} {older : List Nat} (counts : 0 < count)
    (zero : ZeroTrips count (first :: older)) : first = 0 := by
  cases zero with
  | none _ => omega
  | again _ => rfl

theorem seenThrice_of_confirmed {past : Int} {count : Nat} {seen : List Nat} (enough : 3 ≤ count)
    (counts : past ≠ 0) (confirmed : Confirmed past count seen) : SeenThrice past seen := by
  cases confirmed with
  | counted atLeast zero =>
      cases zero with
      | none older => omega
      | again rest =>
          cases rest with
          | none older => omega
          | again older =>
              refine ⟨_, 0, 0, _, rfl, fun zero => absurd zero counts, ?_⟩
              intro _counts _first impossible
              exact absurd rfl impossible
  | repeated same rest =>
      cases rest with
      | counted atLeast zero =>
          cases zero with
          | none older => omega
          | again older =>
              refine ⟨_, _, 0, _, rfl, fun zero => absurd zero counts, ?_⟩
              intro _counts _first _second impossible
              exact absurd rfl impossible
      | repeated sameSecond older =>
          cases older with
          | counted atLeast _zero =>
              exact ⟨_, _, _, _, rfl, fun zero => absurd zero counts,
                fun _ _ _ _ => ⟨same, sameSecond, atLeast⟩⟩
          | repeated sameThird _older =>
              exact ⟨_, _, _, _, rfl, fun zero => absurd zero counts,
                fun _ _ _ _ => ⟨same, sameSecond, Int.le_of_eq sameThird.symm⟩⟩

theorem Counted.seenThrice {entry : LoopEntry} {outcomes : List Bool}
    (counted : Counted entry outcomes) (confident : entry.confident = true) :
    SeenThrice entry.pastIterCnt.value (executions outcomes) := by
  have sure := (LoopEntry.confident_iff entry).mp confident
  by_cases untrained : entry.pastIterCnt.value = 0
  · obtain ⟨_seen, _empty, _idle, count, streak, zero⟩ := counted.untrained untrained
    rw [untrained]
    unfold Streak at streak
    exact seenThrice_of_zeroTrips (by omega) zero
  · obtain ⟨_same, _below, count, streak, confirmed⟩ := counted.trained untrained
    unfold Streak at streak
    exact seenThrice_of_confirmed (by omega) untrained confirmed

/-- The entry that the prediction of `ip` has found. -/
def LoopPredictor.foundEntry (loops : LoopPredictor) (ip : Address) : LoopEntry :=
  loops.entry (loops.predictedInfo ip).index (loops.predictedInfo ip).way

theorem LoopPredictor.foundEntry_hit {loops : LoopPredictor} {ip : Address} {way : Int}
    (found : loops.hitWay ip = some way) :
    loops.foundEntry ip = loops.entry (setIndex ip) way := by
  unfold LoopPredictor.foundEntry
  rw [LoopPredictor.predictedInfo_hit found]
  rfl

theorem reachesWith_seenThrice (memory : LoopPredictor) (calls : List Call)
    (session : Session LoopPredictor) (history : LoopHistory)
    (ran : ReachesWith memory calls session history) (ip : Address)
    (valid : (session.predictor.predictedInfo ip).isValidLoopPrediction = true) :
    SeenThrice (session.predictor.foundEntry ip).pastIterCnt.value
      (executions (history.foundBy session.predictor ip).outcomes) := by
  have remembered := reachesWith_remembered memory calls session history ran
  cases found : session.predictor.hitWay ip with
  | none =>
      rw [(LoopPredictor.predictedInfo_miss found).2] at valid
      cases valid
  | some way =>
      have member := (LoopPredictor.hitWay_some found).1
      have remembers := remembered _ way (LoopPredictor.way_setIndex ip member)
      rw [LoopPredictor.predictedInfo_hit found] at valid
      rw [LoopPredictor.foundEntry_hit found, history.foundBy_hit found]
      exact remembers.counted.seenThrice valid

/-- Executions of 1, 3, 2 and 2 iterations. The second one breaks the count of
the first, and what is left of it is counted anew. -/
def recountedOutcomes : List (Address × Bool) :=
  [true, false, true, true, true, false, true, true, false, true, true, false].map
    (fun taken => (64, taken))

private theorem recounted_run :
    ((loopModule.machine.record noteOutcome).run
      (PredictorModule.start (default : LoopPredictor).loopPredictorInit, fun _ _ => default)
      (PredictorModule.callsOf recountedOutcomes)).map
        (fun recorded =>
          ((recorded.1.predictor.predictedInfo 64).isValidLoopPrediction,
            (recorded.1.predictor.foundEntry 64).pastIterCnt.value,
            executions (recorded.2.foundBy recorded.1.predictor 64).outcomes)) =
      some (true, 2, [2, 2, 3, 1]) := by
  decide +kernel

theorem reachesWith_seenThrice_recounted :
    ∃ session history,
      ReachesWith default (PredictorModule.callsOf recountedOutcomes) session history ∧
      SeenThrice (session.predictor.foundEntry 64).pastIterCnt.value
        (executions (history.foundBy session.predictor 64).outcomes) := by
  obtain ⟨⟨session, history⟩, ran, same⟩ := Option.map_eq_some_iff.mp recounted_run
  have valid := congrArg Prod.fst same
  exact ⟨session, history, ran, reachesWith_seenThrice default _ session history ran 64 valid⟩

/-- Three equal trip counts are not what a valid prediction rests on. -/
theorem recounted_not_equal :
    ¬∀ (memory : LoopPredictor) (calls : List Call) (session : Session LoopPredictor)
      (history : LoopHistory), ReachesWith memory calls session history →
      ∀ ip, (session.predictor.predictedInfo ip).isValidLoopPrediction = true →
        ∃ trips older,
          executions (history.foundBy session.predictor ip).outcomes =
            trips :: trips :: trips :: older ∧
          (trips : Int) = (session.predictor.foundEntry ip).pastIterCnt.value := by
  intro always
  obtain ⟨⟨session, history⟩, ran, same⟩ := Option.map_eq_some_iff.mp recounted_run
  obtain ⟨trips, older, seen, _count⟩ :=
    always default _ session history ran 64 (congrArg Prod.fst same)
  have actual : executions (history.foundBy session.predictor 64).outcomes = [2, 2, 3, 1] :=
    congrArg (fun observed => observed.2.2) same
  rw [actual] at seen
  injection seen with first rest
  injection rest with second rest
  injection rest with third rest
  omega

end ChampSim.LTage
