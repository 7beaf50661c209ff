/-
A loop with a fixed trip count, interleaved with branches of other sets.

Once its branch holds a way, only its own outcomes reach that entry, so the
entry is a fold of `LoopEntry.learn`. What the fold does on a periodic outcome
sequence is described by `Trip` as long as the trip count fits the counters,
and by `NeverConfirmed` beyond.
-/

import ChampSim.LTage.LoopPredictor
import Mathlib.Data.List.Find

set_option autoImplicit false

namespace ChampSim.LTage

open Msl Branch

/-! ### A branch and its way -/

/-- The branch holds this way, and no other way of its set can hit. -/
structure Holds (loops : LoopPredictor) (ip : Address) (way : Int) (entry : LoopEntry) : Prop where
  member : way ∈ ways
  entryHere : loops.entry (setIndex ip) way = entry
  tagged : entry.tag = loopTag ip
  alone : ∀ other ∈ ways, other ≠ way → (loops.entry (setIndex ip) other).tag ≠ loopTag ip

theorem Holds.hitWay {loops : LoopPredictor} {ip : Address} {way : Int} {entry : LoopEntry}
    (holds : Holds loops ip way entry) : loops.hitWay ip = some way := by
  cases found : loops.hitWay ip with
  | none =>
      have missed := List.find?_eq_none.mp found way holds.member
      rw [holds.entryHere, holds.tagged, beq_self_eq_true] at missed
      exact absurd rfl missed
  | some other =>
      obtain ⟨member, tagged⟩ := LoopPredictor.hitWay_some found
      by_cases same : other = way
      · rw [same]
      · exact absurd tagged (holds.alone other member same)

theorem not_tagged_of_miss {loops : LoopPredictor} {ip : Address}
    (missed : loops.hitWay ip = none) {way : Int} (member : way ∈ ways) :
    (loops.entry (setIndex ip) way).tag ≠ loopTag ip := by
  intro tagged
  have different := List.find?_eq_none.mp missed way member
  rw [tagged, beq_self_eq_true] at different
  exact different rfl

section OtherSets

variable {loops : LoopPredictor} {ip other : Address}

theorem entry_branch_other (different : setIndex other ≠ setIndex ip) (taken : Bool) {way : Int}
    (member : way ∈ ways) :
    (loopModule.branch loops (other, taken)).entry (setIndex ip) way =
      loops.entry (setIndex ip) way := by
  rw [entry_branch loops other taken (LoopPredictor.way_setIndex ip member),
    if_neg (fun same => different same.symm)]

theorem Holds.branch_other {way : Int} {entry : LoopEntry} (holds : Holds loops ip way entry)
    (different : setIndex other ≠ setIndex ip) (taken : Bool) :
    Holds (loopModule.branch loops (other, taken)) ip way entry := by
  constructor
  · exact holds.member
  · rw [entry_branch_other different taken holds.member]
    exact holds.entryHere
  · exact holds.tagged
  · intro another member elsewhere
    rw [entry_branch_other different taken member]
    exact holds.alone another member elsewhere

theorem hitWay_branch_other (different : setIndex other ≠ setIndex ip) (taken : Bool) :
    (loopModule.branch loops (other, taken)).hitWay ip = loops.hitWay ip := by
  apply List.find?_congr
  intro way member
  rw [entry_branch_other different taken member]

theorem freeWay_branch_other (different : setIndex other ≠ setIndex ip) (taken : Bool) :
    (loopModule.branch loops (other, taken)).freeWay ip = loops.freeWay ip := by
  apply List.find?_congr
  intro way member
  rw [entry_branch_other different taken member]

end OtherSets

theorem Holds.branch {loops : LoopPredictor} {ip : Address} {way : Int} {entry : LoopEntry}
    (holds : Holds loops ip way entry) (taken : Bool) :
    Holds (loopModule.branch loops (ip, taken)) ip way (entry.learn taken) := by
  have updated : ∀ other ∈ ways,
      (loopModule.branch loops (ip, taken)).entry (setIndex ip) other =
        if other = way then (loops.entry (setIndex ip) other).learn taken
        else loops.entry (setIndex ip) other := by
    intro other member
    rw [entry_branch loops ip taken (LoopPredictor.way_setIndex ip member), if_pos rfl,
      LoopPredictor.updatedWay_hit holds.hitWay]
  constructor
  · exact holds.member
  · rw [updated way holds.member, if_pos rfl, holds.entryHere]
  · rw [entry.learn_tag]
    exact holds.tagged
  · intro other member elsewhere
    rw [updated other member, if_neg elsewhere]
    exact holds.alone other member elsewhere

theorem holds_of_allocation {loops : LoopPredictor} {ip : Address} {way : Int}
    (missed : loops.hitWay ip = none) (free : loops.freeWay ip = some way) :
    Holds (loopModule.branch loops (ip, true)) ip way
      ((default : LoopEntry).allocate (loopTag ip)) := by
  have updated : ∀ other ∈ ways,
      (loopModule.branch loops (ip, true)).entry (setIndex ip) other =
        if other = way then (loops.entry (setIndex ip) other).allocate (loopTag ip)
        else loops.entry (setIndex ip) other := by
    intro other member
    rw [entry_branch loops ip true (LoopPredictor.way_setIndex ip member), if_pos rfl,
      LoopPredictor.updatedWay_allocated missed free]
  have chosen := (LoopPredictor.freeWay_some free).1
  constructor
  · exact chosen
  · rw [updated way chosen, if_pos rfl]
    rfl
  · rfl
  · intro other member elsewhere
    rw [updated other member, if_neg elsewhere]
    exact not_tagged_of_miss missed member

/-! ### Interleaved runs -/

def ownOutcomes (ip : Address) (branches : List (Address × Bool)) : List Bool :=
  (branches.filter (fun branch => branch.1 == ip)).map Prod.snd

def OthersElsewhere (ip : Address) (branches : List (Address × Bool)) : Prop :=
  ∀ branch ∈ branches, branch.1 = ip ∨ setIndex branch.1 ≠ setIndex ip

/-- A branch of another address is in another set, and so are those of the rest. -/
theorem OthersElsewhere.uncons {ip other : Address} {taken : Bool} {rest : List (Address × Bool)}
    (elsewhere : OthersElsewhere ip ((other, taken) :: rest)) :
    OthersElsewhere ip rest ∧ (other ≠ ip → setIndex other ≠ setIndex ip) :=
  ⟨fun branch member => elsewhere branch (List.mem_cons_of_mem _ member),
    (elsewhere _ List.mem_cons_self).resolve_left⟩

theorem ownOutcomes_cons_own (ip : Address) (taken : Bool) (rest : List (Address × Bool)) :
    ownOutcomes ip ((ip, taken) :: rest) = taken :: ownOutcomes ip rest := by
  unfold ownOutcomes
  rw [List.filter_cons, if_pos (beq_self_eq_true ip), List.map_cons]

theorem ownOutcomes_cons_other {ip other : Address} (different : other ≠ ip) (taken : Bool)
    (rest : List (Address × Bool)) :
    ownOutcomes ip ((other, taken) :: rest) = ownOutcomes ip rest := by
  unfold ownOutcomes
  rw [List.filter_cons, if_neg (fun same => different (eq_of_beq same))]

theorem ownOutcomes_map (ip : Address) (outcomes : List Bool) :
    ownOutcomes ip (outcomes.map (fun taken => (ip, taken))) = outcomes := by
  induction outcomes with
  | nil => rfl
  | cons taken rest ih => rw [List.map_cons, ownOutcomes_cons_own, ih]

theorem othersElsewhere_map (ip : Address) (outcomes : List Bool) :
    OthersElsewhere ip (outcomes.map (fun taken => (ip, taken))) := by
  intro branch member
  obtain ⟨taken, _present, same⟩ := List.mem_map.mp member
  exact Or.inl (congrArg Prod.fst same.symm)

theorem holds_feed {ip : Address} {way : Int} (branches : List (Address × Bool))
    (elsewhere : OthersElsewhere ip branches) (loops : LoopPredictor) (entry : LoopEntry)
    (holds : Holds loops ip way entry) :
    Holds (loopModule.feed loops branches) ip way
      ((ownOutcomes ip branches).foldl LoopEntry.learn entry) := by
  induction branches generalizing loops entry with
  | nil => exact holds
  | cons first rest ih =>
      obtain ⟨other, taken⟩ := first
      obtain ⟨remaining, apart⟩ := elsewhere.uncons
      by_cases same : other = ip
      · subst same
        rw [ownOutcomes_cons_own]
        exact ih remaining _ _ (holds.branch taken)
      · have different := apart same
        rw [ownOutcomes_cons_other same]
        exact ih remaining _ _ (holds.branch_other different taken)

theorem holds_feed_of_miss {ip : Address} {way : Int} {later : List Bool}
    (branches : List (Address × Bool)) (elsewhere : OthersElsewhere ip branches)
    (loops : LoopPredictor) (missed : loops.hitWay ip = none) (free : loops.freeWay ip = some way)
    (own : ownOutcomes ip branches = true :: later) :
    Holds (loopModule.feed loops branches) ip way
      (later.foldl LoopEntry.learn ((default : LoopEntry).allocate (loopTag ip))) := by
  induction branches generalizing loops with
  | nil => cases own
  | cons first rest ih =>
      obtain ⟨other, taken⟩ := first
      obtain ⟨remaining, apart⟩ := elsewhere.uncons
      by_cases same : other = ip
      · subst same
        rw [ownOutcomes_cons_own] at own
        injection own with first sameLater
        subst first sameLater
        exact holds_feed rest remaining _ _ (holds_of_allocation missed free)
      · have different := apart same
        rw [ownOutcomes_cons_other same] at own
        exact ih remaining _ ((hitWay_branch_other different taken).trans missed)
          ((freeWay_branch_other different taken).trans free) own

theorem hitWay_feed_of_miss {ip : Address} (branches : List (Address × Bool))
    (elsewhere : OthersElsewhere ip branches) (loops : LoopPredictor)
    (missed : loops.hitWay ip = none) (own : ownOutcomes ip branches = []) :
    (loopModule.feed loops branches).hitWay ip = none := by
  induction branches generalizing loops with
  | nil => exact missed
  | cons first rest ih =>
      obtain ⟨other, taken⟩ := first
      obtain ⟨remaining, apart⟩ := elsewhere.uncons
      by_cases same : other = ip
      · subst same
        rw [ownOutcomes_cons_own] at own
        cases own
      · have different := apart same
        rw [ownOutcomes_cons_other same] at own
        exact ih remaining _ ((hitWay_branch_other different taken).trans missed) own

/-! ### A fixed trip count -/

/-- The outcome of the loop branch at a position: `trips` times taken, once not. -/
def tripOutcome (trips position : Nat) : Bool := decide (position % (trips + 1) < trips)

def tripOutcomes (trips count : Nat) : List Bool := (List.range count).map (tripOutcome trips)

/-- The entry of the loop after `count` of its outcomes. -/
def tripEntry (tag : BitVec 32) (trips count : Nat) : LoopEntry :=
  (tripOutcomes trips count).tail.foldl LoopEntry.learn ((default : LoopEntry).allocate tag)

theorem tripOutcomes_succ (trips count : Nat) :
    tripOutcomes trips (count + 1) = tripOutcomes trips count ++ [tripOutcome trips count] := by
  unfold tripOutcomes
  rw [List.range_succ, List.map_append]
  rfl

theorem tripOutcomes_cons (trips count : Nat) (loop : 1 ≤ trips) (some : 1 ≤ count) :
    tripOutcomes trips count = true :: (tripOutcomes trips count).tail := by
  obtain ⟨earlier, same⟩ := Nat.exists_eq_add_of_le' some
  subst same
  have first : tripOutcome trips 0 = true := by
    unfold tripOutcome
    rw [Nat.zero_mod]
    exact decide_eq_true loop
  unfold tripOutcomes
  rw [List.range_succ_eq_map, List.map_cons, first]
  rfl

theorem tripEntry_succ (tag : BitVec 32) (trips count : Nat) (loop : 1 ≤ trips)
    (some : 1 ≤ count) :
    tripEntry tag trips (count + 1) = (tripEntry tag trips count).learn (tripOutcome trips count) := by
  unfold tripEntry
  rw [tripOutcomes_succ, tripOutcomes_cons trips count loop some, List.cons_append, List.tail_cons,
    List.foldl_append]
  rfl

private theorem position_inside {trips position : Nat} (inside : position % (trips + 1) < trips) :
    (position + 1) / (trips + 1) = position / (trips + 1) ∧
      (position + 1) % (trips + 1) = position % (trips + 1) + 1 := by
  have positive : 0 < trips + 1 := Nat.succ_pos trips
  have split := Nat.mod_add_div position (trips + 1)
  exact (Nat.div_mod_unique positive).mpr ⟨by omega, by omega⟩

private theorem position_last {trips position : Nat} (last : ¬position % (trips + 1) < trips) :
    position % (trips + 1) = trips ∧
      (position + 1) / (trips + 1) = position / (trips + 1) + 1 ∧
      (position + 1) % (trips + 1) = 0 := by
  have positive : 0 < trips + 1 := Nat.succ_pos trips
  have split := Nat.mod_add_div position (trips + 1)
  have below := Nat.mod_lt position positive
  have same : position % (trips + 1) = trips := by omega
  refine ⟨same, (Nat.div_mod_unique positive).mpr ⟨?_, positive⟩⟩
  rw [Nat.mul_add, Nat.mul_one]
  omega

/-- The entry at iteration `iteration` of execution `execution`. -/
structure Trip (trips execution iteration : Nat) (entry : LoopEntry) : Prop where
  current : entry.currIterCnt.value = iteration
  past : entry.pastIterCnt.value = if execution = 0 then 0 else (trips : Int)
  confidence : entry.confidence.value = min (execution : Int) 3

theorem Trip.iterate {trips execution iteration : Nat} {entry : LoopEntry} (fits : trips ≤ 16383)
    (trip : Trip trips execution iteration entry) (inside : iteration < trips) :
    Trip trips execution (iteration + 1) (entry.learn true) := by
  have current := trip.current
  have past := trip.past
  have confidence := trip.confidence
  have confident := LoopEntry.confident_iff entry
  have advances : entry.Advances := by
    by_cases sure : entry.confident = true
    · have third := confident.mp sure
      refine Or.inl ⟨sure, ?_⟩
      rw [if_neg (by omega)] at past
      omega
    · refine Or.inr ⟨sure, ?_⟩
      by_cases first : execution = 0
      · rw [if_pos first] at past
        exact Or.inl past
      · rw [if_neg first] at past
        exact Or.inr (by omega)
  have next : (entry.currIterCnt.addAssign 1).value =
      min (entry.currIterCnt.value + 1) (2 ^ iterWidth - 1) :=
    BaseFwcounter.addAssign_one_value entry.currIterCnt
  have capacity : (2 : Int) ^ iterWidth - 1 = 16383 := by decide
  obtain ⟨age, same⟩ := LoopEntry.learn_advance advances
  rw [same]
  constructor
  · change (entry.currIterCnt.addAssign 1).value = ((iteration + 1 : Nat) : Int)
    omega
  · exact past
  · exact confidence

theorem Trip.exit {trips execution : Nat} {entry : LoopEntry}
    (trip : Trip trips execution trips entry) :
    Trip trips (execution + 1) 0 (entry.learn false) := by
  have current := trip.current
  have past := trip.past
  have confidence := trip.confidence
  have confident := LoopEntry.confident_iff entry
  have completes : entry.Completes := by
    by_cases first : execution = 0
    · rw [if_pos first] at past
      refine Or.inr ⟨?_, past⟩
      intro sure
      have third := confident.mp sure
      omega
    · rw [if_neg first] at past
      exact Or.inl (past.trans current.symm)
  have next : (entry.confidence.addAssign 1).value =
      min (entry.confidence.value + 1) (2 ^ 2 - 1) :=
    BaseFwcounter.addAssign_one_value entry.confidence
  obtain ⟨age, same⟩ := LoopEntry.learn_complete completes
  rw [same]
  constructor
  · rfl
  · rw [if_neg (Nat.succ_ne_zero execution)]
    exact current
  · change (entry.confidence.addAssign 1).value = _
    omega

theorem trip_tripEntry (tag : BitVec 32) (trips count : Nat) (loop : 1 ≤ trips)
    (fits : trips ≤ 16383) (some : 1 ≤ count) :
    Trip trips (count / (trips + 1)) (count % (trips + 1)) (tripEntry tag trips count) := by
  induction count, some using Nat.le_induction with
  | base =>
      have inside : 1 < trips + 1 := by omega
      rw [Nat.div_eq_of_lt inside, Nat.mod_eq_of_lt inside]
      exact ⟨rfl, rfl, rfl⟩
  | succ count some ih =>
      rw [tripEntry_succ tag trips count loop some]
      by_cases inside : count % (trips + 1) < trips
      · have taken : tripOutcome trips count = true := decide_eq_true inside
        obtain ⟨execution, iteration⟩ := position_inside inside
        rw [execution, iteration, taken]
        exact ih.iterate fits inside
      · have exited : tripOutcome trips count = false := decide_eq_false inside
        obtain ⟨last, execution, iteration⟩ := position_last inside
        rw [last] at ih
        rw [execution, iteration, exited]
        exact ih.exit

/-- A trip count beyond the counters: what was counted last is always shorter
than the loop, so that no execution confirms it. -/
inductive NeverConfirmed (iteration : Nat) (entry : LoopEntry) : Prop where
  | counting : entry.pastIterCnt.value = 0 → entry.confidence.value = 0 →
      1 ≤ entry.currIterCnt.value → NeverConfirmed iteration entry
  | comparing : 1 ≤ entry.pastIterCnt.value → entry.confidence.value = 1 →
      entry.currIterCnt.value = iteration → entry.currIterCnt.value ≤ entry.pastIterCnt.value →
      NeverConfirmed iteration entry

theorem NeverConfirmed.unsure {iteration : Nat} {entry : LoopEntry}
    (never : NeverConfirmed iteration entry) : ¬entry.confident = true := by
  intro sure
  have third := (LoopEntry.confident_iff entry).mp sure
  cases never with
  | counting _past confidence _current => omega
  | comparing _past confidence _current _below => omega

theorem NeverConfirmed.iterate {iteration : Nat} {entry : LoopEntry}
    (never : NeverConfirmed iteration entry) : NeverConfirmed (iteration + 1) (entry.learn true) := by
  have unsure := never.unsure
  have next : (entry.currIterCnt.addAssign 1).value =
      min (entry.currIterCnt.value + 1) (2 ^ iterWidth - 1) :=
    BaseFwcounter.addAssign_one_value entry.currIterCnt
  have capacity : (2 : Int) ^ iterWidth - 1 = 16383 := by decide
  by_cases advances : entry.Advances
  · obtain ⟨age, same⟩ := LoopEntry.learn_advance advances
    rw [same]
    cases never with
    | counting past confidence current =>
        refine NeverConfirmed.counting past confidence ?_
        change 1 ≤ (entry.currIterCnt.addAssign 1).value
        omega
    | comparing past confidence current below =>
        have room : entry.currIterCnt.value + 1 ≤ entry.pastIterCnt.value := by
          rcases advances with ⟨sure, _⟩ | ⟨_, untrained | room⟩
          · exact absurd sure unsure
          · omega
          · exact room
        have atMost := entry.pastIterCnt.atMost
        refine NeverConfirmed.comparing past confidence ?_ ?_
        · change (entry.currIterCnt.addAssign 1).value = ((iteration + 1 : Nat) : Int)
          omega
        · change (entry.currIterCnt.addAssign 1).value ≤ entry.pastIterCnt.value
          omega
  · rw [LoopEntry.learn_beyond advances]
    exact NeverConfirmed.counting rfl rfl (Int.le_refl 1)

theorem NeverConfirmed.exit {iteration : Nat} {entry : LoopEntry} (long : 16384 ≤ iteration)
    (never : NeverConfirmed iteration entry) : NeverConfirmed 0 (entry.learn false) := by
  have atMost := entry.pastIterCnt.atMost
  have capacity : (2 : Int) ^ iterWidth - 1 = 16383 := by decide
  have unsure := never.unsure
  cases never with
  | counting past confidence current =>
      have next : (entry.confidence.addAssign 1).value =
          min (entry.confidence.value + 1) (2 ^ 2 - 1) :=
        BaseFwcounter.addAssign_one_value entry.confidence
      obtain ⟨age, same⟩ := LoopEntry.learn_complete (Or.inr ⟨unsure, past⟩)
      rw [same]
      refine NeverConfirmed.comparing current ?_ rfl entry.currIterCnt.atLeast
      change (entry.confidence.addAssign 1).value = 1
      omega
  | comparing past confidence current below => omega

theorem neverConfirmed_tripEntry (tag : BitVec 32) (trips count : Nat) (long : 16384 ≤ trips)
    (some : 1 ≤ count) :
    NeverConfirmed (count % (trips + 1)) (tripEntry tag trips count) := by
  have loop : 1 ≤ trips := by omega
  induction count, some using Nat.le_induction with
  | base => exact NeverConfirmed.counting rfl rfl (Int.le_refl 1)
  | succ count some ih =>
      rw [tripEntry_succ tag trips count loop some]
      by_cases inside : count % (trips + 1) < trips
      · have taken : tripOutcome trips count = true := decide_eq_true inside
        rw [(position_inside inside).2, taken]
        exact ih.iterate
      · have exited : tripOutcome trips count = false := decide_eq_false inside
        obtain ⟨last, _execution, iteration⟩ := position_last inside
        rw [last] at ih
        rw [iteration, exited]
        exact ih.exit long

/-! ### What is predicted for such a loop -/

theorem Holds.predicted {loops : LoopPredictor} {ip : Address} {way : Int} {entry : LoopEntry}
    (holds : Holds loops ip way entry) :
    (loops.predictedInfo ip).isValidLoopPrediction = entry.confident ∧
      (loops.predictBranch ip).1 = entry.predicts := by
  rw [LoopPredictor.predictedInfo_hit holds.hitWay, LoopPredictor.predictBranch_hit holds.hitWay,
    LoopPredictor.hitInfo, holds.entryHere]
  exact ⟨rfl, rfl⟩

theorem holds_tripEntry {loops : LoopPredictor} {ip : Address} {way : Int} {trips count : Nat}
    {branches : List (Address × Bool)} (missed : loops.hitWay ip = none)
    (free : loops.freeWay ip = some way) (loop : 1 ≤ trips) (some : 1 ≤ count)
    (elsewhere : OthersElsewhere ip branches)
    (own : ownOutcomes ip branches = tripOutcomes trips count) :
    Holds (loopModule.feed loops branches) ip way (tripEntry (loopTag ip) trips count) := by
  rw [tripOutcomes_cons trips count loop some] at own
  exact holds_feed_of_miss branches elsewhere loops missed free own

/-- From the fourth execution on the entry is confident and predicts the trip. -/
theorem Trip.settled {trips execution iteration : Nat} {entry : LoopEntry}
    (trip : Trip trips execution iteration entry) (trained : 3 ≤ execution)
    (inside : iteration ≤ trips) :
    entry.confident = true ∧ entry.predicts = decide (iteration < trips) := by
  have current := trip.current
  have past := trip.past
  have confidence := trip.confidence
  rw [if_neg (by omega)] at past
  refine ⟨(LoopEntry.confident_iff entry).mpr (by omega), ?_⟩
  by_cases before : iteration < trips
  · rw [decide_eq_true before]
    exact (LoopEntry.predicts_iff entry).mpr (by omega)
  · rw [decide_eq_false before]
    exact LoopEntry.predicts_false (by omega)

theorem hitWay_of_missed {loops : LoopPredictor} {ip : Address}
    (missed : (loops.predictedInfo ip).hit = false) : loops.hitWay ip = none := by
  cases found : loops.hitWay ip with
  | none => rfl
  | some way =>
      rw [LoopPredictor.predictedInfo_hit found] at missed
      cases missed

theorem freeWay_of_aged {loops : LoopPredictor} {ip : Address}
    (aged : ∃ way ∈ ways, (loops.entry (setIndex ip) way).age.value = 0) :
    ∃ way, loops.freeWay ip = some way := by
  obtain ⟨way, member, age⟩ := aged
  cases free : loops.freeWay ip with
  | some chosen => exact ⟨chosen, rfl⟩
  | none =>
      have young := List.find?_eq_none.mp free way member
      rw [age, beq_self_eq_true] at young
      exact absurd rfl young

theorem loop_of_fixed_trips (loops : LoopPredictor) (ip : Address) (trips count : Nat)
    (branches : List (Address × Bool))
    (missed : (loops.predictedInfo ip).hit = false)
    (aged : ∃ way ∈ ways, (loops.entry (setIndex ip) way).age.value = 0)
    (loop : 1 ≤ trips) (elsewhere : OthersElsewhere ip branches)
    (own : ownOutcomes ip branches = tripOutcomes trips count) :
    (trips ≤ 16383 → 3 * (trips + 1) ≤ count →
      ((loopModule.feed loops branches).predictedInfo ip).isValidLoopPrediction = true ∧
        ((loopModule.feed loops branches).predictBranch ip).1 = tripOutcome trips count) ∧
    (16384 ≤ trips →
      ((loopModule.feed loops branches).predictedInfo ip).isValidLoopPrediction = false) := by
  have noHit := hitWay_of_missed missed
  obtain ⟨way, free⟩ := freeWay_of_aged aged
  constructor
  · intro fits long
    have some : 1 ≤ count := by omega
    have holds := holds_tripEntry noHit free loop some elsewhere own
    have trained : 3 ≤ count / (trips + 1) :=
      (Nat.le_div_iff_mul_le (Nat.succ_pos trips)).mpr long
    have inside : count % (trips + 1) ≤ trips :=
      Nat.le_of_lt_succ (Nat.mod_lt count (Nat.succ_pos trips))
    rw [holds.predicted.1, holds.predicted.2]
    exact (trip_tripEntry (loopTag ip) trips count loop fits some).settled trained inside
  · intro long
    by_cases none : count = 0
    · subst none
      exact (LoopPredictor.predictedInfo_miss
        (hitWay_feed_of_miss branches elsewhere loops noHit own)).2
    · have some : 1 ≤ count := Nat.one_le_iff_ne_zero.mpr none
      have holds := holds_tripEntry noHit free loop some elsewhere own
      rw [holds.predicted.1]
      exact Bool.eq_false_iff.mpr
        (neverConfirmed_tripEntry (loopTag ip) trips count long some).unsure

/-- A branch of another set, and then three executions of one iteration. -/
def singleTrips : List (Address × Bool) :=
  (65, true) :: (tripOutcomes 1 6).map (fun taken => (64, taken))

theorem loop_of_fixed_trips_single :
    ((loopModule.feed (default : LoopPredictor).loopPredictorInit
      singleTrips).predictedInfo 64).isValidLoopPrediction = true ∧
    ((loopModule.feed (default : LoopPredictor).loopPredictorInit
      singleTrips).predictBranch 64).1 = tripOutcome 1 6 := by
  have elsewhere : OthersElsewhere 64 singleTrips := by
    intro branch member
    cases List.mem_cons.mp member with
    | inl first =>
        rw [first]
        exact Or.inr (by decide)
    | inr later => exact othersElsewhere_map 64 _ branch later
  have own : ownOutcomes 64 singleTrips = tripOutcomes 1 6 :=
    (ownOutcomes_cons_other (by decide) true _).trans (ownOutcomes_map 64 _)
  exact (loop_of_fixed_trips (default : LoopPredictor).loopPredictorInit 64 1 6 singleTrips
    (by decide +kernel) ⟨0, by decide, by decide +kernel⟩ (by decide) elsewhere own).1
    (by decide) (by decide)

end ChampSim.LTage
