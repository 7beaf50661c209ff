/-
Which ways of a set of the loop predictor share a tag.

All ways start with the tag 0. A scan for a tag stops at the first way that has
it, so that a later way with the same tag was never hit while an earlier one had
the tag: it is still as it was reset.
-/

import ChampSim.LTage.LoopPredictor

set_option autoImplicit false

namespace ChampSim.LTage

open Msl Branch Transition

namespace LoopPredictor

/-- A way with the tag of an earlier way has the tag 0 and no age. -/
def RepeatsUnused (loops : LoopPredictor) : Prop :=
  ∀ set earlier later, Way set earlier → Way set later → earlier < later →
    (loops.entry set earlier).tag = (loops.entry set later).tag →
      (loops.entry set later).tag = 0 ∧ (loops.entry set later).age.value = 0

variable {loops : LoopPredictor} {ip : Address}

theorem hitWay_first {hit earlier : Int} (found : loops.hitWay ip = some hit)
    (member : earlier ∈ ways) (before : earlier < hit) :
    (loops.entry (setIndex ip) earlier).tag ≠ loopTag ip := by
  have ascending : ways.Pairwise (· < ·) := by decide
  obtain ⟨_holds, front, back, split, none⟩ := List.find?_eq_some_iff_append.mp found
  rw [split] at member ascending
  have after := (List.pairwise_append.mp ascending).2.1
  have among : earlier ∈ front := by
    rcases List.mem_append.mp member with inFront | inBack
    · exact inFront
    · rcases List.mem_cons.mp inBack with same | later
      · omega
      · have beyond := (List.pairwise_cons.mp after).1 earlier later
        omega
  intro same
  have different := none earlier among
  rw [same] at different
  simp at different

theorem hitWay_none {way : Int} (missed : loops.hitWay ip = none) (member : way ∈ ways) :
    (loops.entry (setIndex ip) way).tag ≠ loopTag ip := by
  intro same
  have different := List.find?_eq_none.mp missed way member
  rw [same] at different
  simp at different

theorem RepeatsUnused.updatedWay (repeats : RepeatsUnused loops) (taken : Bool)
    {earlier later : Int} (earlierMember : earlier ∈ ways) (laterMember : later ∈ ways)
    (before : earlier < later)
    (same : (loops.updatedWay ip taken earlier).tag = (loops.updatedWay ip taken later).tag) :
    (loops.updatedWay ip taken later).tag = 0 ∧
      (loops.updatedWay ip taken later).age.value = 0 := by
  have stood := repeats (setIndex ip) earlier later (way_setIndex ip earlierMember)
    (way_setIndex ip laterMember) before
  rcases loops.updatedWay_cases ip taken later with
    ⟨hit, learned⟩ | ⟨missed, free, allocated⟩ | ⟨age, unused, aged⟩
  · have laterTag : (loops.updatedWay ip taken later).tag = loopTag ip := by
      rw [learned, LoopEntry.learn_tag]
      exact (hitWay_some hit).2
    rcases loops.updatedWay_cases ip taken earlier with
      ⟨other, _learned⟩ | ⟨missed, _free, _allocated⟩ | ⟨_age, _unused, aged⟩
    · rw [hit] at other
      cases other
      omega
    · rw [hit] at missed
      cases missed
    · rw [laterTag, aged] at same
      exact absurd same (hitWay_first hit earlierMember before)
  · rcases loops.updatedWay_cases ip taken earlier with
      ⟨hit, _learned⟩ | ⟨_missed, other, _allocated⟩ | ⟨_age, _unused, aged⟩
    · rw [missed] at hit
      cases hit
    · rw [free] at other
      cases other
      omega
    · rw [allocated, aged] at same
      exact absurd same (hitWay_none missed earlierMember)
  · rw [aged] at same ⊢
    have shared : (loops.entry (setIndex ip) earlier).tag =
        (loops.entry (setIndex ip) later).tag := by
      rcases loops.updatedWay_cases ip taken earlier with
        ⟨_hit, learned⟩ | ⟨missed, _free, allocated⟩ | ⟨_age, _unused, other⟩
      · rw [learned, LoopEntry.learn_tag] at same
        exact same
      · rw [allocated] at same
        exact absurd same.symm (hitWay_none missed laterMember)
      · rw [other] at same
        exact same
    obtain ⟨zero, ageless⟩ := stood shared
    exact ⟨zero, unused ageless⟩

theorem RepeatsUnused.lastBranchResult (repeats : RepeatsUnused loops) (ready : Ready loops ip)
    (taken : Bool) : RepeatsUnused (loops.lastBranchResult ip taken) := by
  intro set earlier later earlierInside laterInside before
  rw [entry_lastBranchResult loops ip taken ready earlierInside,
    entry_lastBranchResult loops ip taken ready laterInside]
  by_cases here : set = setIndex ip
  · rw [if_pos here, if_pos here]
    exact repeats.updatedWay taken ((mem_ways earlier).mpr earlierInside.2)
      ((mem_ways later).mpr laterInside.2) before
  · rw [if_neg here, if_neg here]
    exact repeats set earlier later earlierInside laterInside before

/-! ### Runs -/

/-- No two ways of a set share a tag, unless it is 0 and one of them has no age. -/
structure TagsDistinct (loops : LoopPredictor) : Prop where
  nonzero : ∀ set first second, Way set first → Way set second → first ≠ second →
    (loops.entry set first).tag = (loops.entry set second).tag →
      (loops.entry set first).tag = 0
  aged : ∀ set first second, Way set first → Way set second → first ≠ second →
    0 < (loops.entry set first).age.value → 0 < (loops.entry set second).age.value →
      (loops.entry set first).tag ≠ (loops.entry set second).tag

theorem RepeatsUnused.distinct (repeats : RepeatsUnused loops) : TagsDistinct loops := by
  constructor
  · intro set first second firstInside secondInside different same
    rcases Int.lt_or_gt_of_ne different with before | after
    · rw [same]
      exact (repeats set first second firstInside secondInside before same).1
    · exact (repeats set second first secondInside firstInside after same.symm).1
  · intro set first second firstInside secondInside different firstAged secondAged same
    rcases Int.lt_or_gt_of_ne different with before | after
    · have ageless := (repeats set first second firstInside secondInside before same).2
      omega
    · have ageless := (repeats set second first secondInside firstInside after same.symm).2
      omega

theorem reaches_tagsDistinct (memory : LoopPredictor) (calls : List Call)
    (session : Session LoopPredictor)
    (ran : loopModule.machine.run (PredictorModule.start memory.loopPredictorInit) calls =
      some session) : TagsDistinct session.predictor := by
  apply RepeatsUnused.distinct
  refine (loopModule.run_invariant Ready RepeatsUnused ?_ ?_ ?_ calls memory.loopPredictorInit
    session ?_ ran).1
  · exact ready_predictBranch
  · intro reached ip repeats
    change RepeatsUnused (reached.predictBranch ip).2
    unfold RepeatsUnused
    rw [entry_predictBranch]
    exact repeats
  · intro reached ip taken ready repeats
    exact repeats.lastBranchResult ready taken
  · intro set earlier later earlierInside laterInside _before _same
    rw [entry_loopPredictorInit memory laterInside]
    exact ⟨rfl, rfl⟩

private theorem sharedSet_run :
    (loopModule.machine.run (PredictorModule.start (default : LoopPredictor).loopPredictorInit)
      (PredictorModule.callsOf [(64, true), (128, true)])).map
        (fun session => (session.predictor.entry 0 0, session.predictor.entry 0 1)) =
      some ((default : LoopEntry).allocate 1, (default : LoopEntry).allocate 2) := by
  decide +kernel

theorem reaches_tagsDistinct_sharedSet :
    ∃ session, loopModule.machine.run
        (PredictorModule.start (default : LoopPredictor).loopPredictorInit)
        (PredictorModule.callsOf [(64, true), (128, true)]) = some session ∧
      0 < (session.predictor.entry 0 0).age.value ∧
      0 < (session.predictor.entry 0 1).age.value ∧ TagsDistinct session.predictor := by
  obtain ⟨session, ran, entries⟩ := Option.map_eq_some_iff.mp sharedSet_run
  obtain ⟨first, second⟩ := Prod.mk.inj entries
  refine ⟨session, ran, ?_, ?_, reaches_tagsDistinct default _ session ran⟩
  · rw [first]
    decide
  · rw [second]
    decide

end LoopPredictor

end ChampSim.LTage
