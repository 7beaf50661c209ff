/-
What an update may do to the tables, and which entry it allocates.

Everything here is read off `entry_lastBranchResult`. The allocation starts at
a component that the random number picks, so its guarantees are stated from
that component on.
-/

import ChampSim.Tage.Runs

set_option autoImplicit false

namespace ChampSim.Tage

open Msl Branch ShiftRegister Transition

theorem freeComponent_some {tage : Tage} {ip : Address} {random : Nat} {component : Int}
    (found : tage.freeComponent ip (nextComp (tage.providerComp ip) random) = some component) :
    component ∈ components ∧ nextComp (tage.providerComp ip) random ≤ component ∧
      (tage.slotEntry ip component).u.value = 0 := by
  have range := providerComp_range tage ip
  have member := (mem_candidates _ random range component).mp (List.mem_of_find?_eq_some found)
  have unused := List.find?_some found
  exact ⟨member.1, member.2, by simpa using unused⟩

theorem freeComponent_none {tage : Tage} {ip : Address} {random : Nat}
    (found : tage.freeComponent ip (nextComp (tage.providerComp ip) random) = none)
    {component : Int} (tagged : component ∈ components)
    (reached : nextComp (tage.providerComp ip) random ≤ component) :
    (tage.slotEntry ip component).u.value ≠ 0 := by
  have range := providerComp_range tage ip
  have candidate := (mem_candidates _ random range component).mpr ⟨tagged, reached⟩
  have used := List.find?_eq_none.mp found component candidate
  simpa using used

theorem allocatedComponent_some {tage : Tage} {ip : Address} {taken : Bool} {random : Nat}
    {component : Int} (chosen : tage.allocatedComponent ip taken random = some component) :
    allocates tage.branchInfo taken = true ∧
      tage.freeComponent ip (nextComp (tage.providerComp ip) random) = some component := by
  unfold allocatedComponent at chosen
  by_cases drawn : allocates tage.branchInfo taken = true
  · rw [if_pos drawn] at chosen
    exact ⟨drawn, chosen⟩
  · rw [if_neg drawn] at chosen
    cases chosen

/-! ### The frame of an update -/

/-- What the update of `ip` writes over the slot of a component it allocates. -/
structure Allocation (before after : Tage) (ip : Address) (taken : Bool) (component : Int) :
    Prop where
  tagged : component ∈ components
  mispredicted : before.branchInfo.ultimatePred ≠ taken
  longer : before.branchInfo.providerComp < component
  unused : (before.slotEntry ip component).u.value = 0
  tag : (after.entry component (before.compIndex ip component)).tag = before.tagHash ip component
  pred : (after.entry component (before.compIndex ip component)).pred.value = weak taken
  u : (after.entry component (before.compIndex ip component)).u.value = 0

/-- What the update of `ip` may do to the tables. -/
structure TableEffect (before after : Tage) (ip : Address) (taken : Bool) : Prop where
  slots : ∀ component index, Slot component index → index ≠ before.compIndex ip component →
    after.entry component index = ageEntry before.numBranches (before.entry component index)
  retagged : ∃ allocated : Option Int,
    (∀ component, allocated = some component → Allocation before after ip taken component) ∧
      ∀ component ∈ components, allocated ≠ some component →
        (after.entry component (before.compIndex ip component)).tag =
            (before.slotEntry ip component).tag ∧
          BaseFwcounter.MovesToward taken (before.slotEntry ip component).pred
            (after.entry component (before.compIndex ip component)).pred
  bimodal : ∀ index, CArray.InBounds bimodalEntries index →
    after.bimodalTable.get index ≠ before.bimodalTable.get index →
      index = (ip.toNat % bimodalEntries : Nat) ∧
        ∀ component ∈ components, before.tagMatches ip component = false

theorem ageEntry_u_zero (numBranches : Int) (entry : TageEntry) (zero : entry.u.value = 0) :
    (ageEntry numBranches entry).u.value = 0 := by
  have masked : ∀ mask : Nat, (maskUseful mask entry).u.value = 0 := by
    intro mask
    unfold maskUseful
    rw [BaseFwcounter.assign_value, zero, Int.toNat_zero, Nat.zero_and]
    rfl
  unfold ageEntry
  split
  · exact masked 1
  · split
    · exact masked 2
    · exact zero

theorem weak_range (taken : Bool) : 0 ≤ weak taken ∧ weak taken ≤ 7 := by
  cases taken <;> decide

theorem updatedSlot_pred_movesToward (tage : Tage) (ip : Address) (taken : Bool) (random : Nat)
    (component : Int) (kept : tage.allocatedComponent ip taken random ≠ some component) :
    BaseFwcounter.MovesToward taken (tage.slotEntry ip component).pred
      (tage.updatedSlot ip taken random component).pred := by
  have trained : BaseFwcounter.MovesToward taken (tage.slotEntry ip component).pred
      (tage.trainedSlot ip taken component).pred := by
    by_cases learns : Trained tage ip component
    · have same : (tage.trainedSlot ip taken component).pred =
          (tage.slotEntry ip component).pred.addAssign (outcomeStep taken) := if_pos learns
      rw [same]
      exact BaseFwcounter.addAssign_movesToward taken _
    · have same : (tage.trainedSlot ip taken component).pred =
          (tage.slotEntry ip component).pred := if_neg learns
      rw [same]
      exact BaseFwcounter.movesToward_refl taken _
  unfold updatedSlot
  dsimp only
  rw [if_neg kept]
  split
  · exact trained
  · exact trained

theorem slot_after (tage : Tage) (ip : Address) (taken : Bool) (stream : Rand)
    (ready : Ready tage ip) (component : Int) (tagged : component ∈ components) :
    (tage.lastBranchResult ip taken stream).1.entry component (tage.compIndex ip component) =
      ageEntry tage.numBranches (tage.updatedSlot ip taken stream.rand component) := by
  rw [entry_lastBranchResult tage ip taken stream ready _ _ (slot_compIndex tage ip component tagged),
    if_pos rfl]

theorem updatedSlot_allocated {tage : Tage} {ip : Address} {taken : Bool} {random : Nat}
    {component : Int} (chosen : tage.allocatedComponent ip taken random = some component) :
    tage.updatedSlot ip taken random component =
      { pred := (tage.slotEntry ip component).pred.assign (weak taken)
        tag := tage.tagHash ip component
        u := (tage.slotEntry ip component).u.assign 0 } := by
  unfold updatedSlot
  dsimp only
  rw [if_pos chosen]
  rfl

theorem allocation_of_chosen (tage : Tage) (ip : Address) (taken : Bool) (stream : Rand)
    (ready : Ready tage ip) (component : Int)
    (chosen : tage.allocatedComponent ip taken stream.rand = some component) :
    Allocation tage (tage.lastBranchResult ip taken stream).1 ip taken component := by
  obtain ⟨drawn, free⟩ := allocatedComponent_some chosen
  obtain ⟨tagged, reached, unused⟩ := freeComponent_some free
  have above := (nextComp_above _ stream.rand (providerComp_range tage ip)).1
  have condition := of_decide_eq_true drawn
  have after := slot_after tage ip taken stream ready component tagged
  have installed := updatedSlot_allocated chosen
  constructor
  · exact tagged
  · exact condition.1
  · rw [ready.provider]
    omega
  · exact unused
  · rw [after, ageEntry_tag, installed]
  · rw [after, ageEntry_pred, installed]
    exact BaseFwcounter.assign_value_of_range (tage.slotEntry ip component).pred _
      (weak_range taken).1 (weak_range taken).2
  · rw [after]
    apply ageEntry_u_zero
    rw [installed]
    rfl

theorem tableEffect_of_ready (tage : Tage) (ip : Address) (taken : Bool) (stream : Rand)
    (ready : Ready tage ip) :
    TableEffect tage (tage.lastBranchResult ip taken stream).1 ip taken := by
  constructor
  · intro component index slot elsewhere
    rw [entry_lastBranchResult tage ip taken stream ready component index slot, if_neg elsewhere]
  · refine ⟨tage.allocatedComponent ip taken stream.rand, ?_, ?_⟩
    · intro component chosen
      exact allocation_of_chosen tage ip taken stream ready component chosen
    · intro component tagged kept
      rw [slot_after tage ip taken stream ready component tagged]
      constructor
      · rw [ageEntry_tag, updatedSlot_tag, if_neg kept]
      · rw [ageEntry_pred]
        exact updatedSlot_pred_movesToward tage ip taken stream.rand component kept
  · intro index within changed
    rw [bimodal_lastBranchResult tage ip taken stream ready index within] at changed
    by_cases learns : tage.providerComp ip = -1 ∧ index = (ip.toNat % bimodalEntries : Nat)
    · refine ⟨learns.2, ?_⟩
      intro component tagged
      rcases providerComp_longest tage ip with ⟨_absent, unmatched⟩ | ⟨member, _⟩
      · have range := (mem_components component).mp tagged
        exact unmatched component tagged (by unfold numComponents; omega)
      · have range := (mem_components _).mp member
        omega
    · rw [if_neg learns] at changed
      exact absurd rfl changed

theorem lastBranchResult_tableEffect (tage : Tage) (ip : Address) (taken : Bool) (stream : Rand) :
    TableEffect (tage.predictBranch ip).2
      ((tage.predictBranch ip).2.lastBranchResult ip taken stream).1 ip taken :=
  tableEffect_of_ready _ ip taken stream (ready_predictBranch tage ip)

/-! ### Which entry is allocated -/

/-- Only the periodic reset reaches the slot of `ip` in this component. -/
def Untouched (before after : Tage) (ip : Address) (component : Int) : Prop :=
  after.entry component (before.compIndex ip component) =
    ageEntry before.numBranches (before.slotEntry ip component)

def FreeFrom (tage : Tage) (ip : Address) (start component : Int) : Prop :=
  component ∈ components ∧ start ≤ component ∧ (tage.slotEntry ip component).u.value = 0

/-- The update allocates one free slot at or above `start`, or else makes every
slot from there on less useful. -/
structure AllocatesFrom (before after : Tage) (ip : Address) (taken : Bool) (start : Int) :
    Prop where
  found : (∃ component, FreeFrom before ip start component) →
    ∃ allocated, FreeFrom before ip start allocated ∧
      Allocation before after ip taken allocated ∧
      ∀ component ∈ components, before.branchInfo.providerComp < component →
        component ≠ allocated → Untouched before after ip component
  exhausted : (¬∃ component, FreeFrom before ip start component) →
    ∀ component ∈ components, before.branchInfo.providerComp < component →
      (start ≤ component →
        after.entry component (before.compIndex ip component) =
          ageEntry before.numBranches
            { before.slotEntry ip component with
              u := (before.slotEntry ip component).u.subAssign 1 }) ∧
      (component < start → Untouched before after ip component)

/-- Training does not reach the components that are longer than the provider. -/
theorem trainedSlot_longer (tage : Tage) (ip : Address) (taken : Bool) (component : Int)
    (tagged : component ∈ components) (longer : tage.providerComp ip < component) :
    tage.trainedSlot ip taken component = tage.slotEntry ip component := by
  have untrained : ¬Trained tage ip component := by
    rintro (provides | ⟨alternate, _unused⟩)
    · omega
    · have range := (mem_components component).mp tagged
      have below := (altpredComp_mem tage ip (by omega)).2
      omega
  apply TageEntry.ext
  · exact if_neg untrained
  · rfl
  · exact trainedUseful_of_ne tage ip taken component (by omega)

theorem allocatesFrom_nextComp (tage : Tage) (ip : Address) (taken : Bool) (stream : Rand)
    (ready : Ready tage ip) (mispredicted : tage.branchInfo.ultimatePred ≠ taken)
    (shorter : tage.branchInfo.providerComp < 12) :
    AllocatesFrom tage (tage.lastBranchResult ip taken stream).1 ip taken
      (nextComp tage.branchInfo.providerComp stream.rand) := by
  have drawn : allocates tage.branchInfo taken = true :=
    decide_eq_true ⟨mispredicted, by unfold numComponents; omega⟩
  have chosen : tage.allocatedComponent ip taken stream.rand =
      tage.freeComponent ip (nextComp (tage.providerComp ip) stream.rand) := if_pos drawn
  rw [ready.provider]
  constructor
  · rintro ⟨candidate, tagged, reached, unused⟩
    cases free : tage.freeComponent ip (nextComp (tage.providerComp ip) stream.rand) with
    | none => exact absurd unused (freeComponent_none free tagged reached)
    | some allocated =>
        rw [free] at chosen
        refine ⟨allocated, freeComponent_some free, ?_, ?_⟩
        · exact allocation_of_chosen tage ip taken stream ready allocated chosen
        · intro component present longer different
          rw [ready.provider] at longer
          have kept : tage.allocatedComponent ip taken stream.rand ≠ some component := by
            rw [chosen]
            intro same
            exact different (Option.some.inj same).symm
          have occupied : ¬tage.allocatedComponent ip taken stream.rand = none := by
            rw [chosen]
            exact Option.some_ne_none allocated
          unfold Untouched
          rw [slot_after tage ip taken stream ready component present, updatedSlot, if_neg kept,
            if_neg (fun all => occupied all.1.2), trainedSlot_longer tage ip taken _ present longer]
  · intro exhausted component present longer
    rw [ready.provider] at longer
    have nothing : tage.allocatedComponent ip taken stream.rand = none := by
      rw [chosen]
      cases free : tage.freeComponent ip (nextComp (tage.providerComp ip) stream.rand) with
      | none => rfl
      | some allocated => exact absurd ⟨allocated, freeComponent_some free⟩ exhausted
    have kept : tage.allocatedComponent ip taken stream.rand ≠ some component := by
      rw [nothing]
      exact (Option.some_ne_none component).symm
    rw [slot_after tage ip taken stream ready component present, updatedSlot, if_neg kept]
    constructor
    · intro reached
      rw [if_pos ⟨⟨drawn, nothing⟩, reached⟩, trainedSlot_longer tage ip taken _ present longer]
    · intro below
      unfold Untouched
      rw [slot_after tage ip taken stream ready component present, updatedSlot, if_neg kept,
        if_neg (fun all => by omega), trainedSlot_longer tage ip taken _ present longer]

/-- The random start is part of the policy, and the guarantee holds from it on.
A start past the last component is left open. -/
theorem lastBranchResult_allocatesFrom (tage : Tage) (ip : Address) (taken : Bool) (stream : Rand)
    (mispredicted : (tage.predictBranch ip).2.branchInfo.ultimatePred ≠ taken)
    (shorter : (tage.predictBranch ip).2.branchInfo.providerComp < 12)
    (_inside : nextComp (tage.predictBranch ip).2.branchInfo.providerComp stream.rand ≤ 12) :
    AllocatesFrom (tage.predictBranch ip).2
      ((tage.predictBranch ip).2.lastBranchResult ip taken stream).1 ip taken
      (nextComp (tage.predictBranch ip).2.branchInfo.providerComp stream.rand) :=
  allocatesFrom_nextComp _ ip taken stream (ready_predictBranch tage ip) mispredicted shorter

theorem lastBranchResult_allocatesFrom_fresh :
    AllocatesFrom ((fresh default).predictBranch 127).2
      (((fresh default).predictBranch 127).2.lastBranchResult 127 false (fun _ => 1)).1 127 false
      (nextComp ((fresh default).predictBranch 127).2.branchInfo.providerComp 1) :=
  lastBranchResult_allocatesFrom (fresh default) 127 false (fun _ => 1)
    (by decide +kernel) (by decide +kernel) (by decide +kernel)

/-- Six branches after which the update of `8250` starts its search above the
only free entry. -/
def skippingHistory : List (Address × Bool) :=
  [(1, false), (12288, true), (1, false), (12294, true), (0, true), (1, false)]

def skippingStream : Rand := fun position => [0, 3, 1].getD position 0

def skippingState : Tage × Rand := predictor.feed (fresh default, skippingStream) skippingHistory

/-- The prediction of `8250` after that history. -/
def skippingTage : Tage := (skippingState.1.predictBranch 8250).2

/-- The prediction, and the entry of component 12 before and after the update. -/
private theorem skippingTage_update :
    (skippingTage.branchInfo.ultimatePred ≠ true ∧
      skippingTage.branchInfo.providerComp = 10 ∧
      (skippingTage.slotEntry 8250 11).u.value = 0 ∧
      (skippingTage.slotEntry 8250 12).u.value = 1) ∧
    ((skippingTage.lastBranchResult 8250 true skippingState.2).1.entry 12
      (skippingTage.compIndex 8250 12)).u.value = 0 ∧
    (ageEntry skippingTage.numBranches (skippingTage.slotEntry 8250 12)).u.value = 1 := by
  decide +kernel

theorem not_allocatesFrom_shortest :
    ¬∀ (memory : Tage) (stream : Rand) (calls : List Call) (session : Session (Tage × Rand))
      (ip : Address) (taken : Bool), Reaches memory stream calls session →
      (session.predictor.1.predictBranch ip).2.branchInfo.ultimatePred ≠ taken →
      (session.predictor.1.predictBranch ip).2.branchInfo.providerComp < 12 →
      AllocatesFrom (session.predictor.1.predictBranch ip).2
        ((session.predictor.1.predictBranch ip).2.lastBranchResult ip taken
          session.predictor.2).1 ip taken
        (max (session.predictor.1.predictBranch ip).2.branchInfo.providerComp 0 + 1) := by
  intro always
  obtain ⟨⟨mispredicted, provider, unused, used⟩, decremented, undecremented⟩ :=
    skippingTage_update
  obtain ⟨previous, ran⟩ := predictor.run_callsOf (fresh default, skippingStream) none
    skippingHistory
  have shorter : skippingTage.branchInfo.providerComp < 12 := by omega
  have reached : Reaches default skippingStream (PredictorModule.callsOf skippingHistory)
      ⟨skippingState, previous⟩ := ran
  have effect := always default skippingStream _ _ 8250 true reached
  dsimp only at effect
  rw [← skippingTage] at effect
  replace effect := effect mispredicted shorter
  have free : FreeFrom skippingTage 8250
      (max skippingTage.branchInfo.providerComp 0 + 1) 11 := by
    refine ⟨(mem_components 11).mpr (by omega), ?_, unused⟩
    omega
  obtain ⟨allocated, ⟨_tagged, _reached, isFree⟩, _installed, others⟩ := effect.found ⟨11, free⟩
  have different : (12 : Int) ≠ allocated := by
    intro same
    rw [← same, used] at isFree
    cases isFree
  have kept := others 12 ((mem_components 12).mpr (by omega)) (by omega) different
  unfold Untouched at kept
  rw [kept, undecremented] at decremented
  cases decremented

/-! ### Entries that were never allocated -/

/-- The slot that the allocation step of an update writes. -/
def allocation (tage : Tage) (ip : Address) (taken : Bool) (stream : Rand) : Option (Int × Int) :=
  let tage := tage.train ip taken
  if allocates tage.branchInfo taken then
    (tage.freeComponent ip (nextComp tage.branchInfo.providerComp stream.rand)).map
      (fun component => (component, tage.compIndex ip component))
  else none

def noteAllocation (session : Session (Tage × Rand)) (call : Call) (slots : List (Int × Int)) :
    List (Int × Int) :=
  match call with
  | .predictBranch _ => slots
  | .lastBranchResult ip taken =>
      (session.predictor.1.allocation ip taken session.predictor.2).toList ++ slots

/-- `session` is reached by a run that allocated exactly `slots`. -/
def ReachesAllocating (memory : Tage) (stream : Rand) (calls : List Call)
    (session : Session (Tage × Rand)) (slots : List (Int × Int)) : Prop :=
  (predictor.machine.record noteAllocation).run
    (PredictorModule.start (fresh memory, stream), []) calls = some (session, slots)

theorem exists_reachesAllocating (memory : Tage) (stream : Rand) (calls : List Call)
    (session : Session (Tage × Rand)) (ran : Reaches memory stream calls session) :
    ∃ slots, ReachesAllocating memory stream calls session slots :=
  predictor.machine.exists_recorded_run noteAllocation calls _ session _ ran

theorem allocation_of_ready (tage : Tage) (ip : Address) (taken : Bool) (stream : Rand)
    (ready : Ready tage ip) :
    tage.allocation ip taken stream =
      (tage.allocatedComponent ip taken stream.rand).map
        (fun component => (component, tage.compIndex ip component)) := by
  have frame := train_sameFrame tage ip taken
  unfold allocation allocatedComponent
  dsimp only
  rw [frame.branchInfo, ready.provider, freeComponent_train tage ip taken stream.rand ready]
  simp only [frame.sameHistory.compIndex]
  split
  · rfl
  · rfl

/-- Every slot outside the list is as initialisation left its tag. -/
def Untagged (tage : Tage) (slots : List (Int × Int)) : Prop :=
  ∀ component index, Slot component index → (component, index) ∉ slots →
    (tage.entry component index).tag = 0

theorem Untagged.lastBranchResult {tage : Tage} {slots : List (Int × Int)}
    (untagged : Untagged tage slots) (ip : Address) (taken : Bool) (stream : Rand)
    (ready : Ready tage ip) :
    Untagged (tage.lastBranchResult ip taken stream).1
      ((tage.allocation ip taken stream).toList ++ slots) := by
  intro component index slot absent
  have tagged := (mem_components component).mpr slot.1
  have before : (component, index) ∉ slots := fun earlier => absent (List.mem_append_right _ earlier)
  rw [entry_lastBranchResult tage ip taken stream ready component index slot, ageEntry_tag]
  by_cases here : index = tage.compIndex ip component
  · have kept : tage.allocatedComponent ip taken stream.rand ≠ some component := by
      intro chosen
      apply absent
      rw [allocation_of_ready tage ip taken stream ready, chosen, Option.map_some, ← here]
      exact List.mem_append_left _ (List.mem_singleton.mpr rfl)
    rw [if_pos here, updatedSlot_tag, if_neg kept, slotEntry, ← here]
    exact untagged component index slot before
  · rw [if_neg here]
    exact untagged component index slot before

theorem reachesAllocating_untagged (memory : Tage) (stream : Rand) (calls : List Call)
    (session : Session (Tage × Rand)) (slots : List (Int × Int))
    (ran : ReachesAllocating memory stream calls session slots) :
    Untagged session.predictor.1 slots := by
  refine (predictor.record_invariant noteAllocation (fun state ip => Ready state.1 ip)
    (fun state slots => Untagged state.1 slots) ?_ ?_ ?_ calls (fresh memory, stream) session []
    slots ?_ ran).1
  · intro state ip
    exact ready_predictBranch state.1 ip
  · intro session ip noted untagged
    obtain ⟨info, frame⟩ := predictBranch_frame session.predictor.1 ip
    change Untagged (session.predictor.1.predictBranch ip).2 noted
    rw [frame]
    exact untagged
  · intro session ip taken noted ready untagged
    exact untagged.lastBranchResult ip taken session.predictor.2 ready
  · intro component index slot _absent
    change ((fresh memory).entry component index).tag = 0
    rw [entry_fresh memory component index slot]

/-- The entry that provides the prediction of `ip` was allocated. -/
def ProvidedByAllocation (tage : Tage) (ip : Address) (slots : List (Int × Int)) : Prop :=
  (tage.predictBranch ip).2.branchInfo.providerComp ≠ -1 →
    ((tage.predictBranch ip).2.branchInfo.providerComp,
      tage.compIndex ip (tage.predictBranch ip).2.branchInfo.providerComp) ∈ slots

/-- A slot that was never allocated can be hit by a branch whose tag is 0;
then a longer component has to hold the tag of the branch. -/
def ResetEntriesShadowed (tage : Tage) (ip : Address) (slots : List (Int × Int)) : Prop :=
  ∀ component ∈ components, (component, tage.compIndex ip component) ∉ slots →
    tage.tagHash ip component = 0 →
    ∃ longer ∈ components, component < longer ∧
      (tage.entry longer (tage.compIndex ip longer)).tag = tage.tagHash ip longer

theorem providedByAllocation_iff (memory : Tage) (stream : Rand) (calls : List Call)
    (session : Session (Tage × Rand)) (slots : List (Int × Int))
    (ran : ReachesAllocating memory stream calls session slots) (ip : Address) :
    ProvidedByAllocation session.predictor.1 ip slots ↔
      ResetEntriesShadowed session.predictor.1 ip slots := by
  have untagged := reachesAllocating_untagged memory stream calls session slots ran
  generalize session.predictor.1 = tage at untagged ⊢
  have longest := providerComp_longest tage ip
  unfold ProvidedByAllocation
  rw [(predictBranch_info tage ip).provider]
  constructor
  · intro allocated component tagged absent zero
    have hit : tage.tagMatches ip component = true := by
      have stored := untagged component _ (slot_compIndex tage ip component tagged) absent
      unfold tagMatches slotEntry
      rw [stored, zero]
      rfl
    have range := (mem_components component).mp tagged
    rcases longest with ⟨_none, unmatched⟩ | ⟨member, _below, found, unmatched⟩
    · have missed := unmatched component tagged (by unfold numComponents; omega)
      rw [hit] at missed
      cases missed
    · have providerRange := (mem_components _).mp member
      refine ⟨tage.providerComp ip, member, ?_, by simpa [tagMatches, slotEntry] using found⟩
      rcases Int.lt_trichotomy component (tage.providerComp ip) with before | same | after
      · exact before
      · rw [same] at absent
        exact absurd (allocated (by omega)) absent
      · have missed := unmatched component tagged after (by unfold numComponents; omega)
        rw [hit] at missed
        cases missed
  · intro shadowed present
    obtain ⟨member, _below, found⟩ := longest.found_mem present
    by_contra absent
    have stored := untagged _ _ (slot_compIndex tage ip _ member) absent
    have zero : tage.tagHash ip (tage.providerComp ip) = 0 := by
      unfold tagMatches slotEntry at found
      rw [stored] at found
      exact (eq_of_beq found).symm
    obtain ⟨longer, tagged, above, hit⟩ := shadowed _ member absent zero
    rcases longest with ⟨none, _⟩ | ⟨_, _, _, unmatched⟩
    · exact present none
    · have range := (mem_components longer).mp tagged
      have missed := unmatched longer tagged above (by unfold numComponents; omega)
      unfold tagMatches slotEntry at missed
      rw [hit, beq_self_eq_true] at missed
      cases missed

private theorem allocated_run :
    ((predictor.machine.record noteAllocation).run
      (PredictorModule.start (fresh default, fun _ => 0), [])
      (PredictorModule.callsOf [(0x4011f4, false)])).map
        (fun recorded =>
          ((recorded.1.predictor.1.predictBranch 0x4011f4).2.branchInfo.providerComp,
            recorded.2)) =
      some (1, [(1, 496)]) := by
  decide +kernel

theorem providedByAllocation_iff_allocated :
    ∃ session slots,
      ReachesAllocating default (fun _ => 0) (PredictorModule.callsOf [(0x4011f4, false)])
        session slots ∧
      (session.predictor.1.predictBranch 0x4011f4).2.branchInfo.providerComp = 1 ∧
      slots = [(1, 496)] ∧
      (ProvidedByAllocation session.predictor.1 0x4011f4 slots ↔
        ResetEntriesShadowed session.predictor.1 0x4011f4 slots) := by
  obtain ⟨⟨session, slots⟩, ran, same⟩ := Option.map_eq_some_iff.mp allocated_run
  obtain ⟨provider, allocated⟩ := Prod.mk.inj same
  exact ⟨session, slots, ran, provider, allocated,
    providedByAllocation_iff default (fun _ => 0) _ session slots ran 0x4011f4⟩

private theorem fresh_provides :
    ((fresh default).predictBranch 0).2.branchInfo.providerComp ≠ -1 := by
  decide +kernel

theorem not_providedByAllocation_fresh :
    ¬∀ (memory : Tage) (stream : Rand) (calls : List Call) (session : Session (Tage × Rand))
      (slots : List (Int × Int)), ReachesAllocating memory stream calls session slots →
      ∀ ip, ProvidedByAllocation session.predictor.1 ip slots := by
  intro always
  have allocated : ProvidedByAllocation (fresh default) 0 [] :=
    always default (fun _ => 0) [] (PredictorModule.start (fresh default, fun _ => 0)) [] rfl 0
  exact List.not_mem_nil (allocated fresh_provides)

end ChampSim.Tage
