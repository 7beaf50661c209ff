/-
Reads in runs of a memory controller.

A read that asked for a response has it, or an entry of its channel carries it.
Only one of these, and that once, when one of its instructions is its own: two
reads of one instruction are carried by two entries.
-/

import ChampSim.Dram.ReadLedger
import ChampSim.Dram.SlotRuns

set_option autoImplicit false

namespace ChampSim.Dram

open Cache (Request Response)
open DramChannel (eightBanks)

/-- How many responses for its block, with all of its instructions, a read got. -/
def AcceptedRead.answers (config : DramConfig) (read : AcceptedRead) : Nat :=
  read.pushed.countP (fun response => decide (read.AnsweredBy config response))

/-- An occupied entry that carries the level and all instructions of a read. -/
def AcceptedRead.carriedBy (read : AcceptedRead) (slot : Option DramRequest) : Bool :=
  slot.any (fun entry => decide (read.level ∈ entry.toReturn ∧
    ∀ id ∈ read.request.instrDependOnMe, id ∈ entry.instrDependOnMe))

def AcceptedRead.carriedForBlock (config : DramConfig) (read : AcceptedRead)
    (slot : Option DramRequest) : Bool :=
  read.carriedBy slot && slot.any (fun entry =>
    decide (config.addressMapping.block entry.address =
      config.addressMapping.block read.request.address))

namespace MemoryController

variable {config : DramConfig} {controller : MemoryController}

def readQueue (config : DramConfig) (controller : MemoryController) (address : Address) :
    RequestQueue :=
  match channelIndex config address with
  | .ok index => controller.channels[index]?.elim [] DramChannel.rq
  | .error _ => []

def carriers (config : DramConfig) (controller : MemoryController) (read : AcceptedRead) : Nat :=
  (controller.readQueue config read.request.address).countP read.carriedBy

def blockCarriers (config : DramConfig) (controller : MemoryController) (read : AcceptedRead) : Nat :=
  (controller.readQueue config read.request.address).countP (read.carriedForBlock config)

theorem readQueue_eq {address : Address} {index : Nat} {channel : DramChannel}
    (isIndex : channelIndex config address = .ok index)
    (present : controller.channels[index]? = some channel) :
    controller.readQueue config address = channel.rq := by
  unfold readQueue
  rw [isIndex]
  dsimp only
  rw [present]
  rfl

theorem held_countP (mapping : AddressMapping) (number : Nat) (queue : RequestQueue) (instr : Nat) :
    (held mapping number queue).countP (fun holder => decide (instr ∈ holder.tokens)) =
      queue.countP (fun slot => slot.any (fun entry => decide (instr ∈ entry.instrDependOnMe))) := by
  unfold held
  rw [List.countP_map, List.countP_filterMap]
  apply List.countP_congr
  intro slot _member
  cases slot <;> rfl

/-- The entries that carry a read are among those that hold an instruction of it. -/
theorem carriers_le_holding (config : DramConfig) (controller : MemoryController)
    (read : AcceptedRead) (instr : Nat) (listed : instr ∈ read.request.instrDependOnMe) :
    controller.carriers config read ≤ controller.holding config instr := by
  have fewer : ∀ queue : RequestQueue, queue.countP read.carriedBy ≤
      queue.countP (fun slot => slot.any (fun entry =>
        decide (instr ∈ entry.instrDependOnMe))) := by
    intro queue
    apply List.countP_mono_left
    intro slot _member carries
    cases slot with
    | none => cases carries
    | some entry => exact decide_eq_true ((of_decide_eq_true carries).2 instr listed)
  unfold carriers
  cases isIndex : channelIndex config read.request.address with
  | error fault =>
      unfold readQueue
      rw [isIndex]
      exact Nat.zero_le _
  | ok index =>
      cases present : controller.channels[index]? with
      | none =>
          unfold readQueue
          rw [isIndex]
          dsimp only
          rw [present]
          exact Nat.zero_le _
      | some channel =>
          obtain ⟨rest, whole, _stored⟩ := holdersFrom_split config.addressMapping present
          rw [readQueue_eq isIndex present]
          refine (fewer channel.rq).trans ?_
          rw [← held_countP config.addressMapping index]
          unfold holding MemoryController.holders
          rw [whole.countP_eq, List.countP_append]
          exact Nat.le_add_right _ _

/-- A holder that serves a read is an entry of its channel that carries it for its block. -/
theorem blockCarriers_pos {read : AcceptedRead} {holder : Custody.Holder Place}
    (member : holder ∈ controller.holders config)
    (serving : Custody.Serves (read.Fits config) read.level read.request.instrDependOnMe holder) :
    1 ≤ controller.blockCarriers config read := by
  obtain ⟨index, channel, present, inChannel⟩ := mem_holdersFrom controller.channels 0 member
  rw [Nat.zero_add] at inChannel
  obtain ⟨entry, inQueue, isHolder⟩ := List.mem_map.mp inChannel
  obtain ⟨slot, inSlots, isSlot⟩ := List.mem_filterMap.mp inQueue
  rw [show slot = some entry from isSlot] at inSlots
  rw [← isHolder] at serving
  have carried : read.carriedBy (some entry) = true :=
    decide_eq_true ⟨serving.toReturn, serving.tokens⟩
  have forBlock : read.carriedForBlock config (some entry) = true :=
    Bool.and_eq_true_iff.mpr ⟨carried, decide_eq_true serving.fits.block.symm⟩
  unfold blockCarriers
  rw [readQueue_eq serving.fits.channel present]
  exact List.countP_pos_iff.mpr ⟨some entry, inSlots, forBlock⟩

theorem blockCarriers_le (config : DramConfig) (controller : MemoryController)
    (read : AcceptedRead) :
    controller.blockCarriers config read ≤ controller.carriers config read := by
  apply List.countP_mono_left
  intro slot _member carries
  exact (Bool.and_eq_true_iff.mp carries).1

/-- In every reachable state, a read that asked for a response was answered or is carried by an
entry of its channel for its block: once in all, when one of its instructions is listed by no
other read. -/
theorem run_reads (config : DramConfig) (queues : List Cache.Channel) (rqSize wqSize : Nat)
    (steps : List ControllerStep) (controller : MemoryController)
    (ran : (machine config).run (make config.addressMapping queues rqSize wqSize) steps =
      some controller) (read : AcceptedRead) (member : read ∈ controller.ledger)
    (asked : read.request.responseRequested = true) :
    1 ≤ read.answers config + controller.blockCarriers config read ∧
      ((∃ instr ∈ read.request.instrDependOnMe, controller.listing instr = 1) →
        read.answers config + controller.carriers config read = 1) := by
  have kept := run_kept queues rqSize wqSize steps ran
  have owed : 1 ≤ read.answers config + controller.blockCarriers config read := by
    rcases kept.owes read member asked with ⟨response, pushed, answered⟩ | ⟨holder, held, serving⟩
    · have some : 1 ≤ read.answers config :=
        List.countP_pos_iff.mpr ⟨response, pushed, decide_eq_true answered⟩
      omega
    · have carried := blockCarriers_pos held serving
      omega
  refine ⟨owed, ?_⟩
  rintro ⟨instr, listed, alone⟩
  have single := kept.single read member instr
  rw [alone] at single
  have carried := controller.carriers_le_holding config read instr listed
  have forBlock := blockCarriers_le config controller read
  have answered : read.answers config ≤
      read.pushed.countP (fun response => decide (instr ∈ response.instrDependOnMe)) := by
    apply List.countP_mono_left
    intro response _pushed answers
    exact decide_eq_true ((of_decide_eq_true answers).2 instr listed)
  omega

def readsOf (requests : List Request) : List ControllerStep :=
  [.beginPhase false, .queues [{ rqSize := 4, pqSize := 4, wqSize := 4, rq := requests }], .operate]

def twoChannels (steps : List ControllerStep) : Option MemoryController :=
  (machine eightBanks).run (make eightBanks.addressMapping
    [{ rqSize := 4, pqSize := 4, wqSize := 4 }] 4 4) steps

/-- Two reads of one block are merged, and each is carried by the entry that is left. -/
theorem run_reads_merged :
    ∃ controller, twoChannels (readsOf [{ address := 0x1000, instrDependOnMe := [7] },
        { address := 0x1008, instrDependOnMe := [8] }]) = some controller ∧
      ∃ read ∈ controller.ledger,
        read.answers eightBanks + controller.carriers eightBanks read = 1 := by
  have taken : (twoChannels (readsOf [{ address := 0x1000, instrDependOnMe := [7] },
      { address := 0x1008, instrDependOnMe := [8] }])).any (fun controller =>
        controller.ledger.any (fun read => read.request.responseRequested &&
          decide (read.request.instrDependOnMe = [7]) &&
            decide (controller.listing 7 = 1))) = true := by
    decide +kernel
  obtain ⟨controller, ran, holds⟩ := (Option.any_eq_true _ _).mp taken
  obtain ⟨read, member, facts⟩ := List.any_eq_true.mp holds
  rw [Bool.and_eq_true, Bool.and_eq_true, decide_eq_true_eq, decide_eq_true_eq] at facts
  obtain ⟨⟨asked, ids⟩, alone⟩ := facts
  have own : 7 ∈ read.request.instrDependOnMe := by
    rw [ids]
    exact List.mem_singleton.mpr rfl
  exact ⟨controller, ran, read, member,
    (run_reads eightBanks _ 4 4 _ controller ran read member asked).2 ⟨7, own, alone⟩⟩

/-- Two reads of one instruction are carried by two entries of their channel. -/
theorem twoReads_not_carriedOnce :
    ¬ ∀ steps controller, twoChannels steps = some controller →
      ∀ read ∈ controller.ledger, read.request.responseRequested = true →
        (∃ response ∈ read.pushed,
          ∀ id ∈ read.request.instrDependOnMe, id ∈ response.instrDependOnMe) ∨
        controller.carriers eightBanks read = 1 := by
  intro once
  have twice : (twoChannels (readsOf [{ address := 0x1000, instrDependOnMe := [7] },
      { address := 0x2000, instrDependOnMe := [7] }])).any (fun controller =>
        controller.ledger.any (fun read => read.request.responseRequested &&
          read.pushed.isEmpty && decide (controller.carriers eightBanks read = 2))) = true := by
    decide +kernel
  obtain ⟨controller, ran, holds⟩ := (Option.any_eq_true _ _).mp twice
  obtain ⟨read, member, facts⟩ := List.any_eq_true.mp holds
  rw [Bool.and_eq_true, Bool.and_eq_true, decide_eq_true_eq] at facts
  obtain ⟨⟨asked, unanswered⟩, carried⟩ := facts
  rcases once _ controller ran read member asked with ⟨response, pushed, _ids⟩ | single
  · rw [List.isEmpty_iff.mp unanswered] at pushed
    cases pushed
  · rw [carried] at single
    cases single

end MemoryController

end ChampSim.Dram
