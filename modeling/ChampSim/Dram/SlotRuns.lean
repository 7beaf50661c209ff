/-
Runs of a DRAM channel: packets join its queues, the channel operates, and
phases begin.

Warmup may end, but does not come back. A cycle then starts with banks and
packets that are linked, and ends so.
-/

import ChampSim.Dram.SlotStages
import ChampSim.Library.Transition

set_option autoImplicit false

namespace ChampSim.Dram

open Cache (Request)
open Outcome (Ends)
open Transition (Machine)

inductive ChannelStep where
  | addRq (packet : Request) (level currentTime : Nat)
  | addWq (packet : Request) (currentTime : Nat)
  | operate
  | beginPhase (warmup : Bool)
deriving DecidableEq, Repr

namespace DramChannel

variable {config : DramConfig} {mapping : AddressMapping} {channel next : DramChannel}

/-- A packet that a full queue refuses leaves the channel as it was. -/
def machine (config : DramConfig) : Machine DramChannel ChannelStep where
  step channel
    | .addRq packet level currentTime => some ((channel.addRq packet level currentTime).getD channel)
    | .addWq packet currentTime => some ((channel.addWq packet currentTime).getD channel)
    | .operate => (channel.operate config).toOption.map Prod.fst
    | .beginPhase warmup =>
        if warmup && !channel.warmup then none else some { channel with warmup }

theorem addTo_spec {queue joined : RequestQueue} {entry : DramRequest}
    (accepted : addTo queue entry = some joined) :
    ∃ index, entryAt queue index = none ∧ joined = queue.set index (some entry) := by
  obtain ⟨empty, search, same⟩ := Option.map_eq_some_iff.mp accepted
  obtain ⟨placed, isEmpty⟩ := Scan.findIf_some _ _ _ search
  rw [Option.isNone_iff_eq_none] at isEmpty
  rw [isEmpty] at placed
  refine ⟨empty.index, ?_, same.symm⟩
  unfold entryAt
  rw [placed]
  rfl

theorem Rested.join (rested : Rested mapping channel) (place : Side × Nat) (entry : DramRequest)
    (vacant : channel.packetAt place = none) (waits : entry.scheduled = false) :
    Rested mapping (channel.store place (some entry)) := by
  have unclaimed : claimOf (some entry) = channel.claimed place := by
    unfold claimed
    rw [vacant]
    apply if_neg
    rw [waits]
    exact Bool.false_ne_true
  refine ⟨rested.linked.store place _ unclaimed ?_, ?_⟩
  · intro packet same scheduled
    cases same
    rw [waits] at scheduled
    cases scheduled
  · intro warm other
    rw [store_warmup] at warm
    rw [claimed_store place _ unclaimed other]
    exact rested.waits warm other

theorem addRq_rested (rested : Rested mapping channel) (packet : Request)
    (level currentTime : Nat) :
    Rested mapping ((channel.addRq packet level currentTime).getD channel) := by
  cases accepted : channel.addRq packet level currentTime with
  | none => exact rested
  | some next =>
      obtain ⟨rq, joined, same⟩ := Option.map_eq_some_iff.mp accepted
      obtain ⟨index, vacant, isJoined⟩ := addTo_spec joined
      rw [← same, isJoined]
      exact rested.join (.rq, index) _ vacant rfl

theorem addWq_rested (rested : Rested mapping channel) (packet : Request) (currentTime : Nat) :
    Rested mapping ((channel.addWq packet currentTime).getD channel) := by
  cases accepted : channel.addWq packet currentTime with
  | none => exact rested
  | some next =>
      obtain ⟨wq, joined, same⟩ := Option.map_eq_some_iff.mp accepted
      obtain ⟨index, vacant, isJoined⟩ := addTo_spec joined
      rw [← same, isJoined]
      exact rested.join (.wq, index) _ vacant rfl

/-- The clock, the flush of a warmup and the collisions, which leave the banks alone. -/
def prepare (config : DramConfig) (channel : DramChannel) : DramChannel :=
  let begun := { channel with currentTime := channel.currentTime + config.clockPeriod }
  let flushed := if begun.warmup then begun.flush else (begun, [])
  (checkReadCollision config.addressMapping
    (checkWriteCollision config.addressMapping flushed.1)).1

theorem prepare_screened (rested : Rested config.addressMapping channel) :
    Screened config.addressMapping (prepare config channel) := by
  have begun : Rested config.addressMapping
      { channel with currentTime := channel.currentTime + config.clockPeriod } :=
    ⟨rested.linked.quiet rfl rfl (fun _bank => rfl) (fun _place => rfl) rested.linked.active
      rested.linked.orderly, rested.waits⟩
  have working : Working config.addressMapping
      (if ({ channel with currentTime := channel.currentTime + config.clockPeriod }).warmup then
        ({ channel with currentTime := channel.currentTime + config.clockPeriod }).flush
        else ({ channel with currentTime := channel.currentTime + config.clockPeriod }, [])).1 := by
    split
    · rename_i warm
      exact flush_working begun warm
    · rename_i cold
      exact ⟨begun.linked, fun warm => absurd warm cold⟩
  obtain ⟨written, writes⟩ := checkWriteCollision_working working
  exact checkReadCollision_screened written writes

/-- A cycle keeps the banks and the packets linked, and fails only where there are no banks. -/
theorem operate_ends (rested : Rested config.addressMapping channel) :
    Ends config.addressMapping.Unbanked (channel.operate config)
      (fun operated => Rested config.addressMapping operated.1) := by
  have screened := prepare_screened rested
  unfold operate
  apply (finishDbusRequest_ends screened).bind
  intro finished finishedScreened
  apply (swapWriteMode_ends config finishedScreened).bind
  intro swapped swappedScreened
  apply (populateDbus_ends config (scheduleRefresh_screened config swappedScreened)).bind
  intro populated populatedScreened
  apply (schedulePacket_ends config populatedScreened.linked).bind
  intro pkt _scheduled
  apply (servicePacket_ends config populatedScreened pkt).bind
  intro serviced servicedScreened
  exact servicedScreened.toWorking.rested

theorem make_rested (mapping : AddressMapping) (rqSize wqSize : Nat) :
    Rested mapping (make mapping rqSize wqSize) := by
  have vacant : ∀ place, (make mapping rqSize wqSize).packetAt place = none := by
    intro place
    obtain ⟨side, index⟩ := place
    have replicated : ∀ size, entryAt (List.replicate size none) index = none := by
      intro size
      unfold entryAt
      rw [List.getElem?_replicate]
      split <;> rfl
    cases side with
    | wq => exact replicated wqSize
    | rq => exact replicated rqSize
  have idle : ∀ bank, (make mapping rqSize wqSize).pointed bank = none := by
    intro bank
    unfold pointed make
    dsimp only
    rw [List.getElem?_replicate]
    split <;> rfl
  have unclaimed : ∀ place, (make mapping rqSize wqSize).claimed place = none := by
    intro place
    unfold claimed
    rw [vacant]
    rfl
  refine ⟨⟨List.length_replicate, List.length_replicate, ?_, ?_, ?_, ?_⟩, fun _warm => unclaimed⟩
  · intro bank pkt points
    rw [idle] at points
    cases points
  · intro place address claim
    rw [unclaimed] at claim
    cases claim
  · intro bank isActive
    cases isActive
  · intro place entry present
    rw [vacant] at present
    cases present

theorem step_rested (rested : Rested config.addressMapping channel) (label : ChannelStep)
    (stepped : (machine config).step channel label = some next) :
    Rested config.addressMapping next := by
  cases label with
  | addRq packet level currentTime =>
      cases stepped
      exact addRq_rested rested packet level currentTime
  | addWq packet currentTime =>
      cases stepped
      exact addWq_rested rested packet currentTime
  | operate =>
      have ends := operate_ends rested
      obtain ⟨operated, ran, same⟩ := Option.map_eq_some_iff.mp stepped
      cases outcome : channel.operate config with
      | error fault =>
          rw [outcome] at ran
          cases ran
      | ok result =>
          rw [outcome] at ran ends
          cases ran
          rw [← same]
          exact ends
  | beginPhase warmup =>
      change (if _ then none else some { channel with warmup }) = some next at stepped
      split at stepped
      case isTrue => cases stepped
      case isFalse allowed =>
        cases stepped
        refine ⟨rested.linked.quiet rfl rfl (fun _bank => rfl) (fun _place => rfl)
          rested.linked.active rested.linked.orderly, ?_⟩
        intro warm place
        apply rested.waits
        have isWarm : warmup = true := warm
        rw [isWarm, Bool.true_and, Bool.not_eq_true, Bool.not_eq_false'] at allowed
        exact allowed

theorem run_rested (rqSize wqSize : Nat) (steps : List ChannelStep)
    (ran : (machine config).run (make config.addressMapping rqSize wqSize) steps = some channel) :
    Rested config.addressMapping channel :=
  (machine config).run_invariant (Rested config.addressMapping)
    (fun _channel label _next rested stepped => step_rested rested label stepped) steps _ channel
    (make_rested config.addressMapping rqSize wqSize) ran

/-! ### What the links say -/

def WorksOn (channel : DramChannel) (bank : Nat) (place : Side × Nat) : Prop :=
  ∃ slot, channel.bankRequest[bank]? = some slot ∧ slot.valid = true ∧ slot.pkt = some place

structure Consistent (mapping : AddressMapping) (channel : DramChannel) : Prop where
  slot : ∀ bank slot, channel.bankRequest[bank]? = some slot → slot.valid = true →
    ∃ place packet, slot.pkt = some place ∧ channel.packetAt place = some packet ∧
      packet.scheduled = true ∧ mapping.bankRequestIndex packet.address = some bank
  entry : ∀ place packet, channel.packetAt place = some packet → packet.scheduled = true →
    ∃! bank, channel.WorksOn bank place
  active : ∀ bank, channel.activeRequest = some bank →
    ∃ slot, channel.bankRequest[bank]? = some slot ∧ slot.valid = true

theorem worksOn_iff (bank : Nat) (place : Side × Nat) :
    channel.WorksOn bank place ↔ channel.pointed bank = some (some place) := by
  constructor
  · rintro ⟨slot, present, valid, isPlace⟩
    rw [pointed_some present, if_pos valid, isPlace]
  · exact slot_of_pointed

theorem Linked.consistent (linked : Linked mapping channel) : Consistent mapping channel := by
  refine ⟨?_, ?_, ?_⟩
  · intro bank slot present valid
    have points : channel.pointed bank = some slot.pkt := by
      rw [pointed_some present, if_pos valid]
    obtain ⟨place, address, isPlace, claim, index⟩ := linked.slot bank slot.pkt points
    obtain ⟨packet, isPacket, scheduled, isAddress⟩ := packet_of_claimed claim
    rw [← isAddress] at index
    exact ⟨place, packet, isPlace, isPacket, scheduled, index⟩
  · intro place packet isPacket scheduled
    have claim : channel.claimed place = some packet.address := by
      unfold claimed
      rw [isPacket]
      exact if_pos scheduled
    obtain ⟨bank, points⟩ := linked.entry place packet.address claim
    refine ⟨bank, (worksOn_iff bank place).mpr points, ?_⟩
    intro other works
    exact linked.pointed_unique ((worksOn_iff other place).mp works) points
  · intro bank isActive
    obtain ⟨pkt, points⟩ := Option.isSome_iff_exists.mp (linked.active bank isActive)
    obtain ⟨slot, present, valid, _isPkt⟩ := slot_of_pointed points
    exact ⟨slot, present, valid⟩

/-- In every reachable state, busy banks and scheduled packets point at each other, and an
operation fails only if the mapping gives no bank. -/
theorem run_consistent (config : DramConfig) (rqSize wqSize : Nat) (steps : List ChannelStep)
    (channel : DramChannel)
    (ran : (machine config).run (make config.addressMapping rqSize wqSize) steps = some channel) :
    Consistent config.addressMapping channel ∧
      ∀ fault, channel.operate config = .error fault →
        fault = .noBank ∧ ¬ config.addressMapping.Settles := by
  have rested := run_rested rqSize wqSize steps ran
  refine ⟨rested.linked.consistent, ?_⟩
  intro fault failed
  have ends := operate_ends rested
  rw [failed] at ends
  exact ends

/-- A channel of two ranks, each of two bankgroups of two banks. -/
def eightBanks : DramConfig where
  addressMapping := ⟨⟨6, 1, 1, 1, 4, 1, 10⟩, 8⟩
  clockPeriod := 1
  tRP := 2
  tRCD := 2
  tCAS := 2
  tREF := 100
  tRFC := 10
  dbusTurnAroundTime := 3
  dbusReturnTime := 1
  dbusBankgroupStall := 1
  rowsPerRefresh := 8

/-- Two reads of one block and a read of another one: two packets on two banks. -/
theorem run_consistent_eightBanks :
    ∃ channel, (machine eightBanks).run (make eightBanks.addressMapping 4 4)
        [.beginPhase false, .addRq { address := 0x1000 } 0 0, .addRq { address := 0x1008 } 0 0,
          .addRq { address := 0x20000 } 0 0, .operate, .operate] = some channel ∧
      channel.bankRequest.countP BankRequest.valid = 2 ∧
      Consistent eightBanks.addressMapping channel := by
  have ran : ((machine eightBanks).run (make eightBanks.addressMapping 4 4)
      [.beginPhase false, .addRq { address := 0x1000 } 0 0, .addRq { address := 0x1008 } 0 0,
        .addRq { address := 0x20000 } 0 0, .operate, .operate]).map
      (fun channel => channel.bankRequest.countP BankRequest.valid) = some 2 := by
    decide +kernel
  obtain ⟨channel, reached, busy⟩ := Option.map_eq_some_iff.mp ran
  exact ⟨channel, reached, busy, (run_consistent eightBanks 4 4 _ channel reached).1⟩

end DramChannel

end ChampSim.Dram
