/-
A cycle of a channel hands the reads over.

The data bus answers one entry. The mode swap, a refresh and the scheduler
change when an entry is worked on, and nothing that it holds.
-/

import ChampSim.Dram.ReadHolders

set_option autoImplicit false

namespace ChampSim.Dram

open Outcome (Ends ends_anything need_value)

namespace DramChannel

variable {mapping : AddressMapping} {number : Nat} {channel : DramChannel}

theorem finishDbusRequest_serves (plain : Plain channel) :
    Ends (fun _ => True) channel.finishDbusRequest (Serves mapping number channel) := by
  have idle : Serves mapping number channel (channel, []) := (sameReads_refl channel).serves plain
  unfold finishDbusRequest
  split
  case h_1 => exact idle
  case h_2 index _isActive =>
    apply (ends_anything _).bind
    intro active _trivial
    split
    case isTrue =>
      apply (ends_anything _).bind
      intro place _trivialToo
      apply (need_value trivial _).bind
      intro entry present
      obtain ⟨side, index⟩ := place
      cases side with
      | wq =>
          have silent := plain.of_packetAt present
          refine ⟨⟨plain.reads, ?_⟩, ?_⟩
          · intro other member
            rcases List.mem_or_eq_of_mem_set member with before | written
            · exact plain.writes other before
            · cases written
          · unfold DramRequest.pushes
            rw [silent]
            exact Delivers.same rfl
      | rq =>
          refine ⟨⟨?_, plain.writes⟩, ?_⟩
          · exact Increases.set plain.reads index none (by simp)
          · exact Delivers.answer number entry.data (Increases.entryAt plain.reads present)
              (held_remove mapping number present)
    case isFalse => exact idle

variable (config : DramConfig)

theorem cancel_same (index : Nat) :
    Ends (fun _ => True) (cancel config channel index) (SameReads channel) := by
  unfold cancel
  apply (ends_anything _).bind
  intro slot _trivial
  split
  case isTrue =>
    apply (ends_anything _).bind
    intro place _trivialToo
    apply (need_value trivial _).bind
    intro entry present
    obtain ⟨rq, wq⟩ := sameReads_store present
      (show ({ entry with scheduled := false, readyTime := some channel.currentTime } :
        DramRequest).shape = entry.shape from rfl)
    exact ⟨rq, wq⟩
  case isFalse => exact sameReads_refl channel

theorem swapWriteMode_same (channel : DramChannel) :
    Ends (fun _ => True) (swapWriteMode config channel) (SameReads channel) := by
  unfold swapWriteMode
  dsimp only
  split
  case isTrue =>
    apply (Outcome.foldlM_ends (cancel config) (SameReads channel)
      (List.range channel.bankRequest.length) ?_ channel (sameReads_refl channel)).bind
    · intro cancelled same
      apply (ends_anything _).bind
      intro free _trivial
      exact ⟨same.rq, same.wq⟩
    · intro cancelled index _member same
      apply (cancel_same config index).mono
      intro next more
      exact same.trans more
  case isFalse => exact sameReads_refl channel

theorem scheduleRefresh_same (channel : DramChannel) :
    SameReads channel (scheduleRefresh config channel) := by
  unfold scheduleRefresh
  dsimp only
  split <;> exact ⟨rfl, rfl⟩

theorem populateDbus_same (channel : DramChannel) :
    Ends (fun _ => True) (populateDbus config channel) (SameReads channel) := by
  unfold populateDbus
  apply (ends_anything _).bind
  intro found _trivial
  apply (ends_anything _).bind
  intro next _trivialNext
  split
  case isTrue =>
    apply (ends_anything _).bind
    intro place _trivialPlace
    apply (ends_anything _).bind
    intro entry _trivialEntry
    apply (ends_anything _).bind
    intro opBankgroup _trivialGroup
    apply (ends_anything _).bind
    intro bankgroupReady _trivialReady
    exact ⟨rfl, rfl⟩
  case isFalse => exact sameReads_refl channel

theorem servicePacket_same (channel : DramChannel) (pkt : Option (Side × Nat)) :
    Ends (fun _ => True) (servicePacket config channel pkt) (SameReads channel) := by
  unfold servicePacket
  split
  case h_1 => exact sameReads_refl channel
  case h_2 place entry isPlace =>
    obtain ⟨_place, _isPkt, mapped⟩ := Option.bind_eq_some_iff.mp isPlace
    obtain ⟨_entry, present, same⟩ := Option.map_eq_some_iff.mp mapped
    cases same
    split
    case isTrue =>
      apply (ends_anything _).bind
      intro opRow _trivialRow
      apply (ends_anything _).bind
      intro opIdx _trivialIdx
      apply (ends_anything _).bind
      intro slot _trivialSlot
      split
      case isTrue =>
        obtain ⟨rq, wq⟩ := sameReads_store present
          (show ({ entry with scheduled := true, readyTime := none } : DramRequest).shape =
            entry.shape from rfl)
        exact ⟨rq, wq⟩
      case isFalse => exact sameReads_refl channel
    case isFalse => exact sameReads_refl channel

theorem screen_serves (mapping : AddressMapping) (number : Nat) (plain : Plain channel) :
    let flushed := if channel.warmup then channel.flush else (channel, [])
    let read := checkReadCollision mapping (checkWriteCollision mapping flushed.1)
    Serves mapping number channel (read.1, flushed.2 ++ read.2) := by
  dsimp only
  have flushed : Serves mapping number channel
      (if channel.warmup then channel.flush else (channel, [])) := by
    split
    case isTrue => exact flush_serves plain
    case isFalse => exact (sameReads_refl channel).serves plain
  revert flushed
  generalize (if channel.warmup then channel.flush else (channel, [])) = begun
  intro flushed
  have written : Serves mapping number begun.1 (checkWriteCollision mapping begun.1, []) :=
    checkWriteCollision_serves flushed.1
  have read : Serves mapping number (checkWriteCollision mapping begun.1)
      (checkReadCollision mapping (checkWriteCollision mapping begun.1)) :=
    checkReadCollision_serves written.1
  have all := (flushed.trans written).trans read
  rw [List.append_nil] at all
  exact all

theorem operate_serves (number : Nat) (plain : Plain channel) :
    Ends (fun _ => True) (channel.operate config)
      (Serves config.addressMapping number channel) := by
  have begun : SameReads channel
      { channel with currentTime := channel.currentTime + config.clockPeriod } := ⟨rfl, rfl⟩
  have screened := screen_serves config.addressMapping number (begun.plain plain)
  unfold operate
  apply (finishDbusRequest_serves screened.1).bind
  intro finished answered
  apply (swapWriteMode_same config finished.1).bind
  intro swapped sameSwapped
  apply (populateDbus_same config (scheduleRefresh config swapped)).bind
  intro populated samePopulated
  apply (ends_anything _).bind
  intro pkt _trivial
  apply (servicePacket_same config populated pkt).bind
  intro serviced sameServiced
  have same := ((sameSwapped.trans (scheduleRefresh_same config swapped)).trans
    samePopulated).trans sameServiced
  have all := (screened.trans answered).trans (same.serves answered.1)
  rw [List.append_nil] at all
  exact all

end DramChannel

end ChampSim.Dram
