/-
The stages of one cycle of a DRAM channel.

A bank is let go by the data bus or by a change of the mode, may begin or end a
refresh, may be put on the data bus, and may take a packet, in this order. In
all of these states the banks and their packets are linked.
-/

import ChampSim.Dram.SlotRuns

set_option autoImplicit false

namespace ChampSim.Dram

open Outcome (Ends bind_ok)

/-- The states of a channel between the stages of a cycle. -/
structure Cycle where
  prepared : DramChannel
  finished : DramChannel
  swapped : DramChannel
  refreshed : DramChannel
  populated : DramChannel
  serviced : DramChannel

namespace DramChannel

variable (config : DramConfig)

/-- `service_packet(schedule_packet())`. -/
def serviceScheduled (channel : DramChannel) : Except Fault DramChannel := do
  let pkt ← schedulePacket config channel
  servicePacket config channel pkt

def cycle (channel : DramChannel) : Except Fault Cycle := do
  let prepared := prepare config channel
  let finished ← finishDbusRequest prepared
  let swapped ← swapWriteMode config finished.1
  let refreshed := scheduleRefresh config swapped
  let populated ← populateDbus config refreshed
  let serviced ← serviceScheduled config populated
  return { prepared, finished := finished.1, swapped, refreshed, populated, serviced }

/-- The stages are those of `operate`. -/
theorem operate_eq_cycle (channel : DramChannel) :
    (operate config channel).map Prod.fst = (cycle config channel).map Cycle.serviced := by
  unfold operate cycle serviceScheduled prepare
  dsimp only
  cases finishDbusRequest _ with
  | error fault => rfl
  | ok finished =>
      simp only [bind, Except.bind]
      cases swapWriteMode config finished.1 with
      | error fault => rfl
      | ok swapped =>
          dsimp only
          cases populateDbus config (scheduleRefresh config swapped) with
          | error fault => rfl
          | ok populated =>
              dsimp only
              cases schedulePacket config populated with
              | error fault => rfl
              | ok pkt =>
                  dsimp only
                  cases servicePacket config populated pkt with
                  | error fault => rfl
                  | ok serviced => rfl

/-- Each stage takes the state that the one before it left. -/
structure Stages (config : DramConfig) (channel : DramChannel) (stages : Cycle) : Prop where
  prepared : stages.prepared = prepare config channel
  finished : stages.prepared.finishDbusRequest.map Prod.fst = .ok stages.finished
  swapped : swapWriteMode config stages.finished = .ok stages.swapped
  refreshed : stages.refreshed = scheduleRefresh config stages.swapped
  populated : populateDbus config stages.refreshed = .ok stages.populated
  serviced : serviceScheduled config stages.populated = .ok stages.serviced

theorem cycle_stages {channel : DramChannel} {stages : Cycle}
    (ran : cycle config channel = .ok stages) : Stages config channel stages := by
  unfold cycle at ran
  obtain ⟨finished, finishes, ran⟩ := bind_ok ran
  obtain ⟨swapped, swaps, ran⟩ := bind_ok ran
  obtain ⟨populated, populates, ran⟩ := bind_ok ran
  obtain ⟨serviced, services, ran⟩ := bind_ok ran
  cases ran
  exact ⟨rfl, by rw [finishes]; rfl, swaps, rfl, populates, services⟩

end DramChannel

end ChampSim.Dram
