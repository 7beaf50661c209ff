/-
The choice of the next packet of a DRAM channel, and whether its bank takes it.

The scheduler prefers packets of banks that are not busy, then old packets,
then those at the back of the queue. It does not look at refreshes, so a packet
for a bank under refresh may be chosen, which no bank takes in that cycle.
-/

import ChampSim.Dram.Cycle
import Mathlib.Data.Prod.Lex
import Mathlib.Order.BoundedOrder.Lattice
import Mathlib.Order.WithBot

set_option autoImplicit false

namespace ChampSim.Dram

open Outcome (need need_some)
open Scan (Found LastLeast minElement)

/-- `ready_time`, with the maximum as the top. -/
def DramRequest.ready (entry : DramRequest) : WithTop Nat :=
  match entry.readyTime with
  | some time => WithTop.some time
  | none => ⊤

theorem DramRequest.readyBefore_eq (lhs rhs : DramRequest) :
    lhs.readyBefore rhs = decide (lhs.ready ≤ rhs.ready) := by
  unfold readyBefore ready
  cases lhs.readyTime with
  | none =>
      cases rhs.readyTime with
      | none => exact (decide_eq_true (le_refl _)).symm
      | some right => exact (decide_eq_false (not_le_of_gt (WithTop.coe_lt_top right))).symm
  | some left =>
      cases rhs.readyTime with
      | none => exact (decide_eq_true le_top).symm
      | some right => exact decide_eq_decide.mpr WithTop.coe_le_coe.symm

theorem DramRequest.readyAt_eq (entry : DramRequest) (time : Nat) :
    entry.readyAt time = decide (entry.ready ≤ WithTop.some time) := by
  unfold readyAt ready
  cases entry.readyTime with
  | none => exact (decide_eq_false (not_le_of_gt (WithTop.coe_lt_top time))).symm
  | some ready => exact decide_eq_decide.mpr WithTop.coe_le_coe.symm

namespace DramChannel

variable (config : DramConfig)

/-! ### What the scheduler looks at -/

def side (channel : DramChannel) : Side := if channel.writeMode then .wq else .rq

def bankOf (channel : DramChannel) (entry : DramRequest) : Option BankRequest :=
  (config.addressMapping.bankRequestIndex entry.address).bind
    (fun index => channel.bankRequest[index]?)

/-- A packet of the queue of the current mode that is not scheduled, and its bank. -/
structure Waits (channel : DramChannel) (index : Nat) (packet : DramRequest)
    (bank : BankRequest) : Prop where
  placed : channel.packetAt (channel.side, index) = some packet
  unscheduled : packet.scheduled = false
  bank : bankOf config channel packet = some bank

structure Eligible (channel : DramChannel) (index : Nat) (packet : DramRequest) : Prop where
  placed : channel.packetAt (channel.side, index) = some packet
  unscheduled : packet.scheduled = false
  due : packet.readyAt channel.currentTime = true
  idle : ∃ bank, bankOf config channel packet = some bank ∧ bank.valid = false ∧
    bank.underRefresh = false

/-- Some bank that worked on nothing works on a packet after. -/
def Accepts (channel next : DramChannel) : Prop :=
  ∃ (index : Nat) (before after : BankRequest), channel.bankRequest[index]? = some before ∧
    before.valid = false ∧ next.bankRequest[index]? = some after ∧ after.valid = true

/-- Not scheduled first, then banks that are not busy, then the oldest. -/
def scheduleKey (channel : DramChannel) (entry : Option DramRequest) :
    Bool ×ₗ Bool ×ₗ WithTop Nat :=
  match entry with
  | none => toLex (true, toLex (true, ⊤))
  | some packet =>
      if packet.scheduled then toLex (true, toLex (true, ⊤))
      else
        toLex (false, toLex ((bankOf config channel packet).all BankRequest.valid, packet.ready))

theorem key_le (left right : Bool) (low high : WithTop Nat) :
    (toLex (false, toLex (left, low)) : Bool ×ₗ Bool ×ₗ WithTop Nat) ≤
        toLex (false, toLex (right, high)) ↔
      (left = false ∧ right = true) ∨ (left = right ∧ low ≤ high) := by
  rw [Prod.Lex.toLex_le_toLex, Prod.Lex.toLex_le_toLex]
  cases left <;> cases right <;> simp

theorem not_key_le (left right : Bool ×ₗ WithTop Nat) :
    ¬(toLex (true, left) : Bool ×ₗ Bool ×ₗ WithTop Nat) ≤ toLex (false, right) := by
  rw [Prod.Lex.toLex_le_toLex]
  simp

variable {config} {channel : DramChannel}

/-- With as many banks as the mapping tells apart, every packet has a bank. -/
theorem bankOf_some (settles : config.addressMapping.Settles)
    (sized : channel.bankRequest.length = config.addressMapping.ranks *
      config.addressMapping.banks * config.addressMapping.bankgroups) (packet : DramRequest) :
    ∃ index bank, config.addressMapping.bankRequestIndex packet.address = some index ∧
      channel.bankRequest[index]? = some bank ∧ bankOf config channel packet = some bank := by
  obtain ⟨_row, _bankgroup, index, isIndex, small⟩ := settles.bankRequestIndex packet.address
  rw [← sized] at small
  have isBank := List.getElem?_eq_getElem small
  refine ⟨index, _, isIndex, isBank, ?_⟩
  unfold bankOf
  rw [isIndex]
  exact isBank

theorem bankBusy_eq {packet : DramRequest} {index : Nat} {bank : BankRequest}
    (isIndex : config.addressMapping.bankRequestIndex packet.address = some index)
    (isBank : channel.bankRequest[index]? = some bank) :
    bankBusy config channel packet.address = .ok bank.valid := by
  unfold bankBusy
  rw [isIndex, need_some]
  change (need Fault.outOfRange channel.bankRequest[index]? >>= fun slot => _) = _
  rw [isBank]
  rfl

theorem nextSchedule_eq (settles : config.addressMapping.Settles)
    (sized : channel.bankRequest.length = config.addressMapping.ranks *
      config.addressMapping.banks * config.addressMapping.bankgroups)
    (lhs rhs : Option DramRequest) :
    nextSchedule config channel lhs rhs =
      .ok (decide (scheduleKey config channel lhs ≤ scheduleKey config channel rhs)) := by
  have most : ∀ key : Bool ×ₗ Bool ×ₗ WithTop Nat, key ≤ toLex (true, toLex (true, ⊤)) := by
    intro key
    obtain ⟨first, second, time⟩ := key
    change toLex (first, toLex (second, time)) ≤ _
    rw [Prod.Lex.toLex_le_toLex, Prod.Lex.toLex_le_toLex]
    cases first <;> cases second <;> simp
  unfold nextSchedule
  cases rhs with
  | none => exact congrArg Except.ok (decide_eq_true (most _)).symm
  | some right =>
      cases rightScheduled : right.scheduled with
      | true =>
          unfold scheduleKey
          simp only [rightScheduled, if_true]
          exact congrArg Except.ok (decide_eq_true (most _)).symm
      | false =>
          cases lhs with
          | none =>
              unfold scheduleKey
              simp only [rightScheduled, Bool.false_eq_true, if_false]
              exact congrArg Except.ok (decide_eq_false (not_key_le _ _)).symm
          | some left =>
              cases leftScheduled : left.scheduled with
              | true =>
                  unfold scheduleKey
                  simp only [rightScheduled, leftScheduled, Bool.false_eq_true, if_false, if_true]
                  exact congrArg Except.ok (decide_eq_false (not_key_le _ _)).symm
              | false =>
                  obtain ⟨leftIndex, leftBank, isLeft, hasLeft, ofLeft⟩ :=
                    bankOf_some settles sized left
                  obtain ⟨rightIndex, rightBank, isRight, hasRight, ofRight⟩ :=
                    bankOf_some settles sized right
                  unfold scheduleKey
                  simp only [rightScheduled, leftScheduled, Bool.false_eq_true, if_false, key_le,
                    bankBusy_eq isLeft hasLeft, bankBusy_eq isRight hasRight, ofLeft, ofRight,
                    Option.all_some, left.readyBefore_eq right]
                  cases leftBank.valid <;> cases rightBank.valid <;> simp [bind, Except.bind, pure,
                    Except.pure]

/-! ### The chosen packet -/

/-- The packet that is chosen while some packet could be taken: its bank is not busy, and it is
the last of the oldest of all such packets. -/
structure Chosen (config : DramConfig) (channel : DramChannel) (index : Nat)
    (packet : DramRequest) (bank : BankRequest) : Prop where
  waits : Waits config channel index packet bank
  free : bank.valid = false
  due : packet.readyAt channel.currentTime = true
  oldest : ∀ other another otherBank, Waits config channel other another otherBank →
    otherBank.valid = false → packet.ready ≤ another.ready
  last : ∀ other another otherBank, Waits config channel other another otherBank →
    otherBank.valid = false → another.ready ≤ packet.ready → other ≤ index

theorem Waits.key {index : Nat} {packet : DramRequest} {bank : BankRequest}
    (waits : Waits config channel index packet bank) :
    scheduleKey config channel (some packet) =
      toLex (false, toLex (bank.valid, packet.ready)) := by
  unfold scheduleKey
  simp only [waits.unscheduled, waits.bank, Bool.false_eq_true, if_false, Option.all_some]

theorem placed_iff {index : Nat} {packet : DramRequest} :
    channel.packetAt (channel.side, index) = some packet ↔
      (channel.queue channel.side)[index]? = some (some packet) := by
  unfold packetAt entryAt
  exact Option.join_eq_some_iff

theorem Eligible.settles {index : Nat} {packet : DramRequest}
    (eligible : Eligible config channel index packet) : config.addressMapping.Settles := by
  obtain ⟨bank, isBank, _free⟩ := eligible.idle
  obtain ⟨place, isPlace, _bank⟩ := Option.bind_eq_some_iff.mp isBank
  exact AddressMapping.settles_of_bankRequestIndex isPlace

theorem schedulePacket_chosen
    (sized : channel.bankRequest.length = config.addressMapping.ranks *
      config.addressMapping.banks * config.addressMapping.bankgroups)
    {candidate : Nat} {taken : DramRequest} (eligible : Eligible config channel candidate taken) :
    ∃ index packet bank, Chosen config channel index packet bank ∧
      schedulePacket config channel = .ok (some (channel.side, index)) := by
  have settles := eligible.settles
  have present := placed_iff.mp eligible.placed
  have member := List.mem_of_getElem? present
  obtain ⟨idle, isIdle, idleFree, _calm⟩ := eligible.idle
  have wanted : Waits config channel candidate taken idle :=
    ⟨eligible.placed, eligible.unscheduled, isIdle⟩
  obtain ⟨found, ran, least⟩ := Scan.minElement_lastLeast (channel.queue channel.side)
    (List.ne_nil_of_mem member)
    (fun lhs _left rhs _right => nextSchedule_eq settles sized lhs rhs)
  have below := least.least _ member
  rw [wanted.key, idleFree] at below
  obtain ⟨packet, isPacket, unscheduled⟩ :
      ∃ packet, found.item = some packet ∧ packet.scheduled = false := by
    unfold scheduleKey at below
    split at below
    · exact absurd below (not_key_le _ _)
    · rename_i packet isPacket
      split at below
      · exact absurd below (not_key_le _ _)
      · rename_i waits
        exact ⟨packet, isPacket, Bool.not_eq_true _ ▸ waits⟩
  obtain ⟨_index, bank, _isIndex, _isBank, ofPacket⟩ := bankOf_some settles sized packet
  have waits : Waits config channel found.index packet bank :=
    ⟨placed_iff.mpr (isPacket ▸ least.placed), unscheduled, ofPacket⟩
  rw [isPacket, waits.key, key_le] at below
  have free : bank.valid = false ∧ packet.ready ≤ taken.ready := by
    rcases below with impossible | both
    · cases impossible.2
    · exact both
  refine ⟨found.index, packet, bank, ⟨waits, free.1, ?_, ?_, ?_⟩, ?_⟩
  · have due := eligible.due
    rw [DramRequest.readyAt_eq, decide_eq_true_eq] at due ⊢
    exact free.2.trans due
  · intro other another otherBank otherWaits otherFree
    have lower := least.least _ (List.mem_of_getElem? (placed_iff.mp otherWaits.placed))
    rw [isPacket, waits.key, otherWaits.key, free.1, otherFree, key_le] at lower
    rcases lower with impossible | both
    · cases impossible.2
    · exact both.2
  · intro other another otherBank otherWaits otherFree asOld
    apply least.last other _ (placed_iff.mp otherWaits.placed)
    rw [isPacket, waits.key, otherWaits.key, free.1, otherFree, key_le]
    exact Or.inr ⟨rfl, asOld⟩
  · unfold schedulePacket
    change (minElement (nextSchedule config channel) (channel.queue channel.side) >>= _) = _
    rw [ran]
    rfl

/-- The bank of the chosen packet takes it, unless it is under refresh. -/
theorem serviceScheduled_chosen {index : Nat} {packet : DramRequest} {bank : BankRequest}
    (chosen : Chosen config channel index packet bank)
    (ran : schedulePacket config channel = .ok (some (channel.side, index))) :
    (bank.underRefresh = true → serviceScheduled config channel = .ok channel) ∧
      (bank.underRefresh = false →
        ∃ next, serviceScheduled config channel = .ok next ∧ Accepts channel next) := by
  obtain ⟨opIdx, isIdx, isBank⟩ := Option.bind_eq_some_iff.mp chosen.waits.bank
  have settles := AddressMapping.settles_of_bankRequestIndex isIdx
  obtain ⟨⟨opRow, isRow⟩, _groups⟩ := settles.bankRequestIndex packet.address
  have within := (List.getElem?_eq_some_iff.mp isBank).1
  have serviced : serviceScheduled config channel =
      servicePacket config channel (some (channel.side, index)) := by
    unfold serviceScheduled
    rw [ran]
    rfl
  rw [serviced]
  unfold servicePacket
  simp only [Option.bind_some, chosen.waits.placed, Option.map_some, chosen.due, if_true, isRow,
    isIdx, isBank, need_some, Except.toOption, bind, Except.bind, chosen.free, Bool.not_false,
    Bool.true_and]
  constructor
  · intro refreshing
    rw [refreshing]
    rfl
  · intro calm
    rw [calm]
    exact ⟨_, rfl, opIdx, bank, _, isBank, chosen.free, List.getElem?_set_self within, rfl⟩

/-! ### When a packet is put into a bank -/

/-- Some packet that its bank could take goes before every waiting packet of a bank that is under
refresh: it is older, or as old and further back in the queue. -/
def Unblocked (config : DramConfig) (channel : DramChannel) : Prop :=
  ∃ index packet, Eligible config channel index packet ∧
    ∀ other refreshing bank, Waits config channel other refreshing bank →
      bank.valid = false → bank.underRefresh = true →
        packet.ready < refreshing.ready ∨ (packet.ready = refreshing.ready ∧ other < index)

/-- While some packet could be taken by its bank, some packet is put into a bank exactly when no
waiting packet of a bank under refresh goes before all of those packets. -/
theorem serviceScheduled_iff (config : DramConfig) (channel : DramChannel)
    (sized : channel.bankRequest.length = config.addressMapping.ranks *
      config.addressMapping.banks * config.addressMapping.bankgroups) :
    ((∃ index packet, Eligible config channel index packet) →
        ∃ next, serviceScheduled config channel = .ok next ∧ Accepts channel next) ↔
      ((∃ index packet, Eligible config channel index packet) → Unblocked config channel) := by
  constructor
  · intro progress takeable
    obtain ⟨candidate, taken, eligible⟩ := takeable
    obtain ⟨index, packet, bank, chosen, ran⟩ := schedulePacket_chosen sized eligible
    obtain ⟨blocks, _serves⟩ := serviceScheduled_chosen chosen ran
    obtain ⟨next, serviced, slot, before, after, isBefore, idle, isAfter, busy⟩ :=
      progress ⟨candidate, taken, eligible⟩
    have calm : bank.underRefresh = false := by
      cases refreshing : bank.underRefresh with
      | false => rfl
      | true =>
          rw [blocks refreshing, Except.ok.injEq] at serviced
          rw [← serviced, isBefore, Option.some.injEq] at isAfter
          rw [← isAfter, idle] at busy
          cases busy
    refine ⟨index, packet, ⟨chosen.waits.placed, chosen.waits.unscheduled, chosen.due,
      bank, chosen.waits.bank, chosen.free, calm⟩, ?_⟩
    intro other refreshing otherBank waits free refresh
    rcases lt_or_eq_of_le (chosen.oldest other refreshing otherBank waits free) with older | same
    · exact Or.inl older
    · refine Or.inr ⟨same, lt_of_le_of_ne (chosen.last other refreshing otherBank waits free
        same.ge) ?_⟩
      intro here
      subst here
      have samePacket := waits.placed.symm.trans chosen.waits.placed
      rw [Option.some.injEq] at samePacket
      subst samePacket
      have sameBank := waits.bank.symm.trans chosen.waits.bank
      rw [Option.some.injEq] at sameBank
      rw [sameBank, calm] at refresh
      cases refresh
  · intro unblocked some
    obtain ⟨first, preferred, eligible, goesFirst⟩ := unblocked some
    obtain ⟨index, packet, bank, chosen, ran⟩ := schedulePacket_chosen sized eligible
    obtain ⟨_blocks, serves⟩ := serviceScheduled_chosen chosen ran
    obtain ⟨idle, isIdle, idleFree, _calm⟩ := eligible.idle
    have wanted : Waits config channel first preferred idle :=
      ⟨eligible.placed, eligible.unscheduled, isIdle⟩
    apply serves
    cases refreshing : bank.underRefresh with
    | false => rfl
    | true =>
        have notLater := chosen.oldest first preferred idle wanted idleFree
        rcases goesFirst index packet bank chosen.waits chosen.free refreshing with older | behind
        · exact absurd older (not_lt_of_ge notLater)
        · have inFront := chosen.last first preferred idle wanted idleFree behind.1.le
          exact absurd behind.2 (not_lt_of_ge inFront)

/-! ### A packet of a bank under refresh -/

def eligibleAt (config : DramConfig) (channel : DramChannel) (index : Nat) : Bool :=
  (channel.packetAt (channel.side, index)).any fun packet =>
    !packet.scheduled && packet.readyAt channel.currentTime &&
      (bankOf config channel packet).any (fun bank => !bank.valid && !bank.underRefresh)

theorem eligibleAt_iff (index : Nat) :
    eligibleAt config channel index = true ↔ ∃ packet, Eligible config channel index packet := by
  unfold eligibleAt
  simp only [Option.any_eq_true_iff_get, Bool.and_eq_true, Bool.not_eq_true']
  constructor
  · rintro ⟨some, ⟨unscheduled, due⟩, isBank, idle⟩
    exact ⟨_, (Option.some_get some).symm, unscheduled, due, _, (Option.some_get isBank).symm, idle⟩
  · rintro ⟨packet, placed, unscheduled, due, bank, isBank, idle⟩
    refine ⟨Option.isSome_of_eq_some placed, ?_⟩
    simp only [placed, Option.get_some]
    exact ⟨⟨unscheduled, due⟩, Option.isSome_of_eq_some isBank, by
      simp only [isBank, Option.get_some]
      exact idle⟩

def oneWaits : DramChannel :=
  { make eightBanks.addressMapping 4 4 with rq := [some { readyTime := some 0 }, none, none, none] }

theorem serviceScheduled_iff_oneWaits :
    (∃ index packet, Eligible eightBanks oneWaits index packet) ∧
      (((∃ index packet, Eligible eightBanks oneWaits index packet) →
          ∃ next, serviceScheduled eightBanks oneWaits = .ok next ∧ Accepts oneWaits next) ↔
        ((∃ index packet, Eligible eightBanks oneWaits index packet) →
          Unblocked eightBanks oneWaits)) :=
  ⟨⟨0, (eligibleAt_iff 0).mp (by decide +kernel)⟩,
    serviceScheduled_iff eightBanks oneWaits List.length_replicate⟩

def refreshingBanks : DramConfig := { eightBanks with tREF := 6, tRFC := 3 }

/-- The first bank works at the tick, so that it is refreshed after the others. An older packet
for it and a packet for the second bank wait when its refresh begins. -/
def lateRefresh : List ChannelStep :=
  [.beginPhase false] ++ List.replicate 4 .operate ++ [.addRq { address := 0x1000 } 0 4] ++
    List.replicate 4 .operate ++ [.addRq { address := 0x20100 } 0 8, .operate,
      .addRq { address := 0x21000 } 0 9]

/-- A packet whose bank could take it waits behind one whose bank is under refresh. -/
theorem serviceScheduled_lateRefresh :
    ∃ channel stages,
      (machine refreshingBanks).run (make refreshingBanks.addressMapping 4 4) lateRefresh =
        some channel ∧
      cycle refreshingBanks channel = .ok stages ∧
      (∃ index packet, Eligible refreshingBanks stages.populated index packet) ∧
      ¬∃ next, serviceScheduled refreshingBanks stages.populated = .ok next ∧
        Accepts stages.populated next := by
  have ran : (((machine refreshingBanks).run (make refreshingBanks.addressMapping 4 4)
      lateRefresh).bind (fun channel => ((cycle refreshingBanks channel).toOption.map
        (fun stages => (eligibleAt refreshingBanks stages.populated 2,
          decide (stages.serviced = stages.populated)))))) = some (true, true) := by
    decide +kernel
  obtain ⟨channel, reached, cycled⟩ := Option.bind_eq_some_iff.mp ran
  obtain ⟨stages, operated, both⟩ := Option.map_eq_some_iff.mp cycled
  obtain ⟨eligible, unchanged⟩ := Prod.mk.inj both
  have isCycle : cycle refreshingBanks channel = .ok stages := by
    cases outcome : cycle refreshingBanks channel with
    | error fault =>
        rw [outcome] at operated
        cases operated
    | ok result =>
        rw [outcome] at operated
        cases operated
        rfl
  refine ⟨channel, stages, reached, isCycle, ⟨2, (eligibleAt_iff 2).mp eligible⟩, ?_⟩
  rintro ⟨next, serviced, index, before, after, isBefore, idle, isAfter, busy⟩
  have services := (cycle_stages refreshingBanks isCycle).serviced
  rw [services, of_decide_eq_true unchanged, Except.ok.injEq] at serviced
  rw [← serviced, isBefore, Option.some.injEq] at isAfter
  rw [← isAfter, idle] at busy
  cases busy

end DramChannel

end ChampSim.Dram
