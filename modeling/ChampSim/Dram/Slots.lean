/-
The banks of a channel and the packets that they work on.

A bank that is busy points to a scheduled packet of that bank, and each
scheduled packet has a bank that points to it. A packet has one bank, so no two
banks point to the same packet.
-/

import ChampSim.Dram.Bijection
import ChampSim.Dram.Channel

set_option autoImplicit false

namespace ChampSim.Dram

open Outcome (Ends need)

/-! ### The bank of an address -/

namespace AddressMapping

variable {mapping : AddressMapping}

theorem returns_of_settled {accessor : Nat → Option (Except SliceError Nat)} {value : Nat}
    (ended : mapping.settled accessor = some value) : Returns accessor value := by
  unfold AddressMapping.settled at ended
  split at ended
  case h_1 result ran =>
    cases ended
    exact ⟨_, ran⟩
  case h_2 => cases ended

theorem swizzle_settled (narrow : mapping.addressSlicer.bitSize ≤ 64) (address : Address)
    (segmentSize segmentOffset field fieldBits : Nat) (positive : 0 < segmentSize) :
    mapping.settled (fun fuel =>
        mapping.swizzleBits fuel address segmentSize segmentOffset field fieldBits) =
      some (field ^^^ rowMask (mapping.rowSlice narrow (mapping.addressSlicer.raw address).row
        (raw_row_fits _ address)) segmentSize segmentOffset fieldBits) := by
  have ends := (rowMask_spec (mapping.rowSlice narrow (mapping.addressSlicer.raw address).row
    (raw_row_fits _ address)) segmentSize segmentOffset fieldBits positive).2 field
  rw [← mapping.swizzleBits_eq narrow] at ends
  unfold AddressMapping.settled
  dsimp only
  rw [show mapping.addressSlicer.row.upper + 1 = (mapping.rowSlice narrow
    (mapping.addressSlicer.raw address).row (raw_row_fits _ address)).extent.upper + 1 from rfl,
    ends]

private theorem index_lt {high low highs lows : Nat} (inHigh : high < highs) (inLow : low < lows) :
    high * lows + low < highs * lows := by
  have next : (high + 1) * lows ≤ highs * lows := Nat.mul_le_mul_right lows inHigh
  rw [Nat.succ_mul] at next
  omega

/-- A mapping that settles gives every address a row and a bank within the banks. -/
theorem Settles.bankRequestIndex (settles : mapping.Settles) (address : Address) :
    (∃ row, mapping.getRow address = .ok row) ∧
    (∃ bankgroup, mapping.bankgroupRequestIndex address = some bankgroup ∧
      bankgroup < mapping.ranks * mapping.bankgroups) ∧
    ∃ bank, mapping.bankRequestIndex address = some bank ∧
      bank < mapping.ranks * mapping.banks * mapping.bankgroups := by
  obtain ⟨_isChannel, isBankgroup, isBank, _isOffset, _isColumn, isRank, isRow⟩ :=
    mapping.accessors_eq settles.narrow address
  have rankFits : (mapping.addressSlicer.raw address).rank < mapping.ranks :=
    (Nat.mod_lt _ (Nat.two_pow_pos _)).trans_eq (Nat.one_shiftLeft _).symm
  have bankgroup := swizzle_settled settles.narrow address mapping.segmentBits 0
    (mapping.addressSlicer.raw address).bankgroup mapping.addressSlicer.bankgroup.size
    settles.several
  have bank := swizzle_settled settles.narrow address mapping.segmentBits
    mapping.addressSlicer.bankgroup.size (mapping.addressSlicer.raw address).bank
    mapping.addressSlicer.bank.size settles.several
  simp only [← isBankgroup] at bankgroup
  simp only [← isBank] at bank
  have fits := mapping.masked_fits settles.narrow settles.several _ (raw_row_fits _ address) _
    (mapping.addressSlicer.raw_fits address)
  unfold BitFields.Fits Slicer.widths Coordinates.fields at fits
  simp only [List.forall₂_cons, List.Forall₂.nil, and_true] at fits
  have bankgroupFits := fits.2.2.1.trans_eq (Nat.one_shiftLeft _).symm
  have bankFits := fits.2.2.2.1.trans_eq (Nat.one_shiftLeft _).symm
  have bankgroupIndex := index_lt rankFits bankgroupFits
  have bankIndex := index_lt bankgroupIndex bankFits
  refine ⟨⟨_, isRow⟩, ⟨_, ?_, bankgroupIndex⟩, _, ?_, bankIndex.trans_eq ?_⟩
  · unfold bankgroupRequestIndex
    rw [isRank, bankgroup]
    rfl
  · unfold AddressMapping.bankRequestIndex bankgroupRequestIndex
    rw [bank, isRank, bankgroup]
    rfl
  · exact Nat.mul_right_comm _ _ _

theorem settles_of_bankRequestIndex {address : Address} {bank : Nat}
    (index : mapping.bankRequestIndex address = some bank) : mapping.Settles := by
  unfold bankRequestIndex at index
  split at index
  case h_1 opBank bankgroup ran _bankgroup => exact settles_of_getBank (returns_of_settled ran)
  case h_2 => cases index

def Unbanked (mapping : AddressMapping) (fault : Fault) : Prop :=
  fault = .noBank ∧ ¬ mapping.Settles

theorem need_bank (mapping : AddressMapping) (address : Address) :
    Ends mapping.Unbanked (need .noBank (mapping.bankRequestIndex address))
      (fun bank => mapping.Settles ∧ mapping.bankRequestIndex address = some bank ∧
        bank < mapping.ranks * mapping.banks * mapping.bankgroups) := by
  cases index : mapping.bankRequestIndex address with
  | none =>
      refine ⟨rfl, ?_⟩
      intro settles
      obtain ⟨_row, _bankgroup, bank, present, _small⟩ := settles.bankRequestIndex address
      rw [index] at present
      cases present
  | some bank =>
      have settles := settles_of_bankRequestIndex index
      obtain ⟨_row, _bankgroup, other, present, small⟩ := settles.bankRequestIndex address
      have same : bank = other := Option.some.inj (index.symm.trans present)
      rw [← same] at small
      exact ⟨settles, rfl, small⟩

end AddressMapping

/-! ### Claims of packets and pointers of banks -/

def claimOf (entry : Option DramRequest) : Option Address :=
  entry.bind (fun packet => if packet.scheduled then some packet.address else none)

/-- A scheduled packet was checked before, and is not ready for another bank. -/
def DramRequest.Orderly (entry : DramRequest) : Prop :=
  entry.scheduled = true → entry.forwardChecked = true ∧ entry.readyTime = none

theorem entryAt_set (queue : RequestQueue) (index other : Nat) (entry : Option DramRequest) :
    entryAt (queue.set index entry) other =
      if index = other ∧ index < queue.length then entry else entryAt queue other := by
  unfold entryAt
  rw [List.getElem?_set]
  by_cases same : index = other
  · subst same
    by_cases within : index < queue.length
    · rw [if_pos rfl, if_pos within, if_pos ⟨rfl, within⟩]
      rfl
    · rw [if_pos rfl, if_neg within, if_neg (fun both => within both.2),
        List.getElem?_eq_none (Nat.le_of_not_lt within)]
  · rw [if_neg same, if_neg (fun both => same both.1)]

theorem entryAt_lt {queue : RequestQueue} {index : Nat} {entry : DramRequest}
    (present : entryAt queue index = some entry) : index < queue.length := by
  unfold entryAt at present
  exact (List.getElem?_eq_some_iff.mp (Option.join_eq_some_iff.mp present)).1

namespace DramChannel

variable {mapping : AddressMapping} {channel next : DramChannel}

def claimed (channel : DramChannel) (place : Side × Nat) : Option Address :=
  claimOf (channel.packetAt place)

def pointed (channel : DramChannel) (bank : Nat) : Option (Option (Side × Nat)) :=
  channel.bankRequest[bank]?.bind (fun slot => if slot.valid then some slot.pkt else none)

section Store

variable (place : Side × Nat) (entry : Option DramRequest)

@[simp] theorem store_bankRequest :
    (channel.store place entry).bankRequest = channel.bankRequest := by
  obtain ⟨side, index⟩ := place
  cases side <;> rfl

@[simp] theorem store_bankgroupReadytime :
    (channel.store place entry).bankgroupReadytime = channel.bankgroupReadytime := by
  obtain ⟨side, index⟩ := place
  cases side <;> rfl

@[simp] theorem store_activeRequest :
    (channel.store place entry).activeRequest = channel.activeRequest := by
  obtain ⟨side, index⟩ := place
  cases side <;> rfl

@[simp] theorem store_warmup : (channel.store place entry).warmup = channel.warmup := by
  obtain ⟨side, index⟩ := place
  cases side <;> rfl

end Store

theorem packetAt_store (channel : DramChannel) (place other : Side × Nat)
    (entry : Option DramRequest) :
    (channel.store place entry).packetAt other =
      if place = other ∧ place.2 < (channel.queue place.1).length then entry
      else channel.packetAt other := by
  obtain ⟨side, index⟩ := place
  obtain ⟨sideToo, indexToo⟩ := other
  cases side <;> cases sideToo <;>
    simp [store, setQueue, packetAt, queue, entryAt_set]

theorem packetAt_of_store {place other : Side × Nat} {entry : Option DramRequest}
    {packet : DramRequest} (placed : (channel.store place entry).packetAt other = some packet) :
    entry = some packet ∨ channel.packetAt other = some packet := by
  rw [packetAt_store] at placed
  split at placed
  case isTrue => exact Or.inl placed
  case isFalse => exact Or.inr placed

theorem claimed_store (place : Side × Nat) (entry : Option DramRequest)
    (same : claimOf entry = channel.claimed place) (other : Side × Nat) :
    (channel.store place entry).claimed other = channel.claimed other := by
  unfold claimed
  rw [packetAt_store]
  split
  case isTrue here =>
    rw [← here.1]
    exact same
  case isFalse => rfl

theorem claimed_of_store (place other : Side × Nat) (entry : Option DramRequest)
    {old : DramRequest} (present : channel.packetAt place = some old) :
    (channel.store place entry).claimed other =
      if other = place then claimOf entry else channel.claimed other := by
  have within : place.2 < (channel.queue place.1).length := entryAt_lt present
  unfold claimed
  rw [packetAt_store]
  by_cases same : other = place
  · rw [if_pos ⟨same.symm, within⟩, if_pos same]
  · rw [if_neg (fun both => same both.1.symm), if_neg same]

theorem pointed_some {bank : Nat} {slot : BankRequest}
    (present : channel.bankRequest[bank]? = some slot) :
    channel.pointed bank = if slot.valid then some slot.pkt else none := by
  unfold pointed
  rw [present]
  rfl

theorem slot_of_pointed {bank : Nat} {pkt : Option (Side × Nat)}
    (points : channel.pointed bank = some pkt) :
    ∃ slot, channel.bankRequest[bank]? = some slot ∧ slot.valid = true ∧ slot.pkt = pkt := by
  obtain ⟨slot, present, busy⟩ := Option.bind_eq_some_iff.mp points
  split at busy
  case isTrue isValid =>
    cases busy
    exact ⟨slot, present, isValid, rfl⟩
  case isFalse => cases busy

theorem pointed_of_set {bank : Nat} {slot : BankRequest} (within : bank < channel.bankRequest.length)
    (written : next.bankRequest = channel.bankRequest.set bank slot) (other : Nat) :
    next.pointed other =
      if other = bank then (if slot.valid then some slot.pkt else none)
      else channel.pointed other := by
  by_cases same : other = bank
  · rw [if_pos same, same]
    apply pointed_some
    rw [written, List.getElem?_set_self within]
  · rw [if_neg same]
    unfold pointed
    rw [written, List.getElem?_set_ne (fun equal => same equal.symm)]

theorem packet_of_claimed {place : Side × Nat} {address : Address}
    (claim : channel.claimed place = some address) :
    ∃ packet, channel.packetAt place = some packet ∧ packet.scheduled = true ∧
      packet.address = address := by
  obtain ⟨packet, present, scheduled⟩ := Option.bind_eq_some_iff.mp claim
  split at scheduled
  case isTrue isScheduled =>
    cases scheduled
    exact ⟨packet, present, isScheduled, rfl⟩
  case isFalse => cases scheduled

structure Linked (mapping : AddressMapping) (channel : DramChannel) : Prop where
  banks : channel.bankRequest.length = mapping.ranks * mapping.banks * mapping.bankgroups
  bankgroups : channel.bankgroupReadytime.length = mapping.ranks * mapping.bankgroups
  slot : ∀ bank pkt, channel.pointed bank = some pkt → ∃ place address, pkt = some place ∧
    channel.claimed place = some address ∧ mapping.bankRequestIndex address = some bank
  entry : ∀ place address, channel.claimed place = some address →
    ∃ bank, channel.pointed bank = some (some place)
  active : ∀ bank, channel.activeRequest = some bank → (channel.pointed bank).isSome = true
  orderly : ∀ place entry, channel.packetAt place = some entry → entry.Orderly

namespace Linked

theorem bank_of_pointed (linked : Linked mapping channel) {bank : Nat} {place : Side × Nat}
    {address : Address} (points : channel.pointed bank = some (some place))
    (claims : channel.claimed place = some address) :
    mapping.bankRequestIndex address = some bank := by
  obtain ⟨other, addressToo, same, claimsToo, index⟩ := linked.slot bank _ points
  cases same
  rw [claims] at claimsToo
  cases claimsToo
  exact index

theorem pointed_unique (linked : Linked mapping channel) {bank other : Nat} {place : Side × Nat}
    (points : channel.pointed bank = some (some place))
    (pointsToo : channel.pointed other = some (some place)) : bank = other := by
  obtain ⟨_place, address, same, claims, _index⟩ := linked.slot bank _ points
  cases same
  have index := linked.bank_of_pointed points claims
  have indexToo := linked.bank_of_pointed pointsToo claims
  exact Option.some.inj (index.symm.trans indexToo)

theorem quiet (linked : Linked mapping channel)
    (banks : next.bankRequest.length = channel.bankRequest.length)
    (bankgroups : next.bankgroupReadytime.length = channel.bankgroupReadytime.length)
    (pointers : ∀ bank, next.pointed bank = channel.pointed bank)
    (claims : ∀ place, next.claimed place = channel.claimed place)
    (active : ∀ bank, next.activeRequest = some bank → (channel.pointed bank).isSome = true)
    (orderly : ∀ place entry, next.packetAt place = some entry → entry.Orderly) :
    Linked mapping next := by
  refine ⟨banks.trans linked.banks, bankgroups.trans linked.bankgroups, ?_, ?_, ?_, orderly⟩
  · intro bank pkt points
    rw [pointers] at points
    obtain ⟨place, address, same, claim, index⟩ := linked.slot bank pkt points
    exact ⟨place, address, same, (claims place).trans claim, index⟩
  · intro place address claim
    rw [claims] at claim
    obtain ⟨bank, points⟩ := linked.entry place address claim
    exact ⟨bank, (pointers bank).trans points⟩
  · intro bank isActive
    rw [pointers]
    exact active bank isActive

theorem release (linked : Linked mapping channel) (bank : Nat) (place : Side × Nat)
    (points : channel.pointed bank = some (some place))
    (banks : next.bankRequest.length = channel.bankRequest.length)
    (bankgroups : next.bankgroupReadytime = channel.bankgroupReadytime)
    (pointers : ∀ other, next.pointed other = if other = bank then none else channel.pointed other)
    (claims : ∀ other, next.claimed other = if other = place then none else channel.claimed other)
    (active : ∀ other, next.activeRequest = some other →
      other ≠ bank ∧ channel.activeRequest = some other)
    (orderly : ∀ place entry, next.packetAt place = some entry → entry.Orderly) :
    Linked mapping next := by
  refine ⟨banks.trans linked.banks, (congrArg List.length bankgroups).trans linked.bankgroups,
    ?_, ?_, ?_, orderly⟩
  · intro other pkt pointsToo
    rw [pointers] at pointsToo
    split at pointsToo
    case isTrue => cases pointsToo
    case isFalse differs =>
      obtain ⟨target, address, same, claim, index⟩ := linked.slot other pkt pointsToo
      refine ⟨target, address, same, ?_, index⟩
      rw [claims, if_neg ?_]
      · exact claim
      · intro isPlace
        rw [same, isPlace] at pointsToo
        exact differs (linked.pointed_unique pointsToo points)
  · intro other address claim
    rw [claims] at claim
    split at claim
    case isTrue => cases claim
    case isFalse differs =>
      obtain ⟨bankToo, pointsToo⟩ := linked.entry other address claim
      refine ⟨bankToo, ?_⟩
      rw [pointers, if_neg ?_]
      · exact pointsToo
      · intro isBank
        rw [isBank, points] at pointsToo
        exact differs (Option.some.inj (Option.some.inj pointsToo)).symm
  · intro other isActive
    obtain ⟨differs, wasActive⟩ := active other isActive
    rw [pointers, if_neg differs]
    exact linked.active other wasActive

/-- An idle bank and a waiting packet of that bank take hold of each other. -/
theorem engage (linked : Linked mapping channel) (bank : Nat) (place : Side × Nat)
    (address : Address) (idle : channel.pointed bank = none) (waits : channel.claimed place = none)
    (index : mapping.bankRequestIndex address = some bank)
    (banks : next.bankRequest.length = channel.bankRequest.length)
    (bankgroups : next.bankgroupReadytime = channel.bankgroupReadytime)
    (pointers : ∀ other, next.pointed other =
      if other = bank then some (some place) else channel.pointed other)
    (claims : ∀ other, next.claimed other =
      if other = place then some address else channel.claimed other)
    (active : next.activeRequest = channel.activeRequest)
    (orderly : ∀ place entry, next.packetAt place = some entry → entry.Orderly) :
    Linked mapping next := by
  refine ⟨banks.trans linked.banks, (congrArg List.length bankgroups).trans linked.bankgroups,
    ?_, ?_, ?_, orderly⟩
  · intro other pkt points
    rw [pointers] at points
    split at points
    case isTrue isBank =>
      refine ⟨place, address, (Option.some.inj points).symm, ?_, ?_⟩
      · rw [claims, if_pos rfl]
      · rw [isBank]
        exact index
    case isFalse =>
      obtain ⟨target, addressToo, same, claim, indexToo⟩ := linked.slot other pkt points
      refine ⟨target, addressToo, same, ?_, indexToo⟩
      rw [claims, if_neg ?_]
      · exact claim
      · intro isPlace
        rw [isPlace, waits] at claim
        cases claim
  · intro other addressToo claim
    rw [claims] at claim
    split at claim
    case isTrue isPlace =>
      refine ⟨bank, ?_⟩
      rw [pointers, if_pos rfl, isPlace]
    case isFalse =>
      obtain ⟨bankToo, points⟩ := linked.entry other addressToo claim
      refine ⟨bankToo, ?_⟩
      rw [pointers, if_neg ?_]
      · exact points
      · intro isBank
        rw [isBank, idle] at points
        cases points
  · intro other isActive
    rw [active] at isActive
    have wasBusy := linked.active other isActive
    rw [pointers]
    split
    case isTrue => rfl
    case isFalse => exact wasBusy

end Linked

end DramChannel

end ChampSim.Dram
