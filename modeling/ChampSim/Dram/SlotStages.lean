/-
Every later stage of a channel's cycle keeps the banks and the packets linked.

The data bus and the mode swap release banks, and the scheduler engages one. A
stage fails only where a mapping gives no bank.
-/

import ChampSim.Dram.SlotCollisions

set_option autoImplicit false

namespace ChampSim.Dram

open Outcome (Ends need need_some)

namespace DramChannel

variable {mapping : AddressMapping} {channel next : DramChannel}

/-! ### The data bus and the mode swap -/

theorem Linked.held (linked : Linked mapping channel) {bank : Nat} {slot : BankRequest}
    (present : channel.bankRequest[bank]? = some slot) (valid : slot.valid = true) :
    ∃ place packet, slot.pkt = some place ∧ channel.packetAt place = some packet ∧
      channel.pointed bank = some (some place) ∧
      mapping.bankRequestIndex packet.address = some bank := by
  have points : channel.pointed bank = some slot.pkt := by
    rw [pointed_some present, if_pos valid]
  obtain ⟨place, address, same, claim, index⟩ := linked.slot bank slot.pkt points
  obtain ⟨packet, isPacket, _scheduled, isAddress⟩ := packet_of_claimed claim
  rw [same] at points
  rw [← isAddress] at index
  exact ⟨place, packet, same, isPacket, points, index⟩

/-- A bank and its packet let go of each other, and the packet stays checked or leaves. -/
theorem Screened.letGo (screened : Screened mapping channel) {bank : Nat} {place : Side × Nat}
    {old : DramRequest} (points : channel.pointed bank = some (some place))
    (present : channel.packetAt place = some old) (entry : Option DramRequest)
    (waits : ∀ packet, entry = some packet →
      packet.scheduled = false ∧ packet.forwardChecked = old.forwardChecked)
    (slot : BankRequest) (idle : slot.valid = false) (active : Option Nat)
    (kept : ∀ other, active = some other → other ≠ bank ∧ channel.activeRequest = some other) :
    Screened mapping
      { channel.store place entry with
        bankRequest := channel.bankRequest.set bank slot
        activeRequest := active } := by
  have unclaimed : claimOf entry = none := by
    cases entry with
    | none => rfl
    | some packet =>
        apply if_neg
        intro scheduled
        rw [(waits packet rfl).1] at scheduled
        cases scheduled
  have orderly : ∀ packet, entry = some packet → packet.Orderly := by
    intro packet same scheduled
    rw [(waits packet same).1] at scheduled
    cases scheduled
  refine ⟨screened.toWorking.letGo points present entry unclaimed orderly slot idle active kept, ?_⟩
  intro other packet placed
  rcases packetAt_of_store (placed : (channel.store place entry).packetAt other = some packet)
    with written | before
  · exact (waits packet written).2.trans (screened.checked place old present)
  · exact screened.checked other packet before

theorem Screened.quiet (screened : Screened mapping channel)
    (banks : next.bankRequest.length = channel.bankRequest.length)
    (bankgroups : next.bankgroupReadytime.length = channel.bankgroupReadytime.length)
    (pointers : ∀ bank, next.pointed bank = channel.pointed bank)
    (packets : ∀ place, next.packetAt place = channel.packetAt place)
    (active : ∀ bank, next.activeRequest = some bank → (channel.pointed bank).isSome = true)
    (warmup : next.warmup = channel.warmup) : Screened mapping next := by
  refine ⟨⟨screened.linked.quiet banks bankgroups pointers ?_ active ?_, ?_⟩, ?_⟩
  · intro place
    unfold claimed
    rw [packets]
  · intro place packet placed
    rw [packets] at placed
    exact screened.linked.orderly place packet placed
  · intro warm place
    rw [warmup] at warm
    exact (packets place).trans (screened.empty warm place)
  · intro place packet placed
    rw [packets] at placed
    exact screened.checked place packet placed

theorem finishDbusRequest_ends (screened : Screened mapping channel) :
    Ends mapping.Unbanked channel.finishDbusRequest
      (fun finished => Screened mapping finished.1) := by
  unfold finishDbusRequest
  split
  case h_1 => exact screened
  case h_2 index isActive =>
      obtain ⟨pkt, points⟩ := Option.isSome_iff_exists.mp (screened.linked.active index isActive)
      obtain ⟨slot, isSlot, valid, _isPkt⟩ := slot_of_pointed points
      obtain ⟨place, packet, isPlace, isPacket, pointsThere, _index⟩ :=
        screened.linked.held isSlot valid
      rw [isSlot, need_some]
      simp only [bind, Except.bind]
      split
      case isTrue =>
        rw [isPlace, need_some]
        simp only [isPacket, need_some]
        exact screened.letGo pointsThere isPacket none (by simp) _ rfl none (by simp)
      case isFalse => exact screened

variable (config : DramConfig)

theorem cancel_ends (index : Nat) (within : index < channel.bankRequest.length)
    (screened : Screened mapping channel) :
    Ends mapping.Unbanked (cancel config channel index)
      (fun cancelled => Screened mapping cancelled) := by
  have isSlot := List.getElem?_eq_getElem within
  unfold cancel
  rw [isSlot, need_some]
  simp only [bind, Except.bind]
  split
  case isTrue away =>
    obtain ⟨place, packet, isPlace, isPacket, pointsThere, _index⟩ :=
      screened.linked.held isSlot away.2
    rw [isPlace, need_some]
    simp only [isPacket, need_some]
    rw [store_activeRequest]
    refine screened.letGo pointsThere isPacket _ ?_ _ ?_ channel.activeRequest ?_
    · intro freed same
      cases same
      exact ⟨rfl, rfl⟩
    · rfl
    · intro other isActive
      exact ⟨fun same => away.1 (isActive.trans (congrArg some same)), isActive⟩
  case isFalse => exact screened

theorem swapWriteMode_ends (screened : Screened mapping channel) :
    Ends mapping.Unbanked (swapWriteMode config channel)
      (fun swapped => Screened mapping swapped) := by
  unfold swapWriteMode
  dsimp only
  split
  case isTrue =>
    have cancels : Ends mapping.Unbanked
        ((List.range channel.bankRequest.length).foldlM (cancel config) channel)
        (Screened mapping) := by
      apply Outcome.foldlM_ends (cancel config) (Screened mapping) _ ?_ channel screened
      intro cancelled index member stillScreened
      refine cancel_ends config index ?_ stillScreened
      have sized := stillScreened.linked.banks.trans screened.linked.banks.symm
      rw [sized]
      exact List.mem_range.mp member
    apply cancels.bind
    intro cancelled stillScreened
    have frees : Ends mapping.Unbanked cancelled.busFree (fun _free => True) := by
      unfold busFree
      split
      case h_1 index isActive =>
          obtain ⟨pkt, points⟩ :=
            Option.isSome_iff_exists.mp (stillScreened.linked.active index isActive)
          obtain ⟨slot, isSlot, _valid, _isPkt⟩ := slot_of_pointed points
          rw [isSlot, need_some]
          trivial
      case h_2 => trivial
    apply frees.bind
    intro free _ended
    exact stillScreened.quiet rfl rfl (fun _bank => rfl) (fun _place => rfl)
      stillScreened.linked.active rfl
  case isFalse => exact screened

/-! ### Refreshes and the data bus -/

theorem refreshBank_points (now : Nat) (refresh : Bool) (slot : BankRequest) :
    (refreshBank config now refresh slot).valid = slot.valid ∧
      (refreshBank config now refresh slot).pkt = slot.pkt := by
  unfold refreshBank
  cases refresh with
  | true =>
      simp only [if_true]
      split
      case isTrue => exact ⟨rfl, rfl⟩
      case isFalse => split <;> exact ⟨rfl, rfl⟩
  | false =>
      simp only [Bool.false_eq_true, if_false]
      split
      case isTrue => exact ⟨rfl, rfl⟩
      case isFalse => split <;> exact ⟨rfl, rfl⟩

theorem scheduleRefresh_screened (screened : Screened mapping channel) :
    Screened mapping (scheduleRefresh config channel) := by
  have points : ∀ (now : Nat) (refresh : Bool) (bank : Nat),
      (channel.bankRequest.map (refreshBank config now refresh))[bank]?.bind
        (fun slot => if slot.valid then some slot.pkt else none) = channel.pointed bank := by
    intro now refresh bank
    unfold pointed
    rw [List.getElem?_map]
    cases channel.bankRequest[bank]? with
    | none => rfl
    | some slot =>
        obtain ⟨valid, pkt⟩ := refreshBank_points config now refresh slot
        simp only [Option.map_some, Option.bind_some, valid, pkt]
  unfold scheduleRefresh
  dsimp only
  split
  case isTrue =>
    exact screened.quiet (List.length_map _) rfl (points _ _) (fun _place => rfl)
      screened.linked.active rfl
  case isFalse =>
    exact screened.quiet (List.length_map _) rfl (points _ _) (fun _place => rfl)
      screened.linked.active rfl

theorem Linked.banks_positive (linked : Linked mapping channel) : channel.bankRequest ≠ [] := by
  intro noBanks
  have sized := linked.banks
  rw [noBanks] at sized
  have positive : 0 < mapping.ranks * mapping.banks * mapping.bankgroups := by
    unfold AddressMapping.ranks AddressMapping.banks AddressMapping.bankgroups
    simp only [Nat.one_shiftLeft]
    exact Nat.mul_pos (Nat.mul_pos (Nat.two_pow_pos _) (Nat.two_pow_pos _)) (Nat.two_pow_pos _)
  exact absurd sized.symm (Nat.ne_of_gt positive)

theorem populateDbus_ends (screened : Screened config.addressMapping channel) :
    Ends config.addressMapping.Unbanked (populateDbus config channel)
      (fun populated => Screened config.addressMapping populated) := by
  unfold populateDbus
  have compared : ∀ lhs ∈ channel.bankRequest, ∀ rhs ∈ channel.bankRequest,
      Ends config.addressMapping.Unbanked (nextProcess lhs rhs) (fun _less => True) := by
    intro lhs _isLeft rhs _isRight
    trivial
  apply (Scan.minElement_ends channel.bankRequest compared).bind
  intro found ⟨noneFound, someFound⟩
  cases found with
  | none => exact absurd (noneFound rfl) screened.linked.banks_positive
  | some least =>
      have isSlot := someFound least rfl
      rw [need_some]
      simp only [bind, Except.bind]
      split
      case isTrue ready =>
        simp only [Bool.and_eq_true] at ready
        have valid := ready.1.1.1
        obtain ⟨place, packet, isPlace, isPacket, pointsThere, index⟩ :=
          screened.linked.held isSlot valid
        have settles := AddressMapping.settles_of_bankRequestIndex index
        obtain ⟨_row, ⟨bankgroup, isBankgroup, small⟩, _bank⟩ :=
          settles.bankRequestIndex packet.address
        rw [← screened.linked.bankgroups] at small
        have isReady := List.getElem?_eq_getElem small
        rw [isPlace, need_some]
        simp only [isPacket, need_some, isBankgroup, isReady]
        have within : least.index < channel.bankRequest.length :=
          (List.getElem?_eq_some_iff.mp isSlot).1
        refine screened.quiet List.length_set List.length_set ?_ (fun _place => rfl) ?_ rfl
        · intro bank
          rw [pointed_of_set within rfl]
          split
          case isTrue same =>
            rw [same, pointed_some isSlot, if_pos valid, isPlace]
          case isFalse => rfl
        · intro bank isActive
          cases isActive
          rw [pointsThere]
          rfl
      case isFalse => exact screened

/-! ### The scheduler -/

theorem bankBusy_ends (linked : Linked config.addressMapping channel) (address : Address) :
    Ends config.addressMapping.Unbanked (bankBusy config channel address) (fun _busy => True) := by
  unfold bankBusy
  apply (AddressMapping.need_bank config.addressMapping address).bind
  intro bank ⟨_settles, _index, small⟩
  rw [← linked.banks] at small
  rw [List.getElem?_eq_getElem small, need_some]
  trivial

theorem nextSchedule_ends (linked : Linked config.addressMapping channel)
    (lhs rhs : Option DramRequest) :
    Ends config.addressMapping.Unbanked (nextSchedule config channel lhs rhs)
      (fun _less => True) := by
  unfold nextSchedule
  cases rhs with
  | none => trivial
  | some right =>
      dsimp only
      split
      case isTrue => trivial
      case isFalse =>
        cases lhs with
        | none => trivial
        | some left =>
            dsimp only
            split
            case isTrue => trivial
            case isFalse =>
              apply (bankBusy_ends config linked left.address).bind
              intro leftBusy _ended
              apply (bankBusy_ends config linked right.address).bind
              intro rightBusy _endedToo
              trivial

theorem schedulePacket_ends (linked : Linked config.addressMapping channel) :
    Ends config.addressMapping.Unbanked (schedulePacket config channel) (fun _pkt => True) := by
  unfold schedulePacket
  apply (Scan.minElement_ends _
    (fun lhs _isLeft rhs _isRight => nextSchedule_ends config linked lhs rhs)).bind
  intro found _found
  trivial

theorem servicePacket_ends (screened : Screened config.addressMapping channel)
    (pkt : Option (Side × Nat)) :
    Ends config.addressMapping.Unbanked (servicePacket config channel pkt)
      (fun serviced => Screened config.addressMapping serviced) := by
  unfold servicePacket
  split
  case h_1 => exact screened
  case h_2 place packet isPlace =>
      obtain ⟨_place, _isPkt, mapped⟩ := Option.bind_eq_some_iff.mp isPlace
      obtain ⟨_packet, isPacket, same⟩ := Option.map_eq_some_iff.mp mapped
      cases same
      split
      case isTrue ready =>
        have rowed : Ends config.addressMapping.Unbanked
            (need .noBank (config.addressMapping.getRow packet.address).toOption)
            (fun _row => True) := by
          cases isRow : config.addressMapping.getRow packet.address with
          | ok row => trivial
          | error failure =>
              refine ⟨rfl, ?_⟩
              intro settles
              obtain ⟨⟨row, present⟩, _banks⟩ := settles.bankRequestIndex packet.address
              rw [isRow] at present
              cases present
        apply rowed.bind
        intro row _rowed
        apply (AddressMapping.need_bank config.addressMapping packet.address).bind
        intro bank ⟨_settles, index, small⟩
        rw [← screened.linked.banks] at small
        have isSlot := List.getElem?_eq_getElem small
        rw [isSlot, need_some]
        simp only [bind, Except.bind]
        split
        case isTrue free =>
          rw [Bool.and_eq_true, Bool.not_eq_true', Bool.not_eq_true'] at free
          have idle : channel.pointed bank = none := by
            rw [pointed_some isSlot, free.1]
            rfl
          have waits : channel.claimed place = none := by
            unfold claimed
            rw [isPacket]
            apply if_neg
            intro scheduled
            have unready := (screened.linked.orderly place packet isPacket scheduled).2
            unfold DramRequest.readyAt at ready
            rw [unready] at ready
            cases ready
          have checked := screened.checked place packet isPacket
          refine ⟨⟨screened.linked.engage bank place packet.address idle waits index
            List.length_set (store_bankgroupReadytime place _) ?_
            (fun other => claimed_of_store place other _ isPacket) (store_activeRequest place _)
            ?_, ?_⟩, ?_⟩
          · intro other
            rw [pointed_of_set small rfl]
            rfl
          · intro other another placed
            rcases packetAt_of_store (placed : (channel.store place _).packetAt other = some another)
              with written | before
            · cases written
              intro _scheduled
              exact ⟨checked, rfl⟩
            · exact screened.linked.orderly other another before
          · intro warm
            have wasWarm : (channel.store place _).warmup = true := warm
            rw [store_warmup] at wasWarm
            exact absurd wasWarm (screened.not_warmup isPacket)
          · intro other another placed
            rcases packetAt_of_store (placed : (channel.store place _).packetAt other = some another)
              with written | before
            · cases written
              exact checked
            · exact screened.checked other another before
        case isFalse => exact screened
      case isFalse => exact screened

end DramChannel

end ChampSim.Dram
