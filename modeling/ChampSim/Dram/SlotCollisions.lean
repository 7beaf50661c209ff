/-
The flush of warmup and the collision checks keep the banks and the packets
linked.

In warmup nothing is scheduled, because the queues are empty after the flush. A
collision check only drops packets that no bank points to, and every packet
that it leaves is checked.
-/

import ChampSim.Dram.Slots

set_option autoImplicit false

namespace ChampSim.Dram

open Cache (Response)

/-! ### What the searches find -/

namespace AddressMapping

variable {mapping : AddressMapping}

theorem checker_some {address : Address} {entry : Option DramRequest}
    (collides : mapping.checker address entry = true) :
    ∃ packet, entry = some packet ∧ mapping.isCollision packet.address address = true := by
  cases entry with
  | none => cases collides
  | some packet => exact ⟨packet, rfl, collides⟩

theorem findOther_spec {queue : RequestQueue} {index found : Nat} {address : Address}
    (search : mapping.findOther queue index address = some found) :
    ∃ other, entryAt queue found = some other ∧
      mapping.isCollision other.address address = true ∧ found ≠ index := by
  unfold findOther at search
  split at search
  case h_1 below isBelow =>
    cases search
    obtain ⟨placed, collides⟩ := Scan.findIf_some _ _ _ isBelow
    obtain ⟨other, isOther, sameBlock⟩ := checker_some collides
    obtain ⟨within, _value⟩ := List.getElem?_eq_some_iff.mp placed
    rw [List.length_take] at within
    rw [List.getElem?_take_of_lt (by omega), isOther] at placed
    refine ⟨other, ?_, sameBlock, by omega⟩
    unfold entryAt
    rw [placed]
    rfl
  case h_2 =>
    obtain ⟨above, isAbove, same⟩ := Option.map_eq_some_iff.mp search
    cases same
    obtain ⟨placed, collides⟩ := Scan.findIf_some _ _ _ isAbove
    obtain ⟨other, isOther, sameBlock⟩ := checker_some collides
    rw [List.getElem?_drop, isOther] at placed
    refine ⟨other, ?_, sameBlock, by omega⟩
    unfold entryAt
    rw [placed]
    rfl

end AddressMapping

theorem modify_eq_set {queue : RequestQueue} {index : Nat} {entry : DramRequest}
    (present : entryAt queue index = some entry) (change : DramRequest → DramRequest) :
    queue.modify index (Option.map change) = queue.set index (some (change entry)) := by
  have isEntry := Option.join_eq_some_iff.mp present
  rw [List.modify_eq_set, isEntry]
  rfl

theorem claimOf_waiting {entry : DramRequest} (orderly : entry.Orderly)
    (unchecked : ¬ entry.forwardChecked = true) : claimOf (some entry) = none := by
  apply if_neg
  intro scheduled
  exact unchecked (orderly scheduled).1

namespace DramChannel

variable {mapping : AddressMapping} {channel next : DramChannel}

theorem Linked.store (linked : Linked mapping channel) (place : Side × Nat)
    (entry : Option DramRequest) (same : claimOf entry = channel.claimed place)
    (orderly : ∀ packet, entry = some packet → packet.Orderly) :
    Linked mapping (channel.store place entry) := by
  refine linked.quiet (congrArg List.length (store_bankRequest place entry))
    (congrArg List.length (store_bankgroupReadytime place entry)) ?_
    (claimed_store place entry same) ?_ ?_
  · intro bank
    unfold pointed
    rw [store_bankRequest]
  · intro bank isActive
    rw [store_activeRequest] at isActive
    exact linked.active bank isActive
  · intro other packet placed
    rcases packetAt_of_store placed with written | before
    · exact orderly packet written
    · exact linked.orderly other packet before

/-- The channel is linked, and in warmup it holds no packet. -/
structure Working (mapping : AddressMapping) (channel : DramChannel) : Prop where
  linked : Linked mapping channel
  empty : channel.warmup = true → ∀ place, channel.packetAt place = none

namespace Working

theorem not_warmup (working : Working mapping channel) {place : Side × Nat} {packet : DramRequest}
    (present : channel.packetAt place = some packet) : ¬ channel.warmup = true := by
  intro warm
  rw [working.empty warm place] at present
  cases present

/-- A packet changes without a change of its claim, or leaves without one. -/
theorem store (working : Working mapping channel) (place : Side × Nat) {old : DramRequest}
    (present : channel.packetAt place = some old) (entry : Option DramRequest)
    (same : claimOf entry = claimOf (some old))
    (orderly : ∀ packet, entry = some packet → packet.Orderly) :
    Working mapping (channel.store place entry) := by
  have claim : claimOf entry = channel.claimed place := same.trans (congrArg claimOf present).symm
  refine ⟨working.linked.store place entry claim orderly, ?_⟩
  intro warm
  rw [store_warmup] at warm
  exact absurd warm (working.not_warmup present)

theorem letGo (working : Working mapping channel) {bank : Nat} {place : Side × Nat}
    {old : DramRequest} (points : channel.pointed bank = some (some place))
    (present : channel.packetAt place = some old) (entry : Option DramRequest)
    (waits : claimOf entry = none) (orderly : ∀ packet, entry = some packet → packet.Orderly)
    (slot : BankRequest) (idle : slot.valid = false) (active : Option Nat)
    (kept : ∀ other, active = some other → other ≠ bank ∧ channel.activeRequest = some other) :
    Working mapping
      { channel.store place entry with
        bankRequest := channel.bankRequest.set bank slot
        activeRequest := active } := by
  obtain ⟨_slot, isSlot, _valid, _pkt⟩ := slot_of_pointed points
  have within : bank < channel.bankRequest.length := (List.getElem?_eq_some_iff.mp isSlot).1
  refine ⟨working.linked.release bank place points List.length_set
    (store_bankgroupReadytime place entry) ?_ ?_ kept ?_, ?_⟩
  · intro other
    rw [pointed_of_set within rfl]
    split
    case isTrue => rw [idle]; rfl
    case isFalse => rfl
  · intro other
    have claim := claimed_of_store place other entry present
    rw [waits] at claim
    exact claim
  · intro other packet placed
    rcases packetAt_of_store (placed : (channel.store place entry).packetAt other = some packet)
      with written | before
    · exact orderly packet written
    · exact working.linked.orderly other packet before
  · intro warm
    have wasWarm : (channel.store place entry).warmup = true := warm
    rw [store_warmup] at wasWarm
    exact absurd wasWarm (working.not_warmup present)

end Working

/-! ### Collisions and the flush -/

theorem checkWrite_working (index : Nat) (wq : RequestQueue)
    (working : Working mapping { channel with wq := wq }) :
    Working mapping { channel with wq := checkWrite mapping wq index } := by
  unfold checkWrite
  split
  case h_1 => exact working
  case h_2 entry present =>
      split
      case isTrue => exact working
      case isFalse unchecked =>
        have orderly := working.linked.orderly (.wq, index) entry present
        have waits := claimOf_waiting orderly unchecked
        split
        case h_1 =>
          exact working.store (.wq, index) present none waits.symm (by simp)
        case h_2 =>
          refine working.store (.wq, index) present (some { entry with forwardChecked := true })
            rfl ?_
          intro packet same scheduled
          cases same
          exact ⟨rfl, (orderly scheduled).2⟩

theorem checkRead_working (wq : RequestQueue) (index : Nat)
    (state : RequestQueue × List (Nat × Response))
    (working : Working mapping { channel with rq := state.1 }) :
    Working mapping { channel with rq := (checkRead mapping wq state index).1 } := by
  unfold checkRead
  split
  case h_1 => exact working
  case h_2 entry present =>
      split
      case isTrue => exact working
      case isFalse unchecked =>
        have orderly := working.linked.orderly (.rq, index) entry present
        have waits := claimOf_waiting orderly unchecked
        split
        case h_1 =>
          exact working.store (.rq, index) present none waits.symm (by simp)
        case h_2 =>
          split
          case h_1 found search =>
            obtain ⟨other, isOther, _sameBlock, differs⟩ := AddressMapping.findOther_spec search
            have merged := working.store (.rq, found) isOther (some (entry.merge other)) rfl (by
              intro packet same
              cases same
              exact working.linked.orderly (.rq, found) other isOther)
            rw [modify_eq_set isOther]
            have still : DramChannel.packetAt (({ channel with rq := state.1 } : DramChannel).store
                (.rq, found) (some (entry.merge other))) (.rq, index) = some entry := by
              rw [packetAt_store, if_neg (fun both => differs (congrArg Prod.snd both.1))]
              exact present
            exact merged.store (.rq, index) still none waits.symm (by simp)
          case h_2 =>
            refine working.store (.rq, index) present (some { entry with forwardChecked := true })
              rfl ?_
            intro packet same scheduled
            cases same
            exact ⟨rfl, (orderly scheduled).2⟩

/-- After these entries were looked at, a packet is checked, or it was at a different place. -/
def Screens (indices : List Nat) (queue next : RequestQueue) : Prop :=
  ∀ index packet, entryAt next index = some packet → packet.forwardChecked = true ∨
    (index ∉ indices ∧ ∃ old, entryAt queue index = some old ∧
      old.forwardChecked = packet.forwardChecked)

namespace Screens

variable {queue middle last : RequestQueue} {index : Nat} {rest : List Nat}

theorem nothing (queue : RequestQueue) : Screens [] queue queue := by
  intro place packet present
  exact Or.inr ⟨List.not_mem_nil, packet, present, rfl⟩

/-- An entry that is checked or empty has nothing to be looked at for. -/
theorem idle (checked : ∀ packet, entryAt queue index = some packet →
    packet.forwardChecked = true) : Screens [index] queue queue := by
  intro place packet present
  by_cases same : place = index
  · rw [same] at present
    exact Or.inl (checked packet present)
  · exact Or.inr ⟨fun member => same (List.mem_singleton.mp member), packet, present, rfl⟩

theorem vacant (empty : entryAt queue index = none) : Screens [index] queue queue := by
  apply idle
  intro packet present
  rw [empty] at present
  cases present

theorem already {entry : DramRequest} (present : entryAt queue index = some entry)
    (checked : entry.forwardChecked = true) : Screens [index] queue queue := by
  apply idle
  intro packet presentToo
  rw [present] at presentToo
  cases presentToo
  exact checked

theorem write (entry : Option DramRequest)
    (checked : ∀ packet, entry = some packet → packet.forwardChecked = true)
    (within : index < queue.length) : Screens [index] queue (queue.set index entry) := by
  intro place packet present
  rw [entryAt_set] at present
  split at present
  case isTrue => exact Or.inl (checked packet present)
  case isFalse differs =>
    refine Or.inr ⟨?_, packet, present, rfl⟩
    intro member
    exact differs ⟨(List.mem_singleton.mp member).symm, within⟩

theorem cons (first : Screens [index] queue middle) (later : Screens rest middle last) :
    Screens (index :: rest) queue last := by
  intro place packet present
  rcases later place packet present with checked | ⟨unseen, between, isBetween, same⟩
  · exact Or.inl checked
  · rcases first place between isBetween with checked | ⟨differs, old, isOld, sameOld⟩
    · exact Or.inl (same.symm.trans checked)
    · refine Or.inr ⟨?_, old, isOld, sameOld.trans same⟩
      intro member
      rcases List.mem_cons.mp member with isIndex | inRest
      · exact differs (List.mem_singleton.mpr isIndex)
      · exact unseen inRest

theorem all (screens : Screens (List.range queue.length) queue last) {index : Nat}
    {packet : DramRequest} (present : entryAt last index = some packet) :
    packet.forwardChecked = true := by
  rcases screens index packet present with checked | ⟨unseen, _old, isOld, _same⟩
  · exact checked
  · exact absurd (List.mem_range.mpr (entryAt_lt isOld)) unseen

end Screens

theorem checkWrite_screens (mapping : AddressMapping) (wq : RequestQueue) (index : Nat) :
    Screens [index] wq (checkWrite mapping wq index) := by
  unfold checkWrite
  split
  case h_1 empty => exact Screens.vacant empty
  case h_2 entry present =>
      split
      case isTrue checked => exact Screens.already present checked
      case isFalse =>
        split
        case h_1 => exact Screens.write none (by simp) (entryAt_lt present)
        case h_2 => exact Screens.write _ (by simp) (entryAt_lt present)

theorem checkRead_screens (mapping : AddressMapping) (wq : RequestQueue)
    (state : RequestQueue × List (Nat × Response)) (index : Nat) :
    Screens [index] state.1 (checkRead mapping wq state index).1 := by
  unfold checkRead
  split
  case h_1 empty => exact Screens.vacant empty
  case h_2 entry present =>
      split
      case isTrue checked => exact Screens.already present checked
      case isFalse =>
        split
        case h_1 => exact Screens.write none (by simp) (entryAt_lt present)
        case h_2 =>
          split
          case h_1 found search =>
            obtain ⟨other, isOther, _sameBlock, differs⟩ := AddressMapping.findOther_spec search
            rw [modify_eq_set isOther]
            intro place packet placed
            rw [entryAt_set] at placed
            split at placed
            case isTrue => cases placed
            case isFalse away =>
              rw [List.length_set] at away
              have elsewhere : place ≠ index := by
                intro same
                exact away ⟨same.symm, entryAt_lt present⟩
              rw [entryAt_set] at placed
              refine Or.inr ⟨fun member => elsewhere (List.mem_singleton.mp member), ?_⟩
              split at placed
              case isTrue here =>
                cases placed
                rw [← here.1]
                exact ⟨other, isOther, rfl⟩
              case isFalse => exact ⟨packet, placed, rfl⟩
          case h_2 => exact Screens.write _ (by simp) (entryAt_lt present)

structure Screened (mapping : AddressMapping) (channel : DramChannel) : Prop
    extends Working mapping channel where
  checked : ∀ place packet, channel.packetAt place = some packet → packet.forwardChecked = true

theorem checkWriteCollision_working (working : Working mapping channel) :
    Working mapping (checkWriteCollision mapping channel) ∧
      ∀ index packet, entryAt (checkWriteCollision mapping channel).wq index = some packet →
        packet.forwardChecked = true := by
  have kept : ∀ (indices : List Nat) (wq : RequestQueue),
      Working mapping { channel with wq := wq } →
      Working mapping { channel with wq := indices.foldl (checkWrite mapping) wq } ∧
        Screens indices wq (indices.foldl (checkWrite mapping) wq) := by
    intro indices
    induction indices with
    | nil =>
        intro wq holds
        exact ⟨holds, Screens.nothing wq⟩
    | cons index rest ih =>
        intro wq holds
        obtain ⟨stillHolds, screens⟩ := ih _ (checkWrite_working index wq holds)
        exact ⟨stillHolds, (checkWrite_screens mapping wq index).cons screens⟩
  obtain ⟨holds, screens⟩ := kept (List.range channel.wq.length) channel.wq working
  exact ⟨holds, fun _index _packet present => screens.all present⟩

theorem checkReadCollision_screened (working : Working mapping channel)
    (writes : ∀ index packet, entryAt channel.wq index = some packet →
      packet.forwardChecked = true) :
    Screened mapping (checkReadCollision mapping channel).1 := by
  have kept : ∀ (indices : List Nat) (state : RequestQueue × List (Nat × Response)),
      Working mapping { channel with rq := state.1 } →
      Working mapping
        { channel with rq := (indices.foldl (checkRead mapping channel.wq) state).1 } ∧
        Screens indices state.1 (indices.foldl (checkRead mapping channel.wq) state).1 := by
    intro indices
    induction indices with
    | nil =>
        intro state holds
        exact ⟨holds, Screens.nothing state.1⟩
    | cons index rest ih =>
        intro state holds
        obtain ⟨stillHolds, screens⟩ := ih _ (checkRead_working channel.wq index state holds)
        exact ⟨stillHolds, (checkRead_screens mapping channel.wq state index).cons screens⟩
  obtain ⟨holds, screens⟩ := kept (List.range channel.rq.length) (channel.rq, []) working
  refine ⟨holds, ?_⟩
  intro place packet present
  obtain ⟨side, index⟩ := place
  cases side with
  | wq => exact writes index packet present
  | rq => exact screens.all present

/-- The channel between two cycles: in warmup nothing is scheduled. -/
structure Rested (mapping : AddressMapping) (channel : DramChannel) : Prop where
  linked : Linked mapping channel
  waits : channel.warmup = true → ∀ place, channel.claimed place = none

theorem Working.rested (working : Working mapping channel) : Rested mapping channel := by
  refine ⟨working.linked, ?_⟩
  intro warm place
  unfold claimed
  rw [working.empty warm place]
  rfl

theorem packetAt_flush (place : Side × Nat) : channel.flush.1.packetAt place = none := by
  obtain ⟨side, index⟩ := place
  have emptied : ∀ items : RequestQueue, entryAt (items.map (fun _ => none)) index = none := by
    intro items
    unfold entryAt
    rw [List.getElem?_map]
    cases items[index]? <;> rfl
  cases side with
  | wq => exact emptied channel.wq
  | rq => exact emptied channel.rq

theorem flush_working (rested : Rested mapping channel) (warm : channel.warmup = true) :
    Working mapping channel.flush.1 := by
  refine ⟨rested.linked.quiet rfl rfl (fun _bank => rfl) ?_ rested.linked.active ?_, ?_⟩
  · intro place
    rw [rested.waits warm place]
    unfold claimed
    rw [packetAt_flush]
    rfl
  · intro place packet placed
    rw [packetAt_flush] at placed
    cases placed
  · intro _warm place
    exact packetAt_flush place

end DramChannel

end ChampSim.Dram
