/-
Refreshes of the banks of a DRAM channel.

A tick asks every bank for a refresh. A bank that works on a packet is asked
until it is let go, and the same cycle then begins its refresh, before a packet
can be taken. A bank under refresh works on nothing.
-/

import ChampSim.Dram.Service

set_option autoImplicit false

namespace ChampSim.Dram

open Outcome (Ends bind_ok map_ok need_ok)
open Transition (Machine history_concat history_earlier)

/-! ### Changes of banks -/

structure Banks (Change : BankRequest → BankRequest → Prop)
    (before after : List BankRequest) : Prop where
  length : after.length = before.length
  change : ∀ (bank : Nat) (older newer : BankRequest), before[bank]? = some older →
    after[bank]? = some newer → Change older newer

namespace Banks

variable {Change : BankRequest → BankRequest → Prop} {before middle after : List BankRequest}

theorem refl (same : ∀ slot, Change slot slot) (banks : List BankRequest) :
    Banks Change banks banks := by
  refine ⟨rfl, ?_⟩
  intro bank older newer isOlder isNewer
  rw [isOlder, Option.some.injEq] at isNewer
  rw [← isNewer]
  exact same older

theorem trans (chain : ∀ first second third, Change first second → Change second third →
      Change first third)
    (first : Banks Change before middle) (second : Banks Change middle after) :
    Banks Change before after := by
  refine ⟨second.length.trans first.length, ?_⟩
  intro bank older newer isOlder isNewer
  have within := (List.getElem?_eq_some_iff.mp isOlder).1
  rw [← first.length] at within
  have between := List.getElem?_eq_getElem within
  exact chain older _ newer (first.change bank older _ isOlder between)
    (second.change bank _ newer between isNewer)

theorem set (same : ∀ slot, Change slot slot) {bank : Nat} {older : BankRequest}
    (present : before[bank]? = some older) (slot : BankRequest) (changed : Change older slot) :
    Banks Change before (before.set bank slot) := by
  have within := (List.getElem?_eq_some_iff.mp present).1
  refine ⟨List.length_set, ?_⟩
  intro other previous newer isPrevious isNewer
  by_cases here : bank = other
  · subst here
    rw [List.getElem?_set_self within, Option.some.injEq] at isNewer
    rw [present, Option.some.injEq] at isPrevious
    rw [← isNewer, ← isPrevious]
    exact changed
  · rw [List.getElem?_set_ne here, isPrevious, Option.some.injEq] at isNewer
    rw [← isNewer]
    exact same previous

theorem map (change : BankRequest → BankRequest) (banks : List BankRequest) :
    Banks (fun older newer => newer = change older) banks (banks.map change) := by
  refine ⟨List.length_map _, ?_⟩
  intro bank older newer isOlder isNewer
  rw [List.getElem?_map, isOlder, Option.map_some, Option.some.injEq] at isNewer
  exact isNewer.symm

theorem older (banks : Banks Change before after) {bank : Nat} {newer : BankRequest}
    (present : after[bank]? = some newer) :
    ∃ older, before[bank]? = some older ∧ Change older newer := by
  have within := (List.getElem?_eq_some_iff.mp present).1
  rw [banks.length] at within
  have isOlder := List.getElem?_eq_getElem within
  exact ⟨_, isOlder, banks.change bank _ newer isOlder present⟩

theorem newer (banks : Banks Change before after) {bank : Nat} {older : BankRequest}
    (present : before[bank]? = some older) :
    ∃ newer, after[bank]? = some newer ∧ Change older newer := by
  have within := (List.getElem?_eq_some_iff.mp present).1
  rw [← banks.length] at within
  have isNewer := List.getElem?_eq_getElem within
  exact ⟨_, isNewer, banks.change bank older _ present isNewer⟩

theorem all {Before After : BankRequest → Prop} (banks : Banks Change before after)
    (keeps : ∀ older newer, Change older newer → Before older → After newer)
    (holds : ∀ slot ∈ before, Before slot) : ∀ slot ∈ after, After slot := by
  intro slot member
  obtain ⟨bank, present⟩ := List.mem_iff_getElem?.mp member
  obtain ⟨older, isOlder, change⟩ := banks.older present
  exact keeps older slot change (holds older (List.mem_of_getElem? isOlder))

end Banks

/-- The flags of a refresh stay, and a bank may be let go. -/
structure Released (older newer : BankRequest) : Prop where
  needRefresh : newer.needRefresh = older.needRefresh
  underRefresh : newer.underRefresh = older.underRefresh
  valid : newer.valid = true → older.valid = true

/-- The flags of a refresh stay, and the bank stays busy or idle. -/
structure Kept (older newer : BankRequest) : Prop where
  needRefresh : newer.needRefresh = older.needRefresh
  underRefresh : newer.underRefresh = older.underRefresh
  valid : newer.valid = older.valid

/-- A bank takes a packet, which clears both flags, or stays as it is. -/
structure Taken (older newer : BankRequest) : Prop where
  idle : newer ≠ older → older.valid = false ∧ older.underRefresh = false
  busy : newer ≠ older → newer.valid = true ∧ newer.needRefresh = false ∧
    newer.underRefresh = false

theorem Released.refl (slot : BankRequest) : Released slot slot := ⟨rfl, rfl, id⟩

theorem Released.trans (first second third : BankRequest) (before : Released first second)
    (after : Released second third) : Released first third :=
  ⟨after.needRefresh.trans before.needRefresh, after.underRefresh.trans before.underRefresh,
    fun valid => before.valid (after.valid valid)⟩

theorem Kept.refl (slot : BankRequest) : Kept slot slot := ⟨rfl, rfl, rfl⟩

theorem Taken.refl (slot : BankRequest) : Taken slot slot :=
  ⟨fun different => absurd rfl different, fun different => absurd rfl different⟩

namespace DramChannel

variable {config : DramConfig} {channel : DramChannel}

/-! ### The stages -/

theorem prepare_bankRequest (config : DramConfig) (channel : DramChannel) :
    (prepare config channel).bankRequest = channel.bankRequest := by
  unfold prepare
  dsimp only
  split <;> rfl

theorem finishDbusRequest_banks {finished : DramChannel}
    (ran : channel.finishDbusRequest.map Prod.fst = .ok finished) :
    Banks Released channel.bankRequest finished.bankRequest := by
  obtain ⟨result, ran, isFinished⟩ := map_ok ran
  unfold finishDbusRequest at ran
  split at ran
  · cases ran
    rw [← isFinished]
    exact Banks.refl Released.refl _
  · rename_i index _isActive
    obtain ⟨active, isSlot, ran⟩ := bind_ok ran
    split at ran
    · obtain ⟨place, _isPlace, ran⟩ := bind_ok ran
      obtain ⟨entry, _isEntry, ran⟩ := bind_ok ran
      cases ran
      rw [← isFinished]
      exact Banks.set Released.refl (need_ok isSlot) _ ⟨rfl, rfl, fun valid => by cases valid⟩
    · cases ran
      rw [← isFinished]
      exact Banks.refl Released.refl _

theorem cancel_banks {cancelled : DramChannel} {index : Nat}
    (ran : cancel config channel index = .ok cancelled) :
    Banks Released channel.bankRequest cancelled.bankRequest := by
  unfold cancel at ran
  obtain ⟨slot, isSlot, ran⟩ := bind_ok ran
  split at ran
  · obtain ⟨place, _isPlace, ran⟩ := bind_ok ran
    obtain ⟨entry, _isEntry, ran⟩ := bind_ok ran
    cases ran
    exact Banks.set Released.refl (need_ok isSlot) _ ⟨rfl, rfl, fun valid => by cases valid⟩
  · cases ran
    exact Banks.refl Released.refl _

theorem cancels_banks (indices : List Nat) :
    ∀ (channel cancelled : DramChannel), indices.foldlM (cancel config) channel = .ok cancelled →
      Banks Released channel.bankRequest cancelled.bankRequest := by
  induction indices with
  | nil =>
      intro channel cancelled ran
      cases ran
      exact Banks.refl Released.refl _
  | cons index rest ih =>
      intro channel cancelled ran
      rw [List.foldlM_cons] at ran
      obtain ⟨next, first, ran⟩ := bind_ok ran
      exact (cancel_banks first).trans Released.trans (ih next cancelled ran)

theorem swapWriteMode_banks {swapped : DramChannel}
    (ran : swapWriteMode config channel = .ok swapped) :
    Banks Released channel.bankRequest swapped.bankRequest := by
  unfold swapWriteMode at ran
  dsimp only at ran
  split at ran
  · obtain ⟨cancelled, cancels, ran⟩ := bind_ok ran
    obtain ⟨free, _isFree, ran⟩ := bind_ok ran
    cases ran
    exact cancels_banks _ channel cancelled cancels
  · cases ran
    exact Banks.refl Released.refl _

def Ticks (config : DramConfig) (channel : DramChannel) : Prop :=
  channel.lastRefresh + config.tREF ≤ channel.currentTime

instance (config : DramConfig) (channel : DramChannel) : Decidable (channel.Ticks config) :=
  inferInstanceAs (Decidable (_ ≤ _))

theorem scheduleRefresh_bankRequest (config : DramConfig) (channel : DramChannel) :
    (scheduleRefresh config channel).bankRequest = channel.bankRequest.map
      (refreshBank config channel.currentTime (decide (channel.Ticks config))) := by
  unfold scheduleRefresh Ticks
  dsimp only
  split <;> rfl

theorem populateDbus_banks {populated : DramChannel}
    (ran : populateDbus config channel = .ok populated) :
    Banks Kept channel.bankRequest populated.bankRequest := by
  unfold populateDbus at ran
  obtain ⟨found, least, ran⟩ := bind_ok ran
  obtain ⟨next, isNext, ran⟩ := bind_ok ran
  split at ran
  · obtain ⟨place, _isPlace, ran⟩ := bind_ok ran
    obtain ⟨entry, _isEntry, ran⟩ := bind_ok ran
    obtain ⟨opBankgroup, _isBankgroup, ran⟩ := bind_ok ran
    obtain ⟨bankgroupReady, _isReady, ran⟩ := bind_ok ran
    cases ran
    have placed := Scan.minElement_ends channel.bankRequest
      (fun lhs _left rhs _right => Outcome.ends_anything (nextProcess lhs rhs))
    rw [least] at placed
    exact Banks.set Kept.refl (placed.2 next (need_ok isNext)) _ ⟨rfl, rfl, rfl⟩
  · cases ran
    exact Banks.refl Kept.refl _

theorem serviceScheduled_banks {serviced : DramChannel}
    (ran : serviceScheduled config channel = .ok serviced) :
    Banks Taken channel.bankRequest serviced.bankRequest := by
  unfold serviceScheduled at ran
  obtain ⟨pkt, _isPkt, ran⟩ := bind_ok ran
  unfold servicePacket at ran
  split at ran
  · cases ran
    exact Banks.refl Taken.refl _
  · split at ran
    · obtain ⟨opRow, _isRow, ran⟩ := bind_ok ran
      obtain ⟨opIdx, _isIdx, ran⟩ := bind_ok ran
      obtain ⟨slot, isSlot, ran⟩ := bind_ok ran
      split at ran
      · rename_i free
        cases ran
        simp only [Bool.and_eq_true, Bool.not_eq_true'] at free
        exact Banks.set Taken.refl (need_ok isSlot) _ ⟨fun _ => free, fun _ => ⟨rfl, rfl, rfl⟩⟩
      · cases ran
        exact Banks.refl Taken.refl _
    · cases ran
      exact Banks.refl Taken.refl _

end DramChannel

/-! ### One bank -/

def Resting (slot : BankRequest) : Prop := slot.underRefresh = true → slot.valid = false

/-- A bank between two cycles: only work delays a refresh. -/
structure Calm (slot : BankRequest) : Prop where
  resting : Resting slot
  asked : slot.needRefresh = true → slot.valid = true

def BankRequest.refreshFrom (slot : BankRequest) (readyTime : Nat) : BankRequest :=
  { slot with readyTime, needRefresh := false, underRefresh := true }

section Bank

variable {config : DramConfig} {now : Nat} {tick : Bool} {slot : BankRequest}

theorem refreshBank_starts (asked : slot.needRefresh = true ∨ tick = true)
    (idle : slot.valid = false) :
    DramChannel.refreshBank config now tick slot = slot.refreshFrom (now + config.tRFC) := by
  unfold DramChannel.refreshBank
  cases tick with
  | true => simp only [if_true, idle, Bool.not_false, Bool.and_self, BankRequest.refreshFrom]
  | false =>
      have need : slot.needRefresh = true := asked.resolve_right Bool.false_ne_true
      simp only [Bool.false_eq_true, if_false, need, idle, Bool.not_false, Bool.and_self, if_true,
        BankRequest.refreshFrom]

theorem refreshBank_eq (config : DramConfig) (now : Nat)
    (waits : (slot.needRefresh = true ∨ tick = true) → slot.valid = true) :
    DramChannel.refreshBank config now tick slot =
      if slot.underRefresh = true ∧ slot.readyTime ≤ now then
        { slot with
          needRefresh := slot.needRefresh || tick
          underRefresh := false
          openRow := none }
      else { slot with needRefresh := slot.needRefresh || tick } := by
  unfold DramChannel.refreshBank
  cases tick with
  | true =>
      have busy : slot.valid = true := waits (Or.inr rfl)
      simp only [if_true, busy, Bool.not_true, Bool.and_false, Bool.false_eq_true, if_false,
        Bool.or_true, Bool.and_eq_true, decide_eq_true_eq]
  | false =>
      have quiet : (slot.needRefresh && !slot.valid) = false := by
        cases need : slot.needRefresh with
        | false => rfl
        | true => rw [waits (Or.inl need), Bool.not_true, Bool.and_false]
      simp only [Bool.false_eq_true, if_false, quiet, Bool.or_false, Bool.and_eq_true,
        decide_eq_true_eq]

/-- A bank that begins no refresh keeps being asked, and its row is closed if its refresh ends. -/
theorem refreshBank_waits (config : DramConfig) (now : Nat)
    (waits : (slot.needRefresh = true ∨ tick = true) → slot.valid = true) :
    ((DramChannel.refreshBank config now tick slot).needRefresh = true ↔
        slot.needRefresh = true ∨ tick = true) ∧
      (DramChannel.refreshBank config now tick slot).valid = slot.valid ∧
      ((DramChannel.refreshBank config now tick slot).underRefresh = true →
        slot.underRefresh = true) ∧
      (slot.underRefresh = true →
        (DramChannel.refreshBank config now tick slot).underRefresh = false →
          (DramChannel.refreshBank config now tick slot).openRow = none) := by
  rw [refreshBank_eq config now waits]
  by_cases ends : slot.underRefresh = true ∧ slot.readyTime ≤ now
  · rw [if_pos ends]
    exact ⟨Bool.or_eq_true_iff, rfl, fun _under => ends.1, fun _under _ended => rfl⟩
  · rw [if_neg ends]
    refine ⟨Bool.or_eq_true_iff, rfl, id, ?_⟩
    intro under ended
    have impossible : true = false := under.symm.trans ended
    cases impossible

theorem refreshBank_calm (older newer : BankRequest)
    (change : newer = DramChannel.refreshBank config now tick older) (resting : Resting older) :
    Calm newer := by
  rw [change]
  by_cases starts : (older.needRefresh = true ∨ tick = true) ∧ older.valid = false
  · rw [refreshBank_starts starts.1 starts.2]
    exact ⟨fun _ => starts.2, fun asked => by cases asked⟩
  · have waits : (older.needRefresh = true ∨ tick = true) → older.valid = true := by
      intro asked
      cases busy : older.valid with
      | true => rfl
      | false => exact absurd ⟨asked, busy⟩ starts
    obtain ⟨asked, valid, refreshing, _closed⟩ :=
      refreshBank_waits config now waits
    refine ⟨?_, ?_⟩
    · intro under
      rw [valid]
      exact resting (refreshing under)
    · intro need
      rw [valid]
      exact waits (asked.mp need)

theorem refreshBank_closed {older newer : BankRequest}
    (change : newer = DramChannel.refreshBank config now tick older) (resting : Resting older)
    (under : older.underRefresh = true) (ended : newer.underRefresh = false) :
    newer.openRow = none := by
  have idle := resting under
  have waits : (older.needRefresh = true ∨ tick = true) → older.valid = true := by
    intro asked
    rw [change, refreshBank_starts asked idle] at ended
    cases ended
  obtain ⟨_asked, _valid, _refreshing, closed⟩ := refreshBank_waits config now waits
  rw [change] at ended ⊢
  exact closed under ended

theorem Taken.unchanged_of_underRefresh {older newer : BankRequest} (taken : Taken older newer)
    (under : older.underRefresh = true) : newer = older := by
  by_contra different
  have free := (taken.idle different).2
  rw [under] at free
  cases free

theorem Taken.unchanged_of_valid {older newer : BankRequest} (taken : Taken older newer)
    (busy : older.valid = true) : newer = older := by
  by_contra different
  have free := (taken.idle different).1
  rw [busy] at free
  cases free

theorem Released.resting (older newer : BankRequest) (released : Released older newer)
    (resting : Resting older) : Resting newer := by
  intro under
  rw [released.underRefresh] at under
  cases busy : newer.valid with
  | false => rfl
  | true => exact (released.valid busy).symm.trans (resting under)

theorem Kept.calm (older newer : BankRequest) (kept : Kept older newer) (calm : Calm older) :
    Calm newer := by
  refine ⟨?_, ?_⟩
  · intro under
    rw [kept.underRefresh] at under
    rw [kept.valid]
    exact calm.resting under
  · intro need
    rw [kept.needRefresh] at need
    rw [kept.valid]
    exact calm.asked need

theorem Taken.calm (older newer : BankRequest) (taken : Taken older newer) (calm : Calm older) :
    Calm newer := by
  by_cases same : newer = older
  · rw [same]
    exact calm
  · obtain ⟨_busy, need, under⟩ := taken.busy same
    refine ⟨?_, ?_⟩
    · intro impossible
      rw [under] at impossible
      cases impossible
    · intro impossible
      rw [need] at impossible
      cases impossible

end Bank

/-! ### One cycle -/

namespace Cycle

def states (stages : Cycle) : List DramChannel :=
  [stages.prepared, stages.finished, stages.swapped, stages.refreshed, stages.populated,
    stages.serviced]

def steps (stages : Cycle) : List (DramChannel × DramChannel) :=
  [(stages.prepared, stages.finished), (stages.finished, stages.swapped),
    (stages.swapped, stages.refreshed), (stages.refreshed, stages.populated),
    (stages.populated, stages.serviced)]

def Ticks (config : DramConfig) (stages : Cycle) : Prop := stages.swapped.Ticks config

instance (config : DramConfig) (stages : Cycle) : Decidable (stages.Ticks config) :=
  inferInstanceAs (Decidable (stages.swapped.Ticks config))

/-- A bank that was asked begins a refresh, or begins it again. -/
def Starts (config : DramConfig) (stages : Cycle) (bank : Nat) : Prop :=
  ∃ slot, stages.swapped.bankRequest[bank]? = some slot ∧
    (slot.needRefresh = true ∨ stages.Ticks config) ∧ slot.valid = false ∧
      stages.refreshed.bankRequest[bank]? =
        some (slot.refreshFrom (stages.swapped.currentTime + config.tRFC))

def Takes (stages : Cycle) (bank : Nat) : Prop :=
  ∃ before after, stages.populated.bankRequest[bank]? = some before ∧ before.valid = false ∧
    stages.serviced.bankRequest[bank]? = some after ∧ after.valid = true

end Cycle

/-- What a cycle may do to a bank that is asked for a refresh, or is under one. -/
structure Refreshes (config : DramConfig) (stages : Cycle) : Prop where
  idle : ∀ state ∈ stages.states, ∀ (bank : Nat) (slot : BankRequest),
    state.bankRequest[bank]? = some slot → slot.underRefresh = true →
      slot.valid = false ∧ state.activeRequest ≠ some bank
  closed : ∀ step ∈ stages.steps, ∀ (bank : Nat) (older newer : BankRequest),
    step.1.bankRequest[bank]? = some older → step.2.bankRequest[bank]? = some newer →
      older.underRefresh = true → newer.underRefresh = false → newer.openRow = none
  kept : ∀ step ∈ stages.steps, ∀ (bank : Nat) (older newer : BankRequest),
    step.1.bankRequest[bank]? = some older → step.2.bankRequest[bank]? = some newer →
      older.needRefresh = true → newer.needRefresh = false → stages.Starts config bank
  asked : stages.Ticks config → ∀ (bank : Nat) (slot : BankRequest),
    stages.refreshed.bankRequest[bank]? = some slot →
      slot.needRefresh = true ∨ stages.Starts config bank

namespace DramChannel

variable {config : DramConfig} {channel : DramChannel} {stages : Cycle}

structure Changes (config : DramConfig) (channel : DramChannel) (stages : Cycle) : Prop where
  prepared : stages.prepared.bankRequest = channel.bankRequest
  finished : Banks Released stages.prepared.bankRequest stages.finished.bankRequest
  swapped : Banks Released stages.finished.bankRequest stages.swapped.bankRequest
  refreshed : Banks (fun older newer => newer = refreshBank config stages.swapped.currentTime
    (decide (stages.Ticks config)) older) stages.swapped.bankRequest stages.refreshed.bankRequest
  populated : Banks Kept stages.refreshed.bankRequest stages.populated.bankRequest
  serviced : Banks Taken stages.populated.bankRequest stages.serviced.bankRequest

theorem Stages.changes (run : Stages config channel stages) : Changes config channel stages := by
  have begun := prepare_bankRequest config channel
  rw [← run.prepared] at begun
  have refreshed := scheduleRefresh_bankRequest config stages.swapped
  rw [← run.refreshed] at refreshed
  refine ⟨begun, finishDbusRequest_banks run.finished, swapWriteMode_banks run.swapped, ?_,
    populateDbus_banks run.populated, serviceScheduled_banks run.serviced⟩
  rw [refreshed]
  exact Banks.map _ _

/-- The banks are calm from the refresh on, and until then no bank under refresh is busy. -/
structure Settled (stages : Cycle) : Prop where
  prepared : ∀ slot ∈ stages.prepared.bankRequest, Resting slot
  finished : ∀ slot ∈ stages.finished.bankRequest, Resting slot
  swapped : ∀ slot ∈ stages.swapped.bankRequest, Resting slot
  refreshed : ∀ slot ∈ stages.refreshed.bankRequest, Calm slot
  populated : ∀ slot ∈ stages.populated.bankRequest, Calm slot
  serviced : ∀ slot ∈ stages.serviced.bankRequest, Calm slot

theorem Changes.settled (changes : Changes config channel stages)
    (calm : ∀ slot ∈ channel.bankRequest, Calm slot) : Settled stages := by
  have prepared : ∀ slot ∈ stages.prepared.bankRequest, Resting slot := by
    rw [changes.prepared]
    exact fun slot member => (calm slot member).resting
  have finished := changes.finished.all Released.resting prepared
  have swapped := changes.swapped.all Released.resting finished
  have refreshed := changes.refreshed.all refreshBank_calm swapped
  have populated := changes.populated.all Kept.calm refreshed
  exact ⟨prepared, finished, swapped, refreshed, populated,
    changes.serviced.all Taken.calm populated⟩

theorem Stages.linked (run : Stages config channel stages)
    (rested : Rested config.addressMapping channel) :
    ∀ state ∈ stages.states, Linked config.addressMapping state := by
  have prepared := prepare_screened rested
  rw [← run.prepared] at prepared
  obtain ⟨finished, finishes, isFinished⟩ := map_ok run.finished
  have finishedEnds := finishDbusRequest_ends prepared
  rw [finishes] at finishedEnds
  have afterFinish : Screened config.addressMapping stages.finished := isFinished ▸ finishedEnds
  have afterSwap := swapWriteMode_ends config afterFinish
  rw [run.swapped] at afterSwap
  have afterRefresh := scheduleRefresh_screened config afterSwap
  rw [← run.refreshed] at afterRefresh
  have afterPopulate := populateDbus_ends config afterRefresh
  rw [run.populated] at afterPopulate
  obtain ⟨pkt, _isPkt, services⟩ := bind_ok run.serviced
  have afterService := servicePacket_ends config afterPopulate pkt
  rw [services] at afterService
  intro state member
  simp only [Cycle.states, List.mem_cons, List.not_mem_nil, or_false] at member
  rcases member with isState | isState | isState | isState | isState | isState
  · exact isState ▸ prepared.linked
  · exact isState ▸ afterFinish.linked
  · exact isState ▸ afterSwap.linked
  · exact isState ▸ afterRefresh.linked
  · exact isState ▸ afterPopulate.linked
  · exact isState ▸ afterService.linked

theorem Settled.resting (settled : Settled stages) :
    ∀ state ∈ stages.states, ∀ slot ∈ state.bankRequest, Resting slot := by
  intro state member
  simp only [Cycle.states, List.mem_cons, List.not_mem_nil, or_false] at member
  rcases member with isState | isState | isState | isState | isState | isState
  · exact isState ▸ settled.prepared
  · exact isState ▸ settled.finished
  · exact isState ▸ settled.swapped
  · exact isState ▸ fun slot among => (settled.refreshed slot among).resting
  · exact isState ▸ fun slot among => (settled.populated slot among).resting
  · exact isState ▸ fun slot among => (settled.serviced slot among).resting

/-- A bank that is asked at the time of the refreshes begins one, or works and is still asked. -/
theorem Changes.asked (changes : Changes config channel stages) {bank : Nat}
    {swapped refreshed : BankRequest} (isSwapped : stages.swapped.bankRequest[bank]? = some swapped)
    (isRefreshed : stages.refreshed.bankRequest[bank]? = some refreshed)
    (asked : swapped.needRefresh = true ∨ stages.Ticks config) :
    refreshed.needRefresh = true ∨ stages.Starts config bank := by
  have change := changes.refreshed.change bank swapped refreshed isSwapped isRefreshed
  have wants : swapped.needRefresh = true ∨ decide (stages.Ticks config) = true := by
    rw [decide_eq_true_eq]
    exact asked
  cases busy : swapped.valid with
  | true =>
      have waits : (swapped.needRefresh = true ∨ decide (stages.Ticks config) = true) →
          swapped.valid = true := fun _ => busy
      obtain ⟨keeps, _rest⟩ := refreshBank_waits config stages.swapped.currentTime waits
      rw [change]
      exact Or.inl (keeps.mpr wants)
  | false =>
      rw [refreshBank_starts wants busy] at change
      exact Or.inr ⟨swapped, isSwapped, asked, busy, change ▸ isRefreshed⟩

theorem Stages.refreshes (run : Stages config channel stages)
    (rested : Rested config.addressMapping channel)
    (calm : ∀ slot ∈ channel.bankRequest, Calm slot) : Refreshes config stages := by
  have changes := run.changes
  have settled := changes.settled calm
  refine ⟨?_, ?_, ?_, ?_⟩
  · intro state member bank slot present under
    have idle := settled.resting state member slot (List.mem_of_getElem? present) under
    refine ⟨idle, ?_⟩
    intro active
    have points := (run.linked rested state member).active bank active
    rw [pointed_some present, idle] at points
    cases points
  · intro step member bank older newer isOlder isNewer under ended
    simp only [Cycle.steps, List.mem_cons, List.not_mem_nil, or_false] at member
    rcases member with isStep | isStep | isStep | isStep | isStep
    all_goals
      rw [isStep] at isOlder isNewer
    · have change := changes.finished.change bank older newer isOlder isNewer
      rw [change.underRefresh, under] at ended
      cases ended
    · have change := changes.swapped.change bank older newer isOlder isNewer
      rw [change.underRefresh, under] at ended
      cases ended
    · have change := changes.refreshed.change bank older newer isOlder isNewer
      have resting := settled.swapped older (List.mem_of_getElem? isOlder)
      exact refreshBank_closed change resting under ended
    · have change := changes.populated.change bank older newer isOlder isNewer
      rw [change.underRefresh, under] at ended
      cases ended
    · have change := changes.serviced.change bank older newer isOlder isNewer
      have same := change.unchanged_of_underRefresh under
      rw [same, under] at ended
      cases ended
  · intro step member bank older newer isOlder isNewer need cleared
    simp only [Cycle.steps, List.mem_cons, List.not_mem_nil, or_false] at member
    rcases member with isStep | isStep | isStep | isStep | isStep
    all_goals
      rw [isStep] at isOlder isNewer
    · have change := changes.finished.change bank older newer isOlder isNewer
      rw [change.needRefresh, need] at cleared
      cases cleared
    · have change := changes.swapped.change bank older newer isOlder isNewer
      rw [change.needRefresh, need] at cleared
      cases cleared
    · rcases changes.asked isOlder isNewer (Or.inl need) with kept | starts
      · rw [kept] at cleared
        cases cleared
      · exact starts
    · have change := changes.populated.change bank older newer isOlder isNewer
      rw [change.needRefresh, need] at cleared
      cases cleared
    · have change := changes.serviced.change bank older newer isOlder isNewer
      have busy := (settled.populated older (List.mem_of_getElem? isOlder)).asked need
      have same := change.unchanged_of_valid busy
      rw [same, need] at cleared
      cases cleared
  · intro ticks bank slot present
    obtain ⟨older, isOlder, _change⟩ := changes.refreshed.older present
    exact changes.asked isOlder present (Or.inr ticks)

/-- A bank before packets are taken is one of the beginning of the cycle. -/
theorem Changes.start (changes : Changes config channel stages) {bank : Nat}
    {populated : BankRequest} (present : stages.populated.bankRequest[bank]? = some populated) :
    ∃ start, channel.bankRequest[bank]? = some start := by
  obtain ⟨refreshed, isRefreshed, _kept⟩ := changes.populated.older present
  obtain ⟨swapped, isSwapped, _refreshed⟩ := changes.refreshed.older isRefreshed
  obtain ⟨finished, isFinished, _swapped⟩ := changes.swapped.older isSwapped
  obtain ⟨start, isStart, _finished⟩ := changes.finished.older isFinished
  rw [changes.prepared] at isStart
  exact ⟨start, isStart⟩

/-- A bank that is asked in a cycle begins a refresh in it, or takes nothing and is still asked. -/
theorem Changes.owed (changes : Changes config channel stages) (settled : Settled stages)
    {bank : Nat} {start : BankRequest} (isStart : channel.bankRequest[bank]? = some start)
    (asked : start.needRefresh = true ∨ stages.Ticks config) :
    stages.Starts config bank ∨ (¬stages.Takes bank ∧
      ∀ slot, stages.serviced.bankRequest[bank]? = some slot → slot.needRefresh = true) := by
  rw [← changes.prepared] at isStart
  obtain ⟨finished, isFinished, finishes⟩ := changes.finished.newer isStart
  obtain ⟨swapped, isSwapped, swaps⟩ := changes.swapped.newer isFinished
  obtain ⟨refreshed, isRefreshed, _refreshes⟩ := changes.refreshed.newer isSwapped
  obtain ⟨populated, isPopulated, populates⟩ := changes.populated.newer isRefreshed
  rw [← finishes.needRefresh, ← swaps.needRefresh] at asked
  rcases changes.asked isSwapped isRefreshed asked with need | starts
  · rw [← populates.needRefresh] at need
    have busy := (settled.populated populated (List.mem_of_getElem? isPopulated)).asked need
    refine Or.inr ⟨?_, ?_⟩
    · rintro ⟨before, _after, isBefore, idle, _taken⟩
      rw [isPopulated, Option.some.injEq] at isBefore
      rw [← isBefore, busy] at idle
      cases idle
    · intro slot isSlot
      have taken := changes.serviced.change bank populated slot isPopulated isSlot
      rw [taken.unchanged_of_valid busy]
      exact need
  · exact Or.inl starts

/-! ### Runs -/

def noteCycle (config : DramConfig) (channel : DramChannel) (label : ChannelStep)
    (history : List Cycle) : List Cycle :=
  match label with
  | .operate =>
      match cycle config channel with
      | .ok stages => history ++ [stages]
      | .error _ => history
  | _ => history

def cycles (config : DramConfig) : Machine (DramChannel × List Cycle) ChannelStep :=
  (machine config).record (noteCycle config)

/-- After a tick, a bank begins a refresh before it takes a packet. -/
def RefreshesFirst (config : DramConfig) (history : List Cycle) : Prop :=
  ∀ (bank first last : Nat) (stages later : Cycle), history[first]? = some stages →
    stages.Ticks config → first ≤ last → history[last]? = some later → later.Takes bank →
      ∃ between refreshing, first ≤ between ∧ between ≤ last ∧
        history[between]? = some refreshing ∧ refreshing.Starts config bank

/-- A bank that has begun no refresh since a tick is still asked for one. -/
def Owes (config : DramConfig) (channel : DramChannel) (history : List Cycle) : Prop :=
  ∀ (bank : Nat) (slot : BankRequest), channel.bankRequest[bank]? = some slot →
    ∀ (first : Nat) (stages : Cycle), history[first]? = some stages → stages.Ticks config →
      slot.needRefresh = true ∨ ∃ between refreshing, first ≤ between ∧
        history[between]? = some refreshing ∧ refreshing.Starts config bank

/-- Each cycle begins with the banks that the one before it left. -/
def Chained (history : List Cycle) : Prop :=
  ∀ (index : Nat) (before after : Cycle), history[index]? = some before →
    history[index + 1]? = some after → after.prepared.bankRequest = before.serviced.bankRequest

structure Tracks (config : DramConfig) (channel : DramChannel) (history : List Cycle) :
    Prop where
  rested : Rested config.addressMapping channel
  calm : ∀ slot ∈ channel.bankRequest, Calm slot
  refreshes : ∀ stages ∈ history, Refreshes config stages
  first : RefreshesFirst config history
  owes : Owes config channel history
  latest : ∀ stages ∈ history.getLast?, channel.bankRequest = stages.serviced.bankRequest
  chained : Chained history

theorem step_bankRequest {next : DramChannel} {label : ChannelStep} (quiet : label ≠ .operate)
    (stepped : (machine config).step channel label = some next) :
    next.bankRequest = channel.bankRequest := by
  cases label with
  | addRq packet level currentTime =>
      cases stepped
      cases accepted : channel.addRq packet level currentTime with
      | none => rfl
      | some joined =>
          obtain ⟨rq, _joined, same⟩ := Option.map_eq_some_iff.mp accepted
          rw [← same]
          rfl
  | addWq packet currentTime =>
      cases stepped
      cases accepted : channel.addWq packet currentTime with
      | none => rfl
      | some joined =>
          obtain ⟨wq, _joined, same⟩ := Option.map_eq_some_iff.mp accepted
          rw [← same]
          rfl
  | operate => exact absurd rfl quiet
  | beginPhase warmup =>
      change (if _ then none else some { channel with warmup }) = some next at stepped
      split at stepped
      · cases stepped
      · cases stepped
        rfl

theorem operate_stages {next : DramChannel}
    (stepped : (machine config).step channel .operate = some next) :
    ∃ stages, cycle config channel = .ok stages ∧ stages.serviced = next := by
  have same := operate_eq_cycle config channel
  obtain ⟨operated, ran, isNext⟩ := Option.map_eq_some_iff.mp stepped
  cases outcome : operate config channel with
  | error fault =>
      rw [outcome] at ran
      cases ran
  | ok result =>
      rw [outcome] at ran same
      cases ran
      rw [← isNext]
      exact map_ok same.symm

theorem Stages.owed (run : Stages config channel stages) {history : List Cycle}
    (tracks : Tracks config channel history) {bank first : Nat} {earlier : Cycle}
    (present : (history ++ [stages])[first]? = some earlier) (ticks : earlier.Ticks config)
    {start : BankRequest} (isStart : channel.bankRequest[bank]? = some start) :
    (∃ between refreshing, first ≤ between ∧
        (history ++ [stages])[between]? = some refreshing ∧ refreshing.Starts config bank) ∨
      (¬stages.Takes bank ∧
        ∀ slot, stages.serviced.bankRequest[bank]? = some slot → slot.needRefresh = true) := by
  have changes := run.changes
  have settled := changes.settled tracks.calm
  have newest : (history ++ [stages])[history.length]? = some stages :=
    List.getElem?_concat_length
  have asked : (start.needRefresh = true ∨ stages.Ticks config) ∧ first ≤ history.length ∨
      ∃ between refreshing, first ≤ between ∧ (history ++ [stages])[between]? = some refreshing ∧
        refreshing.Starts config bank := by
    rcases history_concat present with ⟨older, isEarlier⟩ | ⟨isLatest, same⟩
    · rcases tracks.owes bank start isStart first earlier isEarlier ticks with need | begun
      · exact Or.inl ⟨Or.inl need, older.le⟩
      · obtain ⟨between, refreshing, after, isRefreshing, starts⟩ := begun
        exact Or.inr ⟨between, refreshing, after, history_earlier isRefreshing stages, starts⟩
    · rw [same] at ticks
      exact Or.inl ⟨Or.inr ticks, isLatest.le⟩
  rcases asked with ⟨now, before⟩ | begun
  · rcases changes.owed settled isStart now with starts | still
    · exact Or.inl ⟨history.length, stages, before, newest, starts⟩
    · exact Or.inr still
  · exact Or.inl begun

theorem Stages.tracks (run : Stages config channel stages) {history : List Cycle}
    (tracks : Tracks config channel history)
    (rested : Rested config.addressMapping stages.serviced) :
    Tracks config stages.serviced (history ++ [stages]) := by
  have changes := run.changes
  have settled := changes.settled tracks.calm
  refine ⟨rested, settled.serviced, ?_, ?_, ?_, ?_, ?_⟩
  · intro other member
    rcases List.mem_append.mp member with older | isStages
    · exact tracks.refreshes other older
    · rw [List.mem_singleton.mp isStages]
      exact run.refreshes tracks.rested tracks.calm
  · intro bank first last earlier later isEarlier ticks ordered isLater takes
    rcases history_concat isLater with ⟨within, isOlder⟩ | ⟨isLast, same⟩
    · rw [List.getElem?_append_left (ordered.trans_lt within)] at isEarlier
      obtain ⟨between, refreshing, after, before, isRefreshing, starts⟩ :=
        tracks.first bank first last earlier later isEarlier ticks ordered isOlder takes
      exact ⟨between, refreshing, after, before, history_earlier isRefreshing stages, starts⟩
    · rw [same] at takes
      obtain ⟨populated, after, isPopulated, taken⟩ := takes
      obtain ⟨start, isStart⟩ := changes.start isPopulated
      rcases run.owed tracks isEarlier ticks isStart with begun | still
      · obtain ⟨between, refreshing, after, isRefreshing, starts⟩ := begun
        refine ⟨between, refreshing, after, ?_, isRefreshing, starts⟩
        have within := (List.getElem?_eq_some_iff.mp isRefreshing).1
        rw [List.length_append, List.length_singleton] at within
        omega
      · exact absurd ⟨populated, after, isPopulated, taken⟩ still.1
  · intro bank slot isSlot first earlier isEarlier ticks
    obtain ⟨populated, isPopulated, _taken⟩ := changes.serviced.older isSlot
    obtain ⟨start, isStart⟩ := changes.start isPopulated
    rcases run.owed tracks isEarlier ticks isStart with begun | still
    · exact Or.inr begun
    · exact Or.inl (still.2 slot isSlot)
  · intro latest isLatest
    rw [List.getLast?_concat] at isLatest
    rw [Option.mem_some_iff.mp isLatest]
  · intro index before after isBefore isAfter
    rcases history_concat isAfter with ⟨within, isOlder⟩ | ⟨isLast, same⟩
    · rw [List.getElem?_append_left (by omega)] at isBefore
      exact tracks.chained index before after isBefore isOlder
    · rw [List.getElem?_append_left (by omega)] at isBefore
      rw [same, changes.prepared]
      apply tracks.latest before
      rw [List.getLast?_eq_getElem?, ← isLast]
      exact isBefore

theorem Tracks.step {next : DramChannel} {history later : List Cycle} {label : ChannelStep}
    (tracks : Tracks config channel history)
    (stepped : (cycles config).step (channel, history) label = some (next, later)) :
    Tracks config next later := by
  obtain ⟨moved, noted⟩ := (Machine.record_step_iff _ _ _ _ _).mp stepped
  dsimp only at moved noted
  have rested := step_rested tracks.rested label moved
  by_cases quiet : label = .operate
  · rw [quiet] at moved noted
    obtain ⟨stages, ran, isNext⟩ := operate_stages moved
    unfold noteCycle at noted
    dsimp only at noted
    rw [ran] at noted
    rw [← noted, ← isNext]
    rw [← isNext] at rested
    exact (cycle_stages config ran).tracks tracks rested
  · have banks := step_bankRequest quiet moved
    have same : later = history := by
      rw [← noted]
      cases label with
      | operate => exact absurd rfl quiet
      | addRq packet level currentTime => rfl
      | addWq packet currentTime => rfl
      | beginPhase warmup => rfl
    rw [same]
    refine ⟨rested, by rw [banks]; exact tracks.calm, tracks.refreshes, tracks.first, ?_, ?_,
      tracks.chained⟩
    · intro bank slot isSlot
      rw [banks] at isSlot
      exact tracks.owes bank slot isSlot
    · intro stages isLatest
      rw [banks]
      exact tracks.latest stages isLatest

theorem make_tracks (config : DramConfig) (rqSize wqSize : Nat) :
    Tracks config (make config.addressMapping rqSize wqSize) [] := by
  refine ⟨make_rested config.addressMapping rqSize wqSize, ?_, ?_, ?_, ?_, ?_, ?_⟩
  · intro slot member
    rw [List.eq_of_mem_replicate member]
    refine ⟨?_, ?_⟩
    · intro impossible
      cases impossible
    · intro impossible
      cases impossible
  · intro stages impossible
    cases impossible
  · intro bank first last stages later impossible
    cases impossible
  · intro bank slot _isSlot first stages impossible
    cases impossible
  · intro stages impossible
    cases impossible
  · intro index before after impossible
    cases impossible

/-- In every run, a refresh that is due goes before every later packet of its bank, keeps the
bank idle, closes its row, and is never forgotten. -/
theorem run_refreshes (config : DramConfig) (rqSize wqSize : Nat) (steps : List ChannelStep)
    (reached : DramChannel × List Cycle)
    (ran : (cycles config).run (make config.addressMapping rqSize wqSize, []) steps =
      some reached) :
    (∀ stages ∈ reached.2, Refreshes config stages) ∧ RefreshesFirst config reached.2 ∧
      Chained reached.2 := by
  have tracks := (cycles config).run_invariant (fun noted => Tracks config noted.1 noted.2)
    (fun _noted _label _next tracks stepped => tracks.step stepped) steps _ reached
    (make_tracks config rqSize wqSize) ran
  exact ⟨tracks.refreshes, tracks.first, tracks.chained⟩

/-- A run in which the first bank works at the tick, and is refreshed after the others. -/
theorem run_refreshes_lateRefresh :
    ∃ reached, (cycles refreshingBanks).run (make refreshingBanks.addressMapping 4 4, [])
        (lateRefresh ++ [.operate]) = some reached ∧
      ((∀ stages ∈ reached.2, Refreshes refreshingBanks stages) ∧
        RefreshesFirst refreshingBanks reached.2 ∧ Chained reached.2) := by
  have ran : ((cycles refreshingBanks).run (make refreshingBanks.addressMapping 4 4, [])
      (lateRefresh ++ [.operate])).isSome = true := by
    decide +kernel
  obtain ⟨reached, isReached⟩ := Option.isSome_iff_exists.mp ran
  exact ⟨reached, isReached, run_refreshes refreshingBanks 4 4 _ reached isReached⟩

end DramChannel

end ChampSim.Dram
