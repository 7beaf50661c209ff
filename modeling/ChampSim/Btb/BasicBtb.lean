/-
The basic branch target buffer: a set-associative table for direct branches, a
table of targets for indirect ones, and a return stack.

`none` is the `std::range_error` of the set-associative table. The warnings
that the return stack prints are left out.
-/

import ChampSim.Address
import ChampSim.Core.Instruction
import ChampSim.Library.CArray
import ChampSim.Library.Nesting
import ChampSim.Library.ShiftRegister
import ChampSim.Msl.LruTable

set_option autoImplicit false

namespace ChampSim.Btb

open ChampSim.Core (BranchType)
open Msl
open Nesting
open ShiftRegister (push)

/-- `branch_info`. -/
inductive BranchInfo where
  | indirect
  | returns
  | alwaysTaken
  | conditional
deriving DecidableEq, Repr

structure BtbEntry where
  ipTag : Address
  target : Address
  type : BranchInfo
deriving DecidableEq, Repr

namespace BtbEntry

instance : Inhabited BtbEntry := ⟨⟨0, 0, .alwaysTaken⟩⟩

def index (entry : BtbEntry) : Int := (entry.ipTag.sliceUpper 2).toNat

def tag (entry : BtbEntry) : BitVec 64 := entry.ipTag.sliceUpper 2

end BtbEntry

abbrev DirectPredictor := LruTable BtbEntry (BitVec 64)

namespace DirectPredictor

def sets : Nat := 1024

def ways : Nat := 8

def empty : DirectPredictor where
  setProjection := BtbEntry.index
  tagProjection := BtbEntry.tag
  numSet := sets
  numWay := ways
  accessCount := 0
  block := List.replicate (sets * ways) default
  positive := by decide
  sized := List.length_replicate

theorem make_eq : LruTable.make sets ways BtbEntry.index BtbEntry.tag = some empty := rfl

def typeOf (branchType : BranchType) : BranchInfo :=
  if branchType = .branchIndirect ∨ branchType = .branchIndirectCall then .indirect
  else if branchType = .branchReturn then .returns
  else if branchType = .branchConditional then .conditional
  else .alwaysTaken

def refreshed (entry : BtbEntry) (branchTarget : Address) (type : BranchInfo) : BtbEntry :=
  { entry with type, target := if branchTarget ≠ 0 then branchTarget else entry.target }

def update (direct : DirectPredictor) (ip branchTarget : Address) (branchType : BranchType) :
    Option DirectPredictor := do
  let fresh : BtbEntry := ⟨ip, branchTarget, typeOf branchType⟩
  let (optEntry, checked) ← direct.checkHit fresh
  let changed := optEntry.map (fun entry => refreshed entry branchTarget (typeOf branchType))
  if branchTarget ≠ 0 then checked.fill (changed.getD fresh) else some checked

end DirectPredictor

structure IndirectPredictor where
  predictor : CArray 4096 Address
  conditionalHistory : BitVec 12

namespace IndirectPredictor

def index (indirect : IndirectPredictor) (ip : Address) : Int :=
  (((ip.sliceUpper 2) ^^^ indirect.conditionalHistory.setWidth 64).toNat % 4096 : Nat)

def updateTarget (indirect : IndirectPredictor) (ip branchTarget : Address) : IndirectPredictor :=
  { indirect with predictor := indirect.predictor.set (indirect.index ip) branchTarget }

def updateDirection (indirect : IndirectPredictor) (taken : Bool) : IndirectPredictor :=
  { indirect with conditionalHistory := push indirect.conditionalHistory taken }

end IndirectPredictor

/-- `return_stack`, with the back of the deque at the end of the list. -/
structure ReturnStack where
  stack : List Address
  callSizeTrackers : CArray 1024 Int

namespace ReturnStack

def maxSize : Nat := 64

def trackerIndex (ip : Address) : Int := ip.slice 0 10

def pushCall (ras : ReturnStack) (ip : Address) : ReturnStack :=
  { ras with
    stack := if maxSize < (ras.stack ++ [ip]).length then (ras.stack ++ [ip]).tail
      else ras.stack ++ [ip] }

/-- `uoffset` of the lower and the higher of two addresses. -/
def estimatedCallInstrSize (callIp branchTarget : Address) : Nat :=
  if branchTarget < callIp then (callIp - branchTarget).toNat else (branchTarget - callIp).toNat

def calibrateCallSize (ras : ReturnStack) (branchTarget : Address) : ReturnStack :=
  match ras.stack.getLast? with
  | none => ras
  | some callIp =>
      { stack := ras.stack.dropLast
        callSizeTrackers :=
          if estimatedCallInstrSize callIp branchTarget ≤ 10 then
            ras.callSizeTrackers.set (trackerIndex callIp)
              (estimatedCallInstrSize callIp branchTarget)
          else ras.callSizeTrackers }

end ReturnStack

structure BasicBtb where
  ras : ReturnStack
  indirect : IndirectPredictor
  direct : DirectPredictor

/-- The arguments of `update_btb`. -/
structure BranchUpdate where
  ip : Address
  branchTarget : Address := 0
  taken : Bool := true
  branchType : BranchType
deriving DecidableEq, Repr

namespace BasicBtb

def init : BasicBtb where
  ras := ⟨[], CArray.fill 1024 4⟩
  indirect := ⟨CArray.fill 4096 0, 0⟩
  direct := DirectPredictor.empty

def isCall (branchType : BranchType) : Bool :=
  decide (branchType = .branchDirectCall) || decide (branchType = .branchIndirectCall)

def updateRas (ras : ReturnStack) (update : BranchUpdate) : ReturnStack :=
  let pushed := if isCall update.branchType then ras.pushCall update.ip else ras
  if update.branchType = .branchReturn then pushed.calibrateCallSize update.branchTarget
  else pushed

def updateIndirect (indirect : IndirectPredictor) (update : BranchUpdate) : IndirectPredictor :=
  let targeted :=
    if update.branchType = .branchIndirect ∨ update.branchType = .branchIndirectCall then
      indirect.updateTarget update.ip update.branchTarget
    else indirect
  if update.branchType = .branchConditional then targeted.updateDirection update.taken
  else targeted

/-- The three parts are updated on their own, in the order of the source. -/
def updateBtb (btb : BasicBtb) (update : BranchUpdate) : Option BasicBtb := do
  let ras := updateRas btb.ras update
  let indirect := updateIndirect btb.indirect update
  let direct ← btb.direct.update update.ip update.branchTarget update.branchType
  some { ras, indirect, direct }

def run (btb : BasicBtb) (updates : List BranchUpdate) : Option BasicBtb :=
  updates.foldlM updateBtb btb

/-! ### The parts -/

/-- No entry is in a negative set, so that the table never throws. -/
def Indexed (btb : BasicBtb) : Prop := ∀ entry, 0 ≤ btb.direct.setProjection entry

theorem init_indexed : Indexed init := fun _entry => Int.natCast_nonneg _

theorem direct_update_isSome {direct : DirectPredictor}
    (indexed : ∀ entry, 0 ≤ direct.setProjection entry) (ip branchTarget : Address)
    (branchType : BranchType) :
    ∃ next, direct.update ip branchTarget branchType = some next ∧
      next.setProjection = direct.setProjection := by
  obtain ⟨found, checked, hit, kept⟩ :=
    LruTable.checkHit_isSome (indexed ⟨ip, branchTarget, DirectPredictor.typeOf branchType⟩)
  unfold DirectPredictor.update
  dsimp only
  rw [hit]
  change ∃ next, (if branchTarget ≠ 0 then _ else some checked) = some next ∧ _
  split
  · have later : ∀ entry, 0 ≤ checked.setProjection entry := by
      rw [kept]
      exact indexed
    obtain ⟨next, filled, keptLater⟩ := LruTable.fill_isSome (later (_ : BtbEntry))
    exact ⟨next, filled, keptLater.trans kept⟩
  · exact ⟨checked, rfl, kept⟩

theorem updateBtb_isSome {btb : BasicBtb} (indexed : Indexed btb) (update : BranchUpdate) :
    ∃ next, btb.updateBtb update = some next ∧ Indexed next ∧
      next.ras = updateRas btb.ras update := by
  obtain ⟨direct, updated, kept⟩ :=
    direct_update_isSome indexed update.ip update.branchTarget update.branchType
  unfold updateBtb
  rw [updated]
  refine ⟨_, rfl, ?_, rfl⟩
  intro entry
  change 0 ≤ direct.setProjection entry
  rw [kept]
  exact indexed entry

/-! ### The return stack -/

/-- Calls open and returns close. -/
def mark (update : BranchUpdate) : Mark :=
  if isCall update.branchType then .opening
  else if update.branchType = .branchReturn then .closing
  else .neutral

theorem mark_call {update : BranchUpdate} :
    mark update = .opening ↔ isCall update.branchType = true := by
  unfold mark
  split
  · rename_i call
    exact ⟨fun _ => call, fun _ => rfl⟩
  · rename_i noCall
    constructor
    · intro impossible
      split at impossible
      · cases impossible
      · cases impossible
    · intro call
      exact absurd call noCall

theorem mark_return {update : BranchUpdate} (isReturn : update.branchType = .branchReturn) :
    mark update = .closing := by
  unfold mark
  rw [isReturn]
  rfl

theorem pushCall_reverse (ras : ReturnStack) (ip : Address)
    (bounded : ras.stack.length ≤ ReturnStack.maxSize) :
    (ras.pushCall ip).stack.reverse = (ip :: ras.stack.reverse).take ReturnStack.maxSize := by
  have size : (ip :: ras.stack.reverse).length = ras.stack.length + 1 := by
    rw [List.length_cons, List.length_reverse]
  unfold ReturnStack.pushCall
  dsimp only
  rw [List.length_append, List.length_singleton]
  split
  · rw [← List.dropLast_reverse, List.reverse_append, List.reverse_singleton,
      List.singleton_append, List.dropLast_eq_take, size]
    congr 1
    omega
  · rw [List.take_of_length_le (by omega), List.reverse_append, List.reverse_singleton,
      List.singleton_append]

theorem calibrateCallSize_stack (ras : ReturnStack) (branchTarget : Address) :
    (ras.calibrateCallSize branchTarget).stack = ras.stack.dropLast := by
  unfold ReturnStack.calibrateCallSize
  split
  · rename_i empty
    rw [List.getLast?_eq_none_iff.mp empty, List.dropLast_nil]
  · rfl

theorem updateRas_follow (ras : ReturnStack) (update : BranchUpdate)
    (bounded : ras.stack.length ≤ ReturnStack.maxSize) :
    (updateRas ras update).stack.reverse =
      follow mark BranchUpdate.ip ReturnStack.maxSize ras.stack.reverse update := by
  unfold updateRas follow mark
  dsimp only
  cases call : isCall update.branchType with
  | true =>
      have noReturn : update.branchType ≠ .branchReturn := by
        intro isReturn
        rw [isReturn] at call
        cases call
      rw [if_pos rfl, if_neg noReturn, if_pos rfl]
      exact pushCall_reverse ras update.ip bounded
  | false =>
      rw [if_neg Bool.false_ne_true, if_neg Bool.false_ne_true]
      by_cases isReturn : update.branchType = .branchReturn
      · rw [if_pos isReturn, if_pos isReturn, calibrateCallSize_stack, List.tail_reverse]
      · rw [if_neg isReturn, if_neg isReturn]

theorem run_follow (updates : List BranchUpdate) {btb : BasicBtb} (indexed : Indexed btb)
    (bounded : btb.ras.stack.length ≤ ReturnStack.maxSize) :
    ∃ after, btb.run updates = some after ∧ after.ras.stack.reverse =
      updates.foldl (follow mark BranchUpdate.ip ReturnStack.maxSize) btb.ras.stack.reverse := by
  induction updates generalizing btb with
  | nil => exact ⟨btb, rfl, rfl⟩
  | cons update rest ih =>
      obtain ⟨next, updated, indexedNext, ras⟩ := updateBtb_isSome indexed update
      have followed := updateRas_follow btb.ras update bounded
      have boundedNext : next.ras.stack.length ≤ ReturnStack.maxSize := by
        rw [ras, ← List.length_reverse, followed]
        apply follow_length_le
        rw [List.length_reverse]
        exact bounded
      obtain ⟨after, ran, same⟩ := ih indexedNext boundedNext
      refine ⟨after, ?_, ?_⟩
      · unfold run at ran ⊢
        rw [List.foldlM_cons, updated]
        exact ran
      · rw [same, ras, followed, List.foldl_cons]

/-- The latest call that has not returned, and the most calls that were outstanding above it at
the same time. -/
def LatestCall (front : List BranchUpdate) (ip : Address) (above : Nat) : Prop :=
  ∃ before call inner, front = before ++ call :: inner ∧ isCall call.branchType = true ∧
    call.ip = ip ∧ Balanced mark inner above

/-- In a well-nested sequence, a return finds its call on the top of the stack when fewer than
64 calls were ever outstanding above it, and an empty stack otherwise. -/
theorem run_returns (btb : BasicBtb) (indexed : Indexed btb) (empty : btb.ras.stack = [])
    (updates : List BranchUpdate) (nested : (outstanding mark updates).isSome) :
    (∀ front, front <+: updates →
      ∃ after, btb.run front = some after ∧ after.ras.stack.length ≤ 64) ∧
    ∀ front last, front ++ [last] <+: updates → last.branchType = .branchReturn →
      ∃ after, btb.run front = some after ∧ (∃ ip above, LatestCall front ip above) ∧
        ∀ ip above, LatestCall front ip above →
          if above < 64 then after.ras.stack.getLast? = some ip else after.ras.stack = [] := by
  have runs : ∀ front, ∃ after, btb.run front = some after ∧ after.ras.stack.reverse =
      front.foldl (follow mark BranchUpdate.ip ReturnStack.maxSize) [] := by
    intro front
    obtain ⟨after, ran, same⟩ := run_follow front indexed (by rw [empty]; exact Nat.zero_le _)
    rw [empty, List.reverse_nil] at same
    exact ⟨after, ran, same⟩
  constructor
  · intro front _earlier
    obtain ⟨after, ran, same⟩ := runs front
    refine ⟨after, ran, ?_⟩
    rw [← List.length_reverse, same]
    exact foldl_follow_length_le BranchUpdate.ip front (Nat.zero_le _)
  · intro front last earlier isReturn
    obtain ⟨after, ran, same⟩ := runs front
    refine ⟨after, ran, ?_, ?_⟩
    · obtain ⟨before, call, inner, above, shape, opens, inside⟩ :=
        exists_opening (outstanding_front earlier nested) (mark_return isReturn)
      exact ⟨call.ip, above, before, call, inner, shape, mark_call.mp opens, rfl, inside⟩
    · rintro ip above ⟨before, call, inner, shape, isCall, sameIp, inside⟩
      rw [shape, foldl_follow_opening BranchUpdate.ip (mark_call.mpr isCall) inside, sameIp] at same
      change _ = List.take (64 - above) _ at same
      split
      · rw [← List.head?_reverse, same, List.head?_take, if_neg (by omega), List.head?_cons]
      · rw [show 64 - above = 0 by omega, List.take_zero, List.reverse_eq_nil_iff] at same
        exact same

/-- A function that starts at `ip` calls the one 64 bytes further on, and so on `depth` deep. -/
def callsInside (ip : Address) : Nat → List BranchUpdate
  | 0 => []
  | depth + 1 =>
      ⟨ip, ip + 64, true, .branchDirectCall⟩ ::
        (callsInside (ip + 64) depth ++ [⟨ip + 68, ip + 4, true, .branchReturn⟩])

theorem callsInside_balanced (depth : Nat) :
    ∀ ip, Balanced mark (callsInside ip depth) depth := by
  induction depth with
  | zero =>
      intro _ip
      exact .empty
  | succ depth ih =>
      intro ip
      have opens : mark ⟨ip, ip + 64, true, .branchDirectCall⟩ = .opening := rfl
      have closes : mark ⟨ip + 68, ip + 4, true, .branchReturn⟩ = .closing := rfl
      have within := Balanced.nest opens (ih (ip + 64)) closes .empty
      rw [Nat.max_zero] at within
      exact within

/-- The call whose return comes after `depth` calls inside each other. -/
def outerCall : BranchUpdate := ⟨0x400000, 0x500000, true, .branchDirectCall⟩

def outerReturn : BranchUpdate := ⟨0x500004, 0x400004, true, .branchReturn⟩

/-- The call is on the top after 63 calls inside each other, and lost after 64. -/
theorem run_returns_overflows :
    (∃ after, init.run (outerCall :: callsInside 0x500000 63) = some after ∧
      after.ras.stack.getLast? = some 0x400000) ∧
    ∃ after, init.run (outerCall :: callsInside 0x500000 64) = some after ∧
      after.ras.stack = [] := by
  constructor
  · obtain ⟨after, ran, _some, top⟩ := (run_returns init init_indexed rfl
      (outerCall :: callsInside 0x500000 63 ++ [outerReturn]) (by decide +kernel)).2
      (outerCall :: callsInside 0x500000 63) outerReturn (List.prefix_refl _) rfl
    exact ⟨after, ran, top 0x400000 63 ⟨[], outerCall, _, rfl, rfl, rfl, callsInside_balanced 63 _⟩⟩
  · obtain ⟨after, ran, _some, top⟩ := (run_returns init init_indexed rfl
      (outerCall :: callsInside 0x500000 64 ++ [outerReturn]) (by decide +kernel)).2
      (outerCall :: callsInside 0x500000 64) outerReturn (List.prefix_refl _) rfl
    exact ⟨after, ran, top 0x400000 64 ⟨[], outerCall, _, rfl, rfl, rfl, callsInside_balanced 64 _⟩⟩

end BasicBtb

end ChampSim.Btb
