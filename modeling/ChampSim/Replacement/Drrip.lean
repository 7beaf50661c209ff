/-
The drrip replacement policy: some sets lead with one of two insertion
policies, and the others follow the one that does better.

Each core has 64 leaders in `rand_sets`, of which the code only knows the first
two. An `unsigned` is a word of 32 bits.
-/

import ChampSim.Cache.Replacement
import ChampSim.Library.Queue
import ChampSim.Msl.Fwcounter
import ChampSim.Replacement.Rrpv

set_option autoImplicit false

namespace ChampSim.Replacement

open Cache (UpdateCall VictimCall)
open Msl
open Outcome

def numPolicy : Nat := 2

def sdmSize : Nat := 32

structure DrripConfig where
  numSet : Nat
  numWay : Nat
  numCpus : Nat
  randSets : List Nat
  ways : 0 < numWay
  sampled : randSets.length = numCpus * numPolicy * sdmSize

namespace DrripConfig

variable (config : DrripConfig)

def leaders (triggeringCpu : Nat) : List Nat :=
  (config.randSets.drop (triggeringCpu * numPolicy * sdmSize)).take (numPolicy * sdmSize)

end DrripConfig

structure Drrip (config : DrripConfig) where
  bipCounter : BitVec 32
  psel : CArray config.numCpus (Fwcounter 10)
  rrpv : RrpvTable config.numSet config.numWay (BitVec 32)

namespace Drrip

variable {config : DrripConfig}

def maxRRPV : BitVec 32 := 3

def bipMax : BitVec 32 := 32

/-- The constructor, which leaves `bip_counter` as it is found. -/
def initial (config : DrripConfig) (bipCounter : BitVec 32) : Drrip config where
  bipCounter := bipCounter
  psel := CArray.fill _ default
  rrpv := CArray.fill _ 0

def setRrpv (drrip : Drrip config) (set way : Nat) (value : BitVec 32) :
    Except Fault (Drrip config) := do
  let rrpv ← RrpvTable.assign drrip.rrpv set way value
  .ok { drrip with rrpv }

def updateBip (drrip : Drrip config) (set way : Nat) : Except Fault (Drrip config) := do
  let filled ← drrip.setRrpv set way maxRRPV
  if filled.bipCounter + 1 = bipMax then
    ({ filled with bipCounter := 0 }).setRrpv set way (maxRRPV - 1)
  else .ok { filled with bipCounter := filled.bipCounter + 1 }

def updateSrrip (drrip : Drrip config) (set way : Nat) : Except Fault (Drrip config) :=
  drrip.setRrpv set way (maxRRPV - 1)

def trainPsel (drrip : Drrip config) (triggeringCpu : Nat)
    (change : Fwcounter 10 → Fwcounter 10) : Drrip config :=
  { drrip with psel := drrip.psel.set triggeringCpu (change (drrip.psel.get triggeringCpu)) }

/-- The insertion after a miss, by where the set is among the leaders. -/
def insert (drrip : Drrip config) (call : UpdateCall) : Except Fault (Drrip config) :=
  let leader := (config.leaders call.triggeringCpu).idxOf call.set
  if leader = (config.leaders call.triggeringCpu).length then
    let selector := drrip.psel.get call.triggeringCpu
    if selector.maximum / 2 < selector.value then drrip.updateBip call.set call.way
    else drrip.updateSrrip call.set call.way
  else if leader = 0 then
    (drrip.trainPsel call.triggeringCpu (fun selector => selector.subAssign 1)).updateBip
      call.set call.way
  else if leader = 1 then
    (drrip.trainPsel call.triggeringCpu (fun selector => selector.addAssign 1)).updateSrrip
      call.set call.way
  else .ok drrip

def updateReplacementState (drrip : Drrip config) (call : UpdateCall) :
    Except Fault (Drrip config) :=
  if call.type = .write then drrip.setRrpv call.set call.way (maxRRPV - 1)
  else if call.hit then drrip.setRrpv call.set call.way 0
  else if call.triggeringCpu < config.numCpus then drrip.insert call
  else .error .undefined

def setValues (drrip : Drrip config) (set : Nat) : List (BitVec 32) :=
  (List.range config.numWay).map (fun way => drrip.rrpv.get (set * config.numWay + way : Nat))

def aged (drrip : Drrip config) (set : Nat) (rrpvUpdate : BitVec 32) : Drrip config :=
  { drrip with
    rrpv := ⟨fun index =>
      if set * config.numWay ≤ index.val ∧ index.val < set * config.numWay + config.numWay then
        drrip.rrpv.cells index + rrpvUpdate
      else drrip.rrpv.cells index⟩ }

def findVictim (drrip : Drrip config) (call : VictimCall) : Except Fault (Nat × Drrip config) :=
  if call.set < config.numSet then do
    let victim ← need .undefined
      (Queue.maxElement (fun x y => decide (x < y)) (drrip.setValues call.set))
    let rrpvUpdate := maxRRPV - drrip.rrpv.get (call.set * config.numWay + victim : Nat)
    .ok (victim, if rrpvUpdate ≠ 0 then drrip.aged call.set rrpvUpdate else drrip)
  else .error .undefined

inductive Event where
  | update (call : UpdateCall)
  | victim (call : VictimCall)

def react (drrip : Drrip config) : Event → Except Fault (Drrip config)
  | .update call => drrip.updateReplacementState call
  | .victim call => (drrip.findVictim call).map Prod.snd

def run (drrip : Drrip config) (events : List Event) : Except Fault (Drrip config) :=
  events.foldlM react drrip

/-! ### A miss -/

def Inserted (value : BitVec 32) : Prop := value = maxRRPV ∨ value = maxRRPV - 1

def rrpvOf (drrip : Drrip config) (call : UpdateCall) : BitVec 32 :=
  drrip.rrpv.get (call.set * config.numWay + call.way : Nat)

theorem setRrpv_total (drrip : Drrip config) {set way : Nat} (value : BitVec 32)
    (isSet : set < config.numSet) (isWay : way < config.numWay) :
    ∃ next, drrip.setRrpv set way value = .ok next ∧
      next.rrpv.get (set * config.numWay + way : Nat) = value := by
  have element := RrpvTable.way_within isSet isWay
  exists { drrip with rrpv := drrip.rrpv.set (set * config.numWay + way : Nat) value }
  refine ⟨?_, CArray.get_set_same _ _ _ ⟨by omega, by omega⟩⟩
  unfold setRrpv RrpvTable.assign
  rw [if_pos element]
  rfl

def bipValue (bipCounter : BitVec 32) : BitVec 32 :=
  if bipCounter + 1 = bipMax then maxRRPV - 1 else maxRRPV

theorem bipValue_inserted (bipCounter : BitVec 32) : Inserted (bipValue bipCounter) := by
  unfold bipValue
  split
  · exact Or.inr rfl
  · exact Or.inl rfl

theorem setRrpv_counter {drrip next : Drrip config} {set way : Nat} {value : BitVec 32}
    (ran : drrip.setRrpv set way value = .ok next) : next.bipCounter = drrip.bipCounter := by
  obtain ⟨rrpv, _assigned, same⟩ := bind_ok ran
  rw [← Except.ok.inj same]

theorem updateBip_total (drrip : Drrip config) {set way : Nat}
    (isSet : set < config.numSet) (isWay : way < config.numWay) :
    ∃ next, drrip.updateBip set way = .ok next ∧
      next.rrpv.get (set * config.numWay + way : Nat) = bipValue drrip.bipCounter := by
  obtain ⟨filled, assigned, value⟩ := drrip.setRrpv_total maxRRPV isSet isWay
  unfold updateBip bipValue
  rw [assigned, ← setRrpv_counter assigned]
  change ∃ next, (if filled.bipCounter + 1 = bipMax then _ else _) = Except.ok next ∧ _
  split
  · exact ({ filled with bipCounter := 0 } : Drrip config).setRrpv_total _ isSet isWay
  · exact ⟨_, rfl, value⟩

/-- The sets that the code inserts for: all but the leaders after the second. -/
def Handled (config : DrripConfig) (call : UpdateCall) : Prop :=
  call.set ∉ config.leaders call.triggeringCpu ∨
    (config.leaders call.triggeringCpu).idxOf call.set = 0 ∨
    (config.leaders call.triggeringCpu).idxOf call.set = 1

def withRrpv (drrip : Drrip config)
    (rrpv : RrpvTable config.numSet config.numWay (BitVec 32)) : Drrip config :=
  { drrip with rrpv }

theorem insert_handled (drrip : Drrip config) {call : UpdateCall} (isSet : call.set < config.numSet)
    (isWay : call.way < config.numWay) (handled : Handled config call) :
    ∃ value, Inserted value ∧ ∀ rrpv, ∃ next,
      (drrip.withRrpv rrpv).insert call = .ok next ∧ next.rrpvOf call = value := by
  have far : Inserted (maxRRPV - 1) := Or.inr rfl
  unfold insert rrpvOf
  dsimp only
  split
  · change ∃ value, Inserted value ∧ ∀ rrpv, ∃ next,
      (if (drrip.psel.get call.triggeringCpu).maximum / 2 <
          (drrip.psel.get call.triggeringCpu).value then _ else _) = Except.ok next ∧ _
    split
    · exact ⟨_, bipValue_inserted drrip.bipCounter,
        fun rrpv => (drrip.withRrpv rrpv).updateBip_total isSet isWay⟩
    · exact ⟨_, far, fun rrpv => (drrip.withRrpv rrpv).setRrpv_total _ isSet isWay⟩
  · rename_i isLeader
    split
    · exact ⟨_, bipValue_inserted drrip.bipCounter, fun _ => updateBip_total _ isSet isWay⟩
    · rename_i notFirst
      split
      · exact ⟨_, far, fun _ => setRrpv_total _ _ isSet isWay⟩
      · rename_i notSecond
        rcases handled with absent | first | second
        · exact absurd (List.idxOf_eq_length absent) isLeader
        · exact absurd first notFirst
        · exact absurd second notSecond

theorem insert_unhandled (drrip : Drrip config) {call : UpdateCall}
    (unhandled : ¬Handled config call) : drrip.insert call = .ok drrip := by
  unfold Handled at unhandled
  push Not at unhandled
  obtain ⟨isLeader, notFirst, notSecond⟩ := unhandled
  unfold insert
  dsimp only
  rw [if_neg (Nat.ne_of_lt (List.idxOf_lt_length_of_mem isLeader)), if_neg notFirst,
    if_neg notSecond]

/-- A call sets one of the two values, whatever the way had before. -/
def Inserts (drrip : Drrip config) (call : UpdateCall) : Prop :=
  ∃ value, Inserted value ∧ ∀ old, ∃ next,
    (drrip.withRrpv (drrip.rrpv.set (call.set * config.numWay + call.way : Nat)
      old)).updateReplacementState call = .ok next ∧ next.rrpvOf call = value

theorem update_miss (drrip : Drrip config) {call : UpdateCall}
    (isCpu : call.triggeringCpu < config.numCpus) (isSet : call.set < config.numSet)
    (isWay : call.way < config.numWay) (isAccess : call.type ≠ .write) (misses : call.hit = false) :
    Inserts drrip call ↔ Handled config call := by
  have missing : ∀ state : Drrip config,
      state.updateReplacementState call = state.insert call := by
    intro state
    unfold updateReplacementState
    rw [if_neg isAccess, misses, if_neg Bool.false_ne_true, if_pos isCpu]
  unfold Inserts
  simp only [missing]
  constructor
  · rintro ⟨value, inserted, sets⟩
    by_contra unhandled
    obtain ⟨next, ran, isValue⟩ := sets 0
    rw [insert_unhandled _ unhandled] at ran
    have element := RrpvTable.way_within isSet isWay
    have kept : next.rrpvOf call = 0 := by
      rw [← Except.ok.inj ran]
      exact CArray.get_set_same _ _ _ ⟨by omega, by omega⟩
    rw [← isValue, kept] at inserted
    exact absurd inserted (by unfold Inserted; decide)
  · intro handled
    obtain ⟨value, inserted, sets⟩ := drrip.insert_handled isSet isWay handled
    exact ⟨value, inserted, fun _old => sets _⟩

/-! ### The selector -/

theorem setRrpv_psel {drrip next : Drrip config} {set way : Nat} {value : BitVec 32}
    (ran : drrip.setRrpv set way value = .ok next) : next.psel = drrip.psel := by
  obtain ⟨rrpv, _assigned, same⟩ := bind_ok ran
  rw [← Except.ok.inj same]

theorem updateBip_psel {drrip next : Drrip config} {set way : Nat}
    (ran : drrip.updateBip set way = .ok next) : next.psel = drrip.psel := by
  obtain ⟨filled, assigned, rest⟩ := bind_ok ran
  have kept := setRrpv_psel assigned
  split at rest
  · exact (setRrpv_psel rest).trans kept
  · rw [← Except.ok.inj rest]
    exact kept

theorem update_psel {drrip next : Drrip config} {call : UpdateCall}
    (ran : drrip.updateReplacementState call = .ok next)
    (follower : call.set ∉ config.leaders call.triggeringCpu) : next.psel = drrip.psel := by
  unfold updateReplacementState at ran
  split at ran
  · exact setRrpv_psel ran
  · split at ran
    · exact setRrpv_psel ran
    · split at ran
      · unfold insert at ran
        dsimp only at ran
        rw [if_pos (List.idxOf_eq_length follower)] at ran
        split at ran
        · exact updateBip_psel ran
        · exact setRrpv_psel ran
      · cases ran

/-! ### Bounds -/

def Bounded (drrip : Drrip config) : Prop := ∀ index, drrip.rrpv.cells index ≤ maxRRPV

theorem setRrpv_bounded {drrip next : Drrip config} {set way : Nat} {value : BitVec 32}
    (bounded : Bounded drrip) (small : value ≤ maxRRPV)
    (ran : drrip.setRrpv set way value = .ok next) : Bounded next := by
  obtain ⟨rrpv, assigned, same⟩ := bind_ok ran
  rw [← Except.ok.inj same]
  intro index
  dsimp only
  rw [(RrpvTable.assign_ok assigned).2]
  unfold CArray.set
  dsimp only
  split
  · exact small
  · exact bounded index

theorem updateBip_bounded {drrip next : Drrip config} {set way : Nat} (bounded : Bounded drrip)
    (ran : drrip.updateBip set way = .ok next) : Bounded next := by
  obtain ⟨filled, assigned, rest⟩ := bind_ok ran
  have boundedFilled := setRrpv_bounded bounded (by decide) assigned
  split at rest
  · have same : Bounded { filled with bipCounter := 0 } := boundedFilled
    exact setRrpv_bounded same (by decide) rest
  · rw [← Except.ok.inj rest]
    exact boundedFilled

theorem insert_bounded {drrip next : Drrip config} {call : UpdateCall} (bounded : Bounded drrip)
    (ran : drrip.insert call = .ok next) : Bounded next := by
  have trained : ∀ change, Bounded (drrip.trainPsel call.triggeringCpu change) :=
    fun _change => bounded
  unfold insert at ran
  dsimp only at ran
  split at ran
  · split at ran
    · exact updateBip_bounded bounded ran
    · exact setRrpv_bounded bounded (by decide) ran
  · split at ran
    · exact updateBip_bounded (trained _) ran
    · split at ran
      · exact setRrpv_bounded (trained _) (by decide) ran
      · rw [← Except.ok.inj ran]
        exact bounded

theorem update_bounded {drrip next : Drrip config} {call : UpdateCall} (bounded : Bounded drrip)
    (ran : drrip.updateReplacementState call = .ok next) : Bounded next := by
  unfold updateReplacementState at ran
  split at ran
  · exact setRrpv_bounded bounded (by decide) ran
  · split at ran
    · exact setRrpv_bounded bounded (by decide) ran
    · split at ran
      · exact insert_bounded bounded ran
      · cases ran

theorem victim_largest {drrip : Drrip config} {set victim : Nat}
    (isVictim : Queue.maxElement (fun x y => decide (x < y)) (drrip.setValues set) =
      some victim) :
    victim < config.numWay ∧ ∀ way, way < config.numWay →
      drrip.rrpv.get (set * config.numWay + way : Nat) ≤
        drrip.rrpv.get (set * config.numWay + victim : Nat) := by
  have size : (drrip.setValues set).length = config.numWay := by
    unfold setValues
    rw [List.length_map, List.length_range]
  have reads : ∀ way, way < config.numWay → (drrip.setValues set)[way]? =
      some (drrip.rrpv.get (set * config.numWay + way : Nat)) := by
    intro way within
    unfold setValues
    rw [List.getElem?_map, List.getElem?_range within, Option.map_some]
  have nonempty : drrip.setValues set ≠ [] := by
    have ways := config.ways
    exact List.ne_nil_of_mem (List.mem_of_getElem? (reads 0 ways))
  obtain ⟨index, best, found, greatest⟩ := Queue.maxElement_greatest BitVec.toNat
    (fun lhs rhs => decide_eq_decide.mpr BitVec.lt_def) (drrip.setValues set) nonempty
  rw [isVictim, Option.some.injEq] at found
  subst found
  have within := (List.getElem?_eq_some_iff.mp greatest.present).1
  rw [size] at within
  have isBest := greatest.present
  rw [reads victim within, Option.some.injEq] at isBest
  refine ⟨within, ?_⟩
  intro way inside
  rw [isBest, BitVec.le_def]
  exact greatest.greatest _ (List.mem_of_getElem? (reads way inside))

/-- The values of a set are aged by what its largest is short of, so that none gets over it. -/
theorem findVictim_bounded {drrip : Drrip config} {call : VictimCall} {result : Nat × Drrip config}
    (bounded : Bounded drrip) (ran : drrip.findVictim call = .ok result) : Bounded result.2 := by
  unfold findVictim at ran
  split at ran
  · obtain ⟨victim, found, same⟩ := bind_ok ran
    rw [← Except.ok.inj same]
    dsimp only
    split
    · obtain ⟨isWay, largest⟩ := victim_largest (need_ok found)
      intro index
      unfold aged
      dsimp only
      split
      · rename_i isSet _aged inSet
        have inBounds := RrpvTable.way_within isSet isWay
        have value := largest (index.val - call.set * config.numWay) (by omega)
        rw [show call.set * config.numWay + (index.val - call.set * config.numWay) = index.val by
          omega] at value
        have own : drrip.rrpv.get (index.val : Nat) = drrip.rrpv.cells index := by
          unfold CArray.get
          rw [dif_pos ⟨by omega, by omega⟩]
          rfl
        have most : drrip.rrpv.get (call.set * config.numWay + victim : Nat) ≤ maxRRPV := by
          unfold CArray.get
          rw [dif_pos ⟨by omega, by omega⟩]
          exact bounded _
        rw [own] at value
        have top : maxRRPV = 3 := rfl
        rw [top] at most ⊢
        bv_omega
      · exact bounded index
    · exact bounded
  · cases ran

theorem react_bounded {drrip next : Drrip config} {event : Event} (bounded : Bounded drrip)
    (ran : drrip.react event = .ok next) : Bounded next := by
  cases event with
  | update call => exact update_bounded bounded ran
  | victim call =>
      obtain ⟨result, found, same⟩ := map_ok ran
      rw [← same]
      exact findVictim_bounded bounded found

theorem run_bounded (config : DrripConfig) (bipCounter : BitVec 32) (events : List Event) :
    Ends (fun _ => True) ((initial config bipCounter).run events) Bounded := by
  apply foldlM_ends
  · intro drrip event _member bounded
    exact ends_of_ok (fun next ran => react_bounded bounded ran)
  · intro index
    exact show (0 : BitVec 32) ≤ maxRRPV by decide

/-- A miss sets one of the two values, whatever the way had before, just when the set is no leader
or one of the first two leaders of its core. Only leaders train the selector, and no value gets
over the largest. -/
theorem update_inserts (config : DrripConfig) :
    (∀ (drrip : Drrip config) (call : UpdateCall), call.triggeringCpu < config.numCpus →
      call.set < config.numSet → call.way < config.numWay → call.type ≠ .write →
      call.hit = false → (Inserts drrip call ↔ Handled config call)) ∧
    (∀ (drrip next : Drrip config) (call : UpdateCall),
      drrip.updateReplacementState call = .ok next → next.psel ≠ drrip.psel →
      call.set ∈ config.leaders call.triggeringCpu) ∧
    ∀ (bipCounter : BitVec 32) (events : List Event) (final : Drrip config),
      (initial config bipCounter).run events = .ok final →
      ∀ index, final.rrpv.cells index ≤ maxRRPV := by
  refine ⟨?_, ?_, ?_⟩
  · intro drrip call isCpu isSet isWay isAccess misses
    exact drrip.update_miss isCpu isSet isWay isAccess misses
  · intro drrip next call ran changed
    by_contra follower
    exact changed (update_psel ran follower)
  · intro bipCounter events final ran
    have bounded := run_bounded config bipCounter events
    rw [ran] at bounded
    exact bounded

def firstLeaders : DrripConfig where
  numSet := 128
  numWay := 1
  numCpus := 1
  randSets := List.range 64
  ways := Nat.one_pos
  sampled := List.length_range

def fillCall (set : Nat) : UpdateCall where
  triggeringCpu := 0
  set := set
  way := 0
  fullAddr := 0
  ip := 0
  victimAddr := 0
  type := .load
  hit := false

/-- The third leader is not inserted for: its way keeps what it had. -/
theorem update_thirdLeader :
    ∃ next, (initial firstLeaders 0).updateReplacementState (fillCall 2) = .ok next ∧
      ¬Inserted (next.rrpvOf (fillCall 2)) := by
  have unhandled : ¬Handled firstLeaders (fillCall 2) := by
    unfold Handled
    decide
  refine ⟨initial firstLeaders 0, ?_, ?_⟩
  · exact insert_unhandled _ unhandled
  · unfold Inserted
    decide

theorem update_inserts_secondLeader : Inserts (initial firstLeaders 0) (fillCall 1) := by
  apply ((update_inserts firstLeaders).1 (initial firstLeaders 0) (fillCall 1) (by decide)
    (by decide) (by decide) nofun rfl).mpr
  unfold Handled
  decide

end Drrip

end ChampSim.Replacement
