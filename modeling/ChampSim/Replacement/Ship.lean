/-
The sampler of the ship replacement policy.

Some sets are sampled, and what is accessed in them is kept in entries of their
own. The entries of a set are `NUM_WAY` ones from the position of the set in
`rand_sets` on, so that the entries of neighbours are the same.
-/

import ChampSim.Cache.Replacement
import ChampSim.Library.Queue
import ChampSim.Msl.Fwcounter
import ChampSim.Replacement.Rrpv

set_option autoImplicit false

namespace ChampSim.Replacement

open Cache (UpdateCall)
open Msl
open Outcome

def samplerSetFactor : Nat := 256

/-- `SAMPLER_class`. -/
structure SamplerClass where
  valid : Bool := false
  used : Bool := false
  address : Address := 0
  ip : Address := 0
  lastUsed : Nat := 0
deriving DecidableEq, Repr

instance : Inhabited SamplerClass := ⟨{}⟩

structure ShipConfig where
  numSet : Nat
  numWay : Nat
  numCpus : Nat
  randSets : List Nat
  ways : 0 < numWay
  sampled : randSets.length = samplerSetFactor * numCpus

namespace ShipConfig

variable (config : ShipConfig)

def samplerSize : Nat := samplerSetFactor * config.numCpus * config.numWay

/-- Where a set is in `rand_sets`. -/
def position (set : Nat) : Nat := config.randSets.idxOf set

end ShipConfig

abbrev Shct := CArray 16384 (Fwcounter 3)

structure Ship (config : ShipConfig) where
  accessCount : Nat
  sampler : CArray config.samplerSize SamplerClass
  rrpvValues : RrpvTable config.numSet config.numWay Int
  shct : CArray config.numCpus Shct

namespace Ship

variable {config : ShipConfig}

def maxRRPV : Int := 3

def shctPrime : Nat := 16381

def initial (config : ShipConfig) : Ship config where
  accessCount := 0
  sampler := CArray.fill _ default
  rrpvValues := CArray.fill _ maxRRPV
  shct := CArray.fill _ default

/-- The element of `SHCT` that an instruction trains. -/
def shctIdx (ip : Address) : Nat := ip.slice 0 32 % shctPrime

def shctAt (ship : Ship config) (triggeringCpu : Nat) (ip : Address) :
    Except Fault (Fwcounter 3) :=
  if triggeringCpu < config.numCpus then
    .ok ((ship.shct.get triggeringCpu).get (shctIdx ip))
  else .error .undefined

def shctModify (ship : Ship config) (triggeringCpu : Nat) (ip : Address)
    (change : Fwcounter 3 → Fwcounter 3) : Except Fault (Ship config) := do
  let counter ← ship.shctAt triggeringCpu ip
  .ok { ship with
    shct := ship.shct.set triggeringCpu
      ((ship.shct.get triggeringCpu).set (shctIdx ip) (change counter)) }

def setRrpv (ship : Ship config) (set way : Nat) (value : Int) : Except Fault (Ship config) := do
  let rrpvValues ← RrpvTable.assign ship.rrpvValues set way value
  .ok { ship with rrpvValues }

def window (ship : Ship config) (start : Nat) : List SamplerClass :=
  (List.range config.numWay).map (fun way => ship.sampler.get (start + way : Nat))

def matchesAddress (config : ShipConfig) (addr : Address) (entry : SamplerClass) : Bool :=
  entry.valid &&
    decide (entry.address.sliceUpper (8 + Nat.log2 config.numWay) =
      addr.sliceUpper (8 + Nat.log2 config.numWay))

/-- The entry of a window that an access uses, and whether it is a hit. -/
def entryFor (config : ShipConfig) (window : List SamplerClass) (addr : Address) :
    Option (Nat × Bool) :=
  match window.findIdx? (matchesAddress config addr) with
  | some way => some (way, true)
  | none =>
      (Queue.minElement (fun x y => decide (x.lastUsed < y.lastUsed)) window).map
        (fun way => (way, false))

def touched (entry : SamplerClass) (call : UpdateCall) (isMatch : Bool) (time : Nat) :
    SamplerClass :=
  if isMatch then { entry with used := true, lastUsed := time }
  else
    { valid := true, used := false, address := call.fullAddr, ip := call.ip, lastUsed := time }

/-- What the entry's instruction learns from a hit, or from being replaced after one. -/
def trainShct (ship : Ship config) (triggeringCpu : Nat) (entry : SamplerClass)
    (isMatch : Bool) : Except Fault (Ship config) :=
  if isMatch then ship.shctModify triggeringCpu entry.ip (fun counter => counter.subAssign 1)
  else if entry.used then
    ship.shctModify triggeringCpu entry.ip (fun counter => counter.addAssign 1)
  else .ok ship

def updateSampler (ship : Ship config) (call : UpdateCall) : Except Fault (Ship config) :=
  if call.set ∈ config.randSets then do
    let start := config.position call.set
    let (way, isMatch) ← need .undefined (entryFor config (ship.window start) call.fullAddr)
    let entry := ship.sampler.get (start + way : Nat)
    let trained ← ship.trainShct call.triggeringCpu entry isMatch
    .ok { trained with
      sampler := ship.sampler.set (start + way : Nat)
        (touched entry call isMatch ship.accessCount)
      accessCount := ship.accessCount + 1 }
  else .ok ship

def updateReplacementState (ship : Ship config) (call : UpdateCall) : Except Fault (Ship config) :=
  if call.type = .write then
    if !call.hit then ship.setRrpv call.set call.way (maxRRPV - 1) else .ok ship
  else do
    let sampled ← ship.updateSampler call
    if call.hit then sampled.setRrpv call.set call.way 0
    else do
      let predicted ← sampled.setRrpv call.set call.way (maxRRPV - 1)
      let counter ← predicted.shctAt call.triggeringCpu call.ip
      if counter.value = counter.maximum then predicted.setRrpv call.set call.way maxRRPV
      else .ok predicted

def run (ship : Ship config) (calls : List UpdateCall) : Except Fault (Ship config) :=
  calls.foldlM updateReplacementState ship

/-! ### One access -/

theorem setRrpv_ok {ship next : Ship config} {set way : Nat} {value : Int}
    (ran : ship.setRrpv set way value = .ok next) :
    set < config.numSet ∧ ∃ rrpvValues, next = { ship with rrpvValues := rrpvValues } := by
  obtain ⟨rrpvValues, assigned, same⟩ := bind_ok ran
  exact ⟨RrpvTable.set_lt (RrpvTable.assign_ok assigned).1, rrpvValues,
    (Except.ok.inj same).symm⟩

def Samples (config : ShipConfig) (call : UpdateCall) : Prop :=
  call.type ≠ .write ∧ call.set ∈ config.randSets

/-- What an access leaves of the sampler: all of it, or all but one entry of the set's window. -/
inductive SamplerStep (ship : Ship config) (call : UpdateCall) (next : Ship config) : Prop where
  | unsampled (outside : ¬Samples config call) (sampler : next.sampler = ship.sampler)
      (accessCount : next.accessCount = ship.accessCount)
  | sampled (inside : Samples config call) (isSet : call.set < config.numSet) (way : Nat)
      (isMatch : Bool)
      (found : entryFor config (ship.window (config.position call.set)) call.fullAddr =
        some (way, isMatch))
      (sampler : next.sampler = ship.sampler.set (config.position call.set + way : Nat)
        (touched (ship.sampler.get (config.position call.set + way : Nat)) call isMatch
          ship.accessCount))
      (accessCount : next.accessCount = ship.accessCount + 1)

theorem updateSampler_sampled {ship next : Ship config} {call : UpdateCall}
    (inside : call.set ∈ config.randSets) (ran : ship.updateSampler call = .ok next) :
    ∃ way isMatch,
      entryFor config (ship.window (config.position call.set)) call.fullAddr =
        some (way, isMatch) ∧
      next.sampler = ship.sampler.set (config.position call.set + way : Nat)
        (touched (ship.sampler.get (config.position call.set + way : Nat)) call isMatch
          ship.accessCount) ∧
      next.accessCount = ship.accessCount + 1 := by
  unfold updateSampler at ran
  rw [if_pos inside] at ran
  obtain ⟨⟨way, isMatch⟩, found, rest⟩ := bind_ok ran
  obtain ⟨trained, _trains, same⟩ := bind_ok rest
  refine ⟨way, isMatch, need_ok found, ?_, ?_⟩
  · rw [← Except.ok.inj same]
  · rw [← Except.ok.inj same]

theorem update_step {ship next : Ship config} {call : UpdateCall}
    (ran : ship.updateReplacementState call = .ok next) : SamplerStep ship call next := by
  unfold updateReplacementState at ran
  by_cases isWrite : call.type = .write
  · rw [if_pos isWrite] at ran
    have outside : ¬Samples config call := fun samples => samples.1 isWrite
    split at ran
    · obtain ⟨_isSet, rrpvValues, same⟩ := setRrpv_ok ran
      exact .unsampled outside (by rw [same]) (by rw [same])
    · exact .unsampled outside (by rw [← Except.ok.inj ran]) (by rw [← Except.ok.inj ran])
  · rw [if_neg isWrite] at ran
    obtain ⟨sampled, sampling, rest⟩ := bind_ok ran
    have kept : call.set < config.numSet ∧ next.sampler = sampled.sampler ∧
        next.accessCount = sampled.accessCount := by
      split at rest
      · obtain ⟨isSet, rrpvValues, same⟩ := setRrpv_ok rest
        exact ⟨isSet, by rw [same], by rw [same]⟩
      · obtain ⟨predicted, predicts, later⟩ := bind_ok rest
        obtain ⟨isSet, rrpvValues, same⟩ := setRrpv_ok predicts
        obtain ⟨counter, _counted, final⟩ := bind_ok later
        split at final
        · obtain ⟨_isSet, finalValues, sameFinal⟩ := setRrpv_ok final
          exact ⟨isSet, by rw [sameFinal, same], by rw [sameFinal, same]⟩
        · rw [← Except.ok.inj final]
          exact ⟨isSet, by rw [same], by rw [same]⟩
    obtain ⟨isSet, sampler, accessCount⟩ := kept
    by_cases inside : call.set ∈ config.randSets
    · obtain ⟨way, isMatch, found, written, counted⟩ := updateSampler_sampled inside sampling
      exact .sampled ⟨isWrite, inside⟩ isSet way isMatch found (sampler.trans written)
        (accessCount.trans counted)
    · have untouched : sampled = ship := by
        unfold updateSampler at sampling
        rw [if_neg inside] at sampling
        exact (Except.ok.inj sampling).symm
      rw [untouched] at sampler accessCount
      exact .unsampled (fun samples => inside samples.2) sampler accessCount

theorem entryFor_lt {ship : Ship config} {start : Nat} {addr : Address} {way : Nat}
    {isMatch : Bool} (found : entryFor config (ship.window start) addr = some (way, isMatch)) :
    way < config.numWay := by
  have size : (ship.window start).length = config.numWay := by
    unfold window
    rw [List.length_map, List.length_range]
  have nonempty : ship.window start ≠ [] := by
    intro empty
    rw [empty, List.length_nil] at size
    have ways := config.ways
    omega
  unfold entryFor at found
  split at found
  · rename_i index isIndex
    cases found
    rw [← size]
    exact (List.findIdx?_eq_some_iff_findIdx_eq.mp isIndex).1
  · obtain ⟨index, best, ran, present, _least⟩ := Queue.minElement_least
      SamplerClass.lastUsed (fun _ _ => rfl) (ship.window start) nonempty
    rw [ran, Option.map_some, Option.some.injEq, Prod.mk.injEq] at found
    rw [← found.1, ← size]
    exact (List.getElem?_eq_some_iff.mp present).1

/-! ### Isolation -/

def SameEntries (set : Nat) (first second : Ship config) : Prop :=
  ∀ way, way < config.numWay →
    first.sampler.get (config.position set + way : Nat) =
      second.sampler.get (config.position set + way : Nat)

/-- Two accesses that are the same, or both go to one set and are both write-backs or not. -/
def Aligned (set : Nat) (call other : UpdateCall) : Prop :=
  call = other ∨
    (call.set = set ∧ other.set = set ∧ (call.type = .write ↔ other.type = .write))

/-- Accesses to a set leave the entries of another one: one at a time, and in two runs that
differ in these accesses only. -/
structure Isolated (config : ShipConfig) (set other : Nat) : Prop where
  access : ∀ (ship next : Ship config) (call : UpdateCall), call.set = set →
    ship.updateReplacementState call = .ok next → SameEntries other next ship
  runs : ∀ (ship first second : Ship config) (calls others : List UpdateCall),
    List.Forall₂ (Aligned set) calls others → ship.run calls = .ok first →
    ship.run others = .ok second → SameEntries other first second

def Apart (config : ShipConfig) (set other : Nat) : Prop :=
  config.position set + config.numWay ≤ config.position other ∨
    config.position other + config.numWay ≤ config.position set

/-- A set that can be accessed and sampled shares no entry. -/
def Alone (config : ShipConfig) (set : Nat) : Prop :=
  set ∈ config.randSets → set < config.numSet →
    ∀ other ∈ config.randSets, other ≠ set → Apart config set other

theorem update_sameEntries {ship next : Ship config} {call : UpdateCall} (other : Nat)
    (apart : call.set ∈ config.randSets → call.set < config.numSet →
      Apart config call.set other)
    (ran : ship.updateReplacementState call = .ok next) : SameEntries other next ship := by
  intro way within
  cases update_step ran with
  | unsampled outside sampler accessCount => rw [sampler]
  | sampled inside isSet used isMatch found sampler accessCount =>
      have usedWithin := entryFor_lt found
      have elsewhere := apart inside.2 isSet
      unfold Apart at elsewhere
      rw [sampler]
      apply CArray.get_set_other
      omega

/-- Two states that only differ in the entries of one set. -/
structure SameBut (set : Nat) (first second : Ship config) : Prop where
  accessCount : first.accessCount = second.accessCount
  entries : ∀ other ∈ config.randSets, other ≠ set → SameEntries other first second

theorem SameBut.same {set : Nat} {first second firstNext secondNext : Ship config}
    (same : SameBut set first second) {call : UpdateCall} (another : call.set ≠ set)
    (ran : first.updateReplacementState call = .ok firstNext)
    (ranSecond : second.updateReplacementState call = .ok secondNext) :
    SameBut set firstNext secondNext := by
  cases update_step ran with
  | unsampled outside sampler accessCount =>
      cases update_step ranSecond with
      | sampled inside => exact absurd inside outside
      | unsampled _outside samplerSecond accessCountSecond =>
          refine ⟨by rw [accessCount, accessCountSecond, same.accessCount], ?_⟩
          intro other sampled different way within
          rw [sampler, samplerSecond]
          exact same.entries other sampled different way within
  | sampled inside isSet way isMatch found sampler accessCount =>
      cases update_step ranSecond with
      | unsampled outside => exact absurd inside outside
      | sampled _inside _isSet waySecond isMatchSecond foundSecond samplerSecond
          accessCountSecond =>
          have own := same.entries call.set inside.2 another
          have windows : first.window (config.position call.set) =
              second.window (config.position call.set) := by
            unfold window
            apply List.map_congr_left
            intro other member
            exact own other (List.mem_range.mp member)
          rw [windows, foundSecond, Option.some.injEq, Prod.mk.injEq] at found
          obtain ⟨sameWay, sameMatch⟩ := found
          rw [sameWay, sameMatch] at samplerSecond
          refine ⟨by rw [accessCount, accessCountSecond, same.accessCount], ?_⟩
          intro other sampled different slot within
          rw [sampler, samplerSecond, same.accessCount,
            own way (entryFor_lt (by rw [windows, foundSecond, sameWay, sameMatch]))]
          exact CArray.get_set_congr (same.entries other sampled different slot within) _ _

theorem SameBut.own {set : Nat} {first second firstNext secondNext : Ship config}
    (same : SameBut set first second) {call other : UpdateCall}
    (alone : Alone config set)
    (toSet : call.set = set) (toSetSecond : other.set = set)
    (writes : call.type = .write ↔ other.type = .write)
    (ran : first.updateReplacementState call = .ok firstNext)
    (ranSecond : second.updateReplacementState other = .ok secondNext) :
    SameBut set firstNext secondNext := by
  have samples : Samples config call ↔ Samples config other := by
    unfold Samples
    rw [toSet, toSetSecond]
    exact and_congr_left (fun _ => not_congr writes)
  constructor
  · cases update_step ran with
    | unsampled outside sampler accessCount =>
        cases update_step ranSecond with
        | sampled inside => exact absurd (samples.mpr inside) outside
        | unsampled _outside _samplerSecond accessCountSecond =>
            rw [accessCount, accessCountSecond, same.accessCount]
    | sampled inside _isSet _way _isMatch _found _sampler accessCount =>
        cases update_step ranSecond with
        | unsampled outside => exact absurd (samples.mp inside) outside
        | sampled _inside _isSet _way _isMatch _found _samplerSecond accessCountSecond =>
            rw [accessCount, accessCountSecond, same.accessCount]
  · intro another sampled different way within
    have left := update_sameEntries another
      (fun member isSet => by
        rw [toSet] at member isSet ⊢
        exact alone member isSet another sampled different) ran way within
    have right := update_sameEntries another
      (fun member isSet => by
        rw [toSetSecond] at member isSet ⊢
        exact alone member isSet another sampled different) ranSecond way within
    rw [left, right]
    exact same.entries another sampled different way within

theorem SameBut.run {set : Nat}
    (alone : Alone config set)
    {calls others : List UpdateCall} (aligned : List.Forall₂ (Aligned set) calls others) :
    ∀ {start startSecond first second : Ship config}, SameBut set start startSecond →
      start.run calls = .ok first → startSecond.run others = .ok second →
      SameBut set first second := by
  induction aligned with
  | nil =>
      intro start startSecond first second same ran ranSecond
      cases ran
      cases ranSecond
      exact same
  | @cons call other calls others pair _rest ih =>
      intro start startSecond first second same ran ranSecond
      unfold Ship.run at ran ranSecond
      rw [List.foldlM_cons] at ran ranSecond
      obtain ⟨next, stepped, remaining⟩ := bind_ok ran
      obtain ⟨nextSecond, steppedSecond, remainingSecond⟩ := bind_ok ranSecond
      refine ih ?_ remaining remainingSecond
      rcases pair with equal | ⟨toSet, toSetSecond, writes⟩
      · subst equal
        by_cases toSet : call.set = set
        · exact same.own alone toSet toSet Iff.rfl stepped steppedSecond
        · exact same.same toSet stepped steppedSecond
      · exact same.own alone toSet toSetSecond writes stepped steppedSecond

theorem isolated_of_alone {set other : Nat} (alone : Alone config set)
    (sampled : other ∈ config.randSets) (different : other ≠ set) : Isolated config set other where
  access := by
    intro ship next call toSet ran
    apply update_sameEntries other _ ran
    rw [toSet]
    exact fun member isSet => alone member isSet other sampled different
  runs := by
    intro ship first second calls others aligned ran ranSecond
    have start : SameBut set ship ship := ⟨rfl, fun _other _sampled _different _way _within => rfl⟩
    exact (start.run alone aligned ran ranSecond).entries other sampled different

/-! ### Shared entries -/

/-- A state in which one entry is the only one never used. -/
def freshAt (config : ShipConfig) (entry : Nat) : Ship config :=
  { initial config with
    sampler := (CArray.fill config.samplerSize { lastUsed := 1 }).set entry {} }

theorem position_lt {set : Nat} (sampled : set ∈ config.randSets) :
    config.position set < samplerSetFactor * config.numCpus := by
  rw [← config.sampled]
  exact List.idxOf_lt_length_of_mem sampled

theorem entry_inBounds {set way : Nat} (sampled : set ∈ config.randSets)
    (within : way < config.numWay) :
    CArray.InBounds config.samplerSize ((config.position set + way : Nat) : Int) := by
  have positioned := position_lt sampled
  have ways := config.ways
  have grown : samplerSetFactor * config.numCpus - 1 + config.numWay ≤ config.samplerSize := by
    unfold ShipConfig.samplerSize
    obtain ⟨sets, isSets⟩ : ∃ sets, samplerSetFactor * config.numCpus = sets + 1 :=
      ⟨_, (Nat.succ_pred_eq_of_pos (by omega)).symm⟩
    obtain ⟨more, isMore⟩ : ∃ more, config.numWay = more + 1 :=
      ⟨_, (Nat.succ_pred_eq_of_pos ways).symm⟩
    rw [isSets, isMore, Nat.succ_mul, Nat.mul_succ]
    omega
  exact ⟨by omega, by omega⟩

theorem freshAt_entry (entry other : Nat)
    (within : CArray.InBounds config.samplerSize (other : Int)) :
    ((freshAt config entry).sampler.get other) =
      if other = entry then {} else { lastUsed := 1 } := by
  unfold freshAt
  dsimp only
  by_cases same : other = entry
  · rw [if_pos same, same]
    rw [same] at within
    exact CArray.get_set_same _ _ _ within
  · rw [if_neg same, CArray.get_set_other _ _ _ _ (by omega)]
    unfold CArray.get
    rw [dif_pos within]
    rfl

theorem window_getElem? (ship : Ship config) (start way : Nat) :
    (ship.window start)[way]? =
      if way < config.numWay then some (ship.sampler.get (start + way : Nat)) else none := by
  unfold window
  rw [List.getElem?_map]
  split
  · rename_i within
    rw [List.getElem?_range within, Option.map_some]
  · rename_i outside
    rw [List.getElem?_eq_none (by rw [List.length_range]; omega), Option.map_none]

theorem entryFor_freshAt {set way : Nat} (sampled : set ∈ config.randSets)
    (within : way < config.numWay) (addr : Address) :
    entryFor config ((freshAt config (config.position set + way)).window (config.position set))
      addr = some (way, false) := by
  have reads : ∀ (slot : Nat) (entry : SamplerClass),
      ((freshAt config (config.position set + way)).window (config.position set))[slot]? =
        some entry → entry = if slot = way then {} else { lastUsed := 1 } := by
    intro slot entry present
    rw [window_getElem?] at present
    split at present
    · rename_i inside
      rw [Option.some.injEq, freshAt_entry _ _ (entry_inBounds sampled inside)] at present
      rw [← present]
      congr 1
      rw [Nat.add_left_cancel_iff]
    · cases present
  have unused : ((freshAt config (config.position set + way)).window (config.position set))[way]? =
      some {} := by
    rw [window_getElem?, if_pos within, freshAt_entry _ _ (entry_inBounds sampled within),
      if_pos rfl]
  have noMatch : ((freshAt config (config.position set + way)).window
      (config.position set)).findIdx? (matchesAddress config addr) = none := by
    rw [List.findIdx?_eq_none_iff]
    intro entry member
    obtain ⟨slot, present⟩ := List.getElem?_of_mem member
    rw [reads slot entry present]
    split
    · rfl
    · rfl
  obtain ⟨index, best, ran, present, least⟩ := Queue.minElement_least
    SamplerClass.lastUsed (fun _ _ => rfl) _ (List.ne_nil_of_mem (List.mem_of_getElem? unused))
  have isUnused : index = way := by
    have low := least {} (List.mem_of_getElem? unused)
    rw [reads index best present] at low
    by_contra other
    rw [if_neg other] at low
    exact absurd low (by decide)
  unfold entryFor
  rw [noMatch, ran, isUnused]
  rfl

/-- An access that hits in the cache and misses in the sampler. -/
def hitCall (set : Nat) : UpdateCall where
  triggeringCpu := 0
  set := set
  way := 0
  fullAddr := 0
  ip := 0
  victimAddr := 0
  type := .load
  hit := true

theorem updateSampler_unused {ship : Ship config} {call : UpdateCall} {way : Nat}
    (inside : call.set ∈ config.randSets)
    (found : entryFor config (ship.window (config.position call.set)) call.fullAddr =
      some (way, false))
    (unused : (ship.sampler.get (config.position call.set + way : Nat)).used = false) :
    ship.updateSampler call = .ok { ship with
      sampler := ship.sampler.set (config.position call.set + way : Nat)
        (touched (ship.sampler.get (config.position call.set + way : Nat)) call false
          ship.accessCount)
      accessCount := ship.accessCount + 1 } := by
  unfold updateSampler
  rw [if_pos inside]
  dsimp only
  rw [found, need_some]
  change (trainShct ship call.triggeringCpu _ false >>= fun trained => _) = _
  unfold trainShct
  rw [if_neg Bool.false_ne_true, unused, if_neg Bool.false_ne_true]
  rfl

theorem update_hit {ship sampled : Ship config} {call : UpdateCall}
    (isAccess : call.type ≠ .write) (hits : call.hit = true) (isSet : call.set < config.numSet)
    (isWay : call.way < config.numWay) (updated : ship.updateSampler call = .ok sampled) :
    ∃ rrpvValues, ship.updateReplacementState call = .ok { sampled with rrpvValues } := by
  exists sampled.rrpvValues.set (call.set * config.numWay + call.way : Nat) 0
  unfold updateReplacementState
  rw [if_neg isAccess, updated]
  change (if call.hit then sampled.setRrpv call.set call.way 0 else _) = _
  rw [if_pos hits]
  unfold setRrpv RrpvTable.assign
  rw [if_pos (RrpvTable.way_within isSet isWay)]
  rfl

theorem update_freshAt {set way : Nat} (sampled : set ∈ config.randSets)
    (isSet : set < config.numSet) (within : way < config.numWay) :
    ∃ next, (freshAt config (config.position set + way)).updateReplacementState (hitCall set) =
        .ok next ∧
      (next.sampler.get (config.position set + way : Nat)).valid = true := by
  have inBounds := entry_inBounds sampled within
  have unused : ((freshAt config (config.position set + way)).sampler.get
      (config.position set + way : Nat)).used = false := by
    rw [freshAt_entry _ _ inBounds, if_pos rfl]
  obtain ⟨rrpvValues, ran⟩ := update_hit (show (hitCall set).type ≠ .write from nofun) rfl isSet
    config.ways (updateSampler_unused (show (hitCall set).set ∈ config.randSets from sampled)
      (entryFor_freshAt sampled within 0) unused)
  refine ⟨_, ran, ?_⟩
  dsimp only
  rw [show (hitCall set).set = set from rfl, CArray.get_set_same _ _ _ inBounds]
  rfl

theorem alone_of_isolated {set : Nat} (isolated : ∀ other ∈ config.randSets, set ≠ other →
    Isolated config set other) : Alone config set := by
  intro sampled isSet other among different
  by_contra shared
  unfold Apart at shared
  -- the later of the two windows starts in both
  obtain ⟨way, slot, within, inside, same⟩ : ∃ way slot, way < config.numWay ∧
      slot < config.numWay ∧ config.position set + way = config.position other + slot := by
    have ways := config.ways
    rcases Nat.le_total (config.position set) (config.position other) with before | after
    · exact ⟨config.position other - config.position set, 0, by omega, by omega, by omega⟩
    · exact ⟨0, config.position set - config.position other, by omega, by omega, by omega⟩
  obtain ⟨next, ran, valid⟩ := update_freshAt sampled isSet within
  have kept := (isolated other among different.symm).access _ next (hitCall set) rfl ran slot inside
  rw [← same, freshAt_entry _ _ (entry_inBounds sampled within), if_pos rfl] at kept
  rw [kept] at valid
  cases valid

/-- The sampled sets are isolated from each other just when the positions of any two that are
different are at least `NUM_WAY` apart. -/
theorem isolated_iff (config : ShipConfig) :
    (∀ set ∈ config.randSets, ∀ other ∈ config.randSets, set ≠ other →
      Isolated config set other) ↔
    ∀ set ∈ config.randSets, set < config.numSet → ∀ other ∈ config.randSets, set ≠ other →
      config.position set + config.numWay ≤ config.position other ∨
        config.position other + config.numWay ≤ config.position set := by
  constructor
  · intro isolated set sampled isSet other among different
    exact alone_of_isolated (isolated set sampled) sampled isSet other among different.symm
  · intro apart set _sampled other among different
    apply isolated_of_alone _ among different.symm
    intro sampled isSet another amongSets differentSets
    exact apart set sampled isSet another amongSets differentSets.symm

def neighbours : ShipConfig where
  numSet := 1024
  numWay := 2
  numCpus := 1
  randSets := List.range 256
  ways := by decide
  sampled := List.length_range

/-- The first access to set 1 fills an entry that set 0 has as well. -/
theorem neighbours_not_isolated : ¬Isolated neighbours 1 0 := by
  intro isolated
  have filled : ((initial neighbours).updateReplacementState (hitCall 1)).toOption.map
      (fun next => (next.sampler.get (neighbours.position 0 + 1 : Nat)).valid) = some true := by
    decide
  cases ran : (initial neighbours).updateReplacementState (hitCall 1) with
  | error fault =>
      rw [ran] at filled
      cases filled
  | ok next =>
      have kept := isolated.access _ next (hitCall 1) rfl ran 1 (by decide)
      rw [ran] at filled
      have valid : (next.sampler.get (neighbours.position 0 + 1 : Nat)).valid = true :=
        Option.some.inj filled
      rw [kept] at valid
      exact absurd valid (by decide)

end Ship

end ChampSim.Replacement
