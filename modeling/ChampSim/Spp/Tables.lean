/-
The tables of the signature path prefetcher: signatures of the pages accessed
last, deltas that follow a signature, a filter of the blocks prefetched, and the
global register with its counters.

The signature table has one set. Its assertions, and those of the pattern table
and of the global register, are faults.
-/

import ChampSim.Address
import ChampSim.Library.CArray
import ChampSim.Library.Outcome
import ChampSim.Library.Ranks

set_option autoImplicit false

namespace ChampSim.Spp

open Outcome

def stWay : Nat := 256

def stTagBit : Nat := 16

def sigShift : Nat := 3

def sigBit : Nat := 12

def sigMask : Nat := (1 <<< sigBit) - 1

def sigDeltaBit : Nat := 7

def ptSet : Nat := 512

def ptWay : Nat := 4

def cSigMax : Nat := (1 <<< 4) - 1

def quotientBit : Nat := 10

def remainderBit : Nat := 6

def filterSet : Nat := 1 <<< quotientBit

def fillThreshold : Nat := 90

def pfThreshold : Nat := 25

def globalCounterMax : Nat := (1 <<< 10) - 1

def maxGhrEntry : Nat := 8

inductive Fault where
  | stVictim
  | stLru
  | ptVictim
  | ghrVictim
  | queueOutOfBounds
  | unfinished
deriving DecidableEq, Repr

structure SppConfig where
  log2BlockSize : Nat
  log2PageSize : Nat
  mshrSize : Nat
  mshrPos : 0 < mshrSize

namespace SppConfig

variable (config : SppConfig)

def blockNumber (addr : Address) : BitVec 64 := addr.sliceUpper config.log2BlockSize

def pageNumber (addr : Address) : BitVec 64 := addr.sliceUpper config.log2PageSize

/-- `offset_type`: the block in its page. -/
def pageOffset (addr : Address) : Nat :=
  addr.slice config.log2BlockSize (config.log2PageSize - config.log2BlockSize)

/-- `tag_type`. -/
def partialPage (addr : Address) : Nat := addr.slice config.log2PageSize stTagBit

end SppConfig

def getHash (key : BitVec 64) : BitVec 64 :=
  let key := key + key <<< 12
  let key := key ^^^ key >>> 22
  let key := key + key <<< 4
  let key := key ^^^ key >>> 9
  let key := key + key <<< 10
  let key := key ^^^ key >>> 2
  let key := key + key <<< 7
  let key := key ^^^ key >>> 12
  (key >>> 3) * 2654435761

def sigDelta (delta : Int) : Nat :=
  if delta < 0 then (-1 * delta + (1 <<< (sigDeltaBit - 1) : Nat)).toNat else delta.toNat

def nextSig (sig : Nat) (delta : Int) : Nat := ((sig <<< sigShift) ^^^ sigDelta delta) &&& sigMask

/-! ### The global register -/

structure GhrEntry where
  valid : Bool := false
  sig : Nat := 0
  confidence : Nat := 0
  offset : Nat := 0
  delta : Int := 0
deriving DecidableEq, Repr

structure GlobalRegister where
  pfUseful : Nat := 0
  pfIssued : Nat := 0
  globalAccuracy : Nat := 0
  entries : CArray maxGhrEntry GhrEntry := CArray.fill maxGhrEntry {}

namespace GlobalRegister

/-- The first entry with the offset, when an entry holds it. -/
def sameOffset (ghr : GlobalRegister) (offset : Nat) : Option (Fin maxGhrEntry) :=
  (List.finRange maxGhrEntry).find? (fun index =>
    (ghr.entries.cells index).valid && decide ((ghr.entries.cells index).offset = offset))

/-- The first entry of the lowest confidence, if that is below 100. -/
def victim (ghr : GlobalRegister) : Option (Fin maxGhrEntry) :=
  ((List.finRange maxGhrEntry).foldl (fun least index =>
    if (ghr.entries.cells index).confidence < least.2 then
      (some index, (ghr.entries.cells index).confidence)
    else least) ((none : Option (Fin maxGhrEntry)), 100)).1

def updateEntry (ghr : GlobalRegister) (pfSig pfConfidence pfOffset : Nat) (pfDelta : Int) :
    Except Fault GlobalRegister :=
  match ghr.sameOffset pfOffset with
  | some index =>
      .ok { ghr with
        entries := ghr.entries.assign index
          { ghr.entries.cells index with
            sig := pfSig, confidence := pfConfidence, delta := pfDelta } }
  | none =>
      match ghr.victim with
      | some index =>
          .ok { ghr with
            entries := ghr.entries.assign index
              { valid := true, sig := pfSig, confidence := pfConfidence, offset := pfOffset
                delta := pfDelta } }
      | none => .error .ghrVictim

/-- The first entry of the highest confidence among those with the offset. -/
def checkEntry (ghr : GlobalRegister) (pageOffset : Nat) : Option (Fin maxGhrEntry) :=
  ((List.finRange maxGhrEntry).foldl (fun most index =>
    if (ghr.entries.cells index).offset = pageOffset ∧
        most.2 < (ghr.entries.cells index).confidence then
      (some index, (ghr.entries.cells index).confidence)
    else most) ((none : Option (Fin maxGhrEntry)), 0)).1

/-- A prefetch into this level is issued. Both counters are halved when theirs overflows. -/
def issue (ghr : GlobalRegister) : GlobalRegister :=
  if globalCounterMax < ghr.pfIssued + 1 then
    { ghr with pfIssued := (ghr.pfIssued + 1) / 2, pfUseful := ghr.pfUseful / 2 }
  else { ghr with pfIssued := ghr.pfIssued + 1 }

end GlobalRegister

/-! ### The signature table -/

structure SignatureTable where
  valid : CArray stWay Bool
  tag : CArray stWay Nat
  lastOffset : CArray stWay Nat
  sig : CArray stWay Nat
  lru : CArray stWay Nat

/-- What `read_and_update_sig` leaves in its reference arguments. -/
structure SigRead where
  st : SignatureTable
  lastSig : Nat
  currSig : Nat
  delta : Int

namespace SignatureTable

def initial : SignatureTable where
  valid := CArray.fill stWay false
  tag := CArray.fill stWay 0
  lastOffset := CArray.fill stWay 0
  sig := CArray.fill stWay 0
  lru := ⟨fun way => way.val⟩

def hitWay (st : SignatureTable) (partialPage : Nat) : Option (Fin stWay) :=
  (List.finRange stWay).find? (fun way =>
    st.valid.cells way && decide (st.tag.cells way = partialPage))

def invalidWay (st : SignatureTable) : Option (Fin stWay) :=
  (List.finRange stWay).find? (fun way => !st.valid.cells way)

def victimWay (st : SignatureTable) : Option (Fin stWay) :=
  (List.finRange stWay).find? (fun way => decide (st.lru.cells way = stWay - 1))

/-- A page that is in the table. The same block again has no signature to train. -/
def hit (st : SignatureTable) (way : Fin stWay) (pageOffset : Nat) : SigRead :=
  let delta : Int := pageOffset - st.lastOffset.cells way
  if delta ≠ 0 then
    { st := { st with
        sig := st.sig.assign way (nextSig (st.sig.cells way) delta)
        lastOffset := st.lastOffset.assign way pageOffset }
      lastSig := st.sig.cells way
      currSig := nextSig (st.sig.cells way) delta
      delta := delta }
  else { st := st, lastSig := 0, currSig := 0, delta := delta }

def replace (st : SignatureTable) (way : Fin stWay) (partialPage pageOffset : Nat) :
    SignatureTable :=
  { st with
    tag := st.tag.assign way partialPage
    sig := st.sig.assign way 0
    lastOffset := st.lastOffset.assign way pageOffset }

def miss (st : SignatureTable) (partialPage pageOffset : Nat) :
    Except Fault (Fin stWay × SignatureTable) :=
  match st.invalidWay with
  | some way =>
      .ok (way, { st.replace way partialPage pageOffset with valid := st.valid.assign way true })
  | none =>
      match st.victimWay with
      | some way => .ok (way, st.replace way partialPage pageOffset)
      | none => .error .stVictim

/-- The signature of a new page, from a prefetch that left another page at its offset. -/
def bootstrap (st : SignatureTable) (ghr : GlobalRegister) (way : Fin stWay) (pageOffset : Nat) :
    SigRead :=
  match ghr.checkEntry pageOffset with
  | some found =>
      let sig := nextSig (ghr.entries.cells found).sig (ghr.entries.cells found).delta
      { st := { st with sig := st.sig.assign way sig }, lastSig := 0, currSig := sig, delta := 0 }
  | none => { st := st, lastSig := 0, currSig := 0, delta := 0 }

def promote (st : SignatureTable) (used : Fin stWay) : Except Fault SignatureTable :=
  if (List.finRange stWay).any (fun way =>
      decide (st.lru.cells way < st.lru.cells used ∧ stWay ≤ st.lru.cells way + 1)) then
    .error .stLru
  else .ok { st with lru := ⟨Ranks.promote st.lru.cells used⟩ }

def readAndUpdateSig (config : SppConfig) (st : SignatureTable) (ghr : GlobalRegister)
    (addr : Address) : Except Fault SigRead :=
  match st.hitWay (config.partialPage addr) with
  | some way => do
      let read := st.hit way (config.pageOffset addr)
      let promoted ← read.st.promote way
      .ok { read with st := promoted }
  | none => do
      let (way, filled) ← st.miss (config.partialPage addr) (config.pageOffset addr)
      let read := filled.bootstrap ghr way (config.pageOffset addr)
      let promoted ← read.st.promote way
      .ok { read with st := promoted }

end SignatureTable

/-! ### The pattern table -/

structure PatternSet where
  delta : CArray ptWay Int := CArray.fill ptWay 0
  cDelta : CArray ptWay Nat := CArray.fill ptWay 0
  cSig : Nat := 0

namespace PatternSet

/-- One more delta after the signature. All counters are halved when this one overflows. -/
def countSig (set : PatternSet) : PatternSet :=
  if cSigMax < set.cSig + 1 then
    { set with cDelta := set.cDelta.map (fun count => count / 2), cSig := (set.cSig + 1) / 2 }
  else { set with cSig := set.cSig + 1 }

def deltaWay (set : PatternSet) (currDelta : Int) : Option (Fin ptWay) :=
  (List.finRange ptWay).find? (fun way => decide (set.delta.cells way = currDelta))

/-- The first way of the lowest counter, if that is below the maximum. -/
def victimWay (set : PatternSet) : Option (Fin ptWay) :=
  ((List.finRange ptWay).foldl (fun least way =>
    if set.cDelta.cells way < least.2 then (some way, set.cDelta.cells way) else least)
    ((none : Option (Fin ptWay)), cSigMax)).1

def update (set : PatternSet) (currDelta : Int) : Except Fault PatternSet :=
  match set.deltaWay currDelta with
  | some way =>
      .ok ({ set with cDelta := set.cDelta.assign way (set.cDelta.cells way + 1) }).countSig
  | none =>
      match set.victimWay with
      | some way =>
          .ok ({ set with
            delta := set.delta.assign way currDelta
            cDelta := set.cDelta.assign way 0 }).countSig
      | none => .error .ptVictim

end PatternSet

abbrev PatternTable := CArray ptSet PatternSet

def patternIndex (sig : Nat) : Fin ptSet :=
  ⟨(getHash (BitVec.ofNat 64 sig)).toNat % ptSet, Nat.mod_lt _ (by decide)⟩

def updatePattern (pt : PatternTable) (lastSig : Nat) (currDelta : Int) :
    Except Fault PatternTable := do
  let set ← (pt.cells (patternIndex lastSig)).update currDelta
  .ok (pt.assign (patternIndex lastSig) set)

/-! ### The filter -/

structure FilterEntry where
  remainderTag : Nat := 0
  valid : Bool := false
  useful : Bool := false
deriving DecidableEq, Repr

abbrev PrefetchFilter := CArray filterSet FilterEntry

inductive FilterRequest where
  | sppL2cPrefetch
  | sppLlcPrefetch
  | l2cDemand
  | l2cEvict
deriving DecidableEq, Repr

/-- The entry has been prefetched or used for this remainder. -/
def FilterEntry.holds (entry : FilterEntry) (remainder : Nat) : Bool :=
  (entry.valid || entry.useful) && decide (entry.remainderTag = remainder)

def quotient (config : SppConfig) (addr : Address) : Fin filterSet :=
  ⟨(getHash (config.blockNumber addr) >>> remainderBit).toNat % filterSet,
    Nat.mod_lt _ (by decide)⟩

def remainder (config : SppConfig) (addr : Address) : Nat :=
  (getHash (config.blockNumber addr)).toNat % (1 <<< remainderBit)

def demand (filter : PrefetchFilter) (ghr : GlobalRegister) (index : Fin filterSet) (tag : Nat) :
    PrefetchFilter × GlobalRegister :=
  let entry := filter.cells index
  if entry.remainderTag = tag ∧ entry.useful = false then
    (filter.assign index { entry with useful := true },
      if entry.valid then { ghr with pfUseful := ghr.pfUseful + 1 } else ghr)
  else (filter, ghr)

/-- An eviction resets the entry, whichever block it is for. -/
def evict (filter : PrefetchFilter) (ghr : GlobalRegister) (index : Fin filterSet) :
    PrefetchFilter × GlobalRegister :=
  let entry := filter.cells index
  (filter.assign index {},
    if entry.valid ∧ entry.useful = false ∧ 0 < ghr.pfUseful then
      { ghr with pfUseful := ghr.pfUseful - 1 }
    else ghr)

/-- `PREFETCH_FILTER::check`: its answer, the filter and the global register. -/
def check (config : SppConfig) (filter : PrefetchFilter) (ghr : GlobalRegister)
    (checkAddr : Address) (request : FilterRequest) : Bool × PrefetchFilter × GlobalRegister :=
  let index := quotient config checkAddr
  let tag := remainder config checkAddr
  match request with
  | .sppL2cPrefetch =>
      if (filter.cells index).holds tag then (false, filter, ghr)
      else (true, filter.assign index { remainderTag := tag, valid := true, useful := false }, ghr)
  | .sppLlcPrefetch => (!(filter.cells index).holds tag, filter, ghr)
  | .l2cDemand => (true, demand filter ghr index tag)
  | .l2cEvict => (true, evict filter ghr index)

end ChampSim.Spp
