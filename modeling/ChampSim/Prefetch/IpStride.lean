/-
The prefetcher `ip_stride`.

A table remembers for each instruction its last block and the stride to it. A
third access at the same distance starts a lookahead, which asks for one block
in each cycle until its degree is used up or it would leave the page.
-/

import ChampSim.Cache.State
import ChampSim.Library.Transition
import ChampSim.Msl.LruRefinement
import ChampSim.Slice.Offset

set_option autoImplicit false

namespace ChampSim.Prefetch

open Cache (PrefetchLine)
open Dram (AddressSlice)
open Msl (LruTable RecencyTable)
open Transition (Machine)

/-- `champsim::offset(base, other)` of block numbers. -/
def offset (base other : BitVec 64) : Int := (other.toNat : Int) - base.toNat

theorem offset_slices {base other : AddressSlice} (sameExtent : base.extent = other.extent)
    (narrow : base.extent.size < 64) :
    ∃ difference, Slice.offset base other = .ok difference ∧
      difference.toInt = offset (BitVec.ofNat 64 base.value) (BitVec.ofNat 64 other.value) := by
  have half : 2 ^ base.extent.size ≤ 2 ^ 63 :=
    Nat.pow_le_pow_right (by decide) (Nat.le_of_lt_succ narrow)
  have first : base.value < 2 ^ 63 := base.fits.trans_le half
  have second : other.value < 2 ^ 63 := other.fits.trans_le (sameExtent ▸ half)
  rcases Slice.offset_cases sameExtent with ⟨_overflow, large⟩ |
    ⟨difference, found, _leads, exactly, _small⟩
  · have close : |(other.value : Int) - base.value| ≤ 2 ^ 63 - 1 := by
      rcases Int.le_total base.value other.value with ordered | reversed
      · rw [abs_of_nonneg (Int.sub_nonneg_of_le ordered)]
        omega
      · rw [abs_of_nonpos (Int.sub_nonpos_of_le reversed)]
        omega
    exact absurd large (not_lt_of_ge close)
  · refine ⟨difference, found, ?_⟩
    unfold offset
    rw [exactly, BitVec.toNat_ofNat, BitVec.toNat_ofNat, Nat.mod_eq_of_lt (first.trans (by decide)),
      Nat.mod_eq_of_lt (second.trans (by decide))]

/-- `ip_stride::tracker_entry`. -/
structure TrackerEntry where
  ip : Address := 0
  lastClAddr : BitVec 64 := 0
  lastStride : Int := 0
deriving DecidableEq, Repr

namespace TrackerEntry

instance : Inhabited TrackerEntry := ⟨{}⟩

def index (entry : TrackerEntry) : Int := (entry.ip.sliceUpper 2).toNat

def tag (entry : TrackerEntry) : BitVec 64 := entry.ip.sliceUpper 2

end TrackerEntry

/-- `ip_stride::lookahead_entry`. -/
structure LookaheadEntry where
  address : Address
  stride : Int
  degree : Nat
deriving DecidableEq, Repr

structure IpStrideConfig where
  log2BlockSize : Nat
  blocked : 0 < log2BlockSize
  log2PageSize : Nat
  virtualPrefetch : Bool

structure IpStride where
  activeLookahead : Option LookaheadEntry := none
  table : LruTable TrackerEntry (BitVec 64)

namespace IpStride

def trackerSets : Nat := 256

def trackerWays : Nat := 4

def prefetchDegree : Nat := 3

def make : Option IpStride :=
  (LruTable.make trackerSets trackerWays TrackerEntry.index TrackerEntry.tag).map
    (fun table => { table })

variable (config : IpStrideConfig) (state : IpStride)

def blockNumber (address : Address) : BitVec 64 := address.sliceUpper config.log2BlockSize

def pageNumber (address : Address) : BitVec 64 := address.sliceUpper config.log2PageSize

def blockAddress (block : BitVec 64) : Address := block <<< config.log2BlockSize

/-- The lookahead after an access for which the table has `found`. -/
def lookaheadAfter (clAddr : BitVec 64) (found : Option TrackerEntry) : Option LookaheadEntry :=
  match found with
  | none => state.activeLookahead
  | some entry =>
      let stride := offset entry.lastClAddr clAddr
      if stride ≠ 0 ∧ stride = entry.lastStride then
        some { address := blockAddress config clAddr, stride, degree := prefetchDegree }
      else state.activeLookahead

/-- `none` is an error of the table. -/
def prefetcherCacheOperate (addr ip : Address) : Option IpStride :=
  let clAddr := blockNumber config addr
  (state.table.checkHit { ip, lastClAddr := clAddr, lastStride := 0 }).bind (fun checked =>
    let stride := checked.1.elim 0 (fun entry => offset entry.lastClAddr clAddr)
    (checked.2.fill { ip, lastClAddr := clAddr, lastStride := stride }).map (fun table =>
      { activeLookahead := lookaheadAfter config state clAddr checked.1, table }))

/-- The state after a cycle and what it asks the cache for: `success` is what
`prefetch_line` returns, and `none` a failed assertion. -/
def prefetcherCycleOperate (underLightLoad success : Bool) :
    Option (IpStride × List PrefetchLine) :=
  match state.activeLookahead with
  | none => some (state, [])
  | some lookahead =>
      if lookahead.degree = 0 then none
      else
        let pfAddress := blockAddress config
          (blockNumber config lookahead.address + BitVec.ofInt 64 lookahead.stride)
        if config.virtualPrefetch ∨
            pageNumber config pfAddress = pageNumber config lookahead.address then
          let next := if success then
              { lookahead with address := pfAddress, degree := lookahead.degree - 1 }
            else lookahead
          some ({ state with activeLookahead := if next.degree = 0 then none else some next },
            [⟨pfAddress, underLightLoad, 0⟩])
        else some ({ state with activeLookahead := none }, [])

end IpStride

/-! ### Runs -/

inductive IpStrideCall where
  | operate (addr ip : Address)
  | cycle (underLightLoad success : Bool)
deriving DecidableEq, Repr

/-- A prefetcher, and all accesses it has seen: the tag and the block of each,
the last one first. -/
structure IpStrideSession where
  prefetcher : IpStride
  history : List (BitVec 64 × BitVec 64)

def ipStrideMachine (config : IpStrideConfig) : Machine IpStrideSession IpStrideCall where
  step session
    | .operate addr ip =>
        (session.prefetcher.prefetcherCacheOperate config addr ip).map (fun prefetcher =>
          { prefetcher
            history := (ip.sliceUpper 2, IpStride.blockNumber config addr) :: session.history })
    | .cycle underLightLoad success =>
        (session.prefetcher.prefetcherCycleOperate config underLightLoad success).map
          (fun cycled => { session with prefetcher := cycled.1 })

/-- The blocks that the instructions of a tag accessed, the last one first. -/
def accessesOf (tag : BitVec 64) (history : List (BitVec 64 × BitVec 64)) : List (BitVec 64) :=
  (history.filter (fun access => decide (access.1 = tag))).map Prod.snd

theorem accessesOf_own (tag block : BitVec 64) (history : List (BitVec 64 × BitVec 64)) :
    accessesOf tag ((tag, block) :: history) = block :: accessesOf tag history := by
  unfold accessesOf
  rw [List.filter_cons_of_pos (by simp)]
  rfl

theorem accessesOf_other {tag other : BitVec 64} (differs : other ≠ tag) (block : BitVec 64)
    (history : List (BitVec 64 × BitVec 64)) :
    accessesOf tag ((other, block) :: history) = accessesOf tag history := by
  unfold accessesOf
  rw [List.filter_cons_of_neg (by simp [differs])]

/-! ### What the table remembers -/

/-- An entry has the last block of its instruction, and the stride to it if any. -/
def TrackerEntry.Follows (history : List (BitVec 64 × BitVec 64)) (entry : TrackerEntry) : Prop :=
  ∃ rest, accessesOf entry.tag history = entry.lastClAddr :: rest ∧
    (entry.lastStride ≠ 0 → ∃ previous others, rest = previous :: others ∧
      offset previous entry.lastClAddr = entry.lastStride)

/-- The recency lists hold entries that follow the history, each in its own set. -/
structure Remembers (history : List (BitVec 64 × BitVec 64))
    (reference : RecencyTable TrackerEntry (BitVec 64)) : Prop where
  index : reference.setProjection = TrackerEntry.index
  tag : reference.tagProjection = TrackerEntry.tag
  entries : ∀ set, ∀ pair ∈ reference.pairs set, pair.1 = pair.2.tag ∧
    reference.setOf pair.2 = some set ∧ pair.2.Follows history

namespace Remembers

variable {history : List (BitVec 64 × BitVec 64)}
  {reference : RecencyTable TrackerEntry (BitVec 64)} {elem : TrackerEntry}

theorem setOf_put (reference : RecencyTable TrackerEntry (BitVec 64)) (set : Nat)
    (pairs : List (BitVec 64 × TrackerEntry)) (entry : TrackerEntry) :
    (reference.put set pairs).setOf entry = reference.setOf entry := rfl

theorem setOf_eq (remembers : Remembers history reference) (entry : TrackerEntry) :
    reference.setOf entry = some (entry.tag.toNat % reference.numSet) := by
  unfold RecencyTable.setOf
  rw [remembers.index]
  have positive : ¬ entry.index < 0 := by
    unfold TrackerEntry.index
    omega
  rw [if_neg positive]
  rfl

theorem checkHit (remembers : Remembers history reference) (elem : TrackerEntry) :
    ∃ found, (reference.call (.checkHit elem)).1 = .value found ∧
      (∀ entry, found = some entry → entry.tag = elem.tag ∧ entry.Follows history) ∧
      Remembers history (reference.call (.checkHit elem)).2 := by
  have isSet := remembers.setOf_eq elem
  simp only [RecencyTable.call, isSet, remembers.tag]
  refine ⟨_, rfl, ?_, remembers.index, remembers.tag, ?_⟩
  · intro entry found
    obtain ⟨tag, _inSet, follows⟩ := remembers.entries _ _ (Recency.lookup_some found)
    exact ⟨tag.symm, follows⟩
  · intro set pair member
    rw [setOf_put]
    by_cases same : set = elem.tag.toNat % reference.numSet
    · subst same
      have among : pair ∈ (Recency.lookup elem.tag
          (reference.pairs (elem.tag.toNat % reference.numSet))).2 := by
        simpa [RecencyTable.put] using member
      exact remembers.entries _ pair (Recency.mem_lookup among)
    · have among : pair ∈ reference.pairs set := by
        simpa [RecencyTable.put, same] using member
      exact remembers.entries set pair among

theorem fill (remembers : Remembers history reference)
    (follows : elem.Follows ((elem.tag, elem.lastClAddr) :: history)) :
    (reference.call (.fill elem)).1 = .filled ∧
      Remembers ((elem.tag, elem.lastClAddr) :: history) (reference.call (.fill elem)).2 := by
  have isSet := remembers.setOf_eq elem
  simp only [RecencyTable.call, isSet, remembers.tag]
  have older : ∀ set, ∀ pair ∈ reference.pairs set, pair.1 ≠ elem.tag →
      pair.1 = pair.2.tag ∧ reference.setOf pair.2 = some set ∧
        pair.2.Follows ((elem.tag, elem.lastClAddr) :: history) := by
    intro set pair member differs
    obtain ⟨tag, inSet, rest, accesses, strides⟩ := remembers.entries set pair member
    refine ⟨tag, inSet, rest, ?_, strides⟩
    rw [accessesOf_other (fun same => differs (tag.trans same.symm))]
    exact accesses
  refine ⟨trivial, remembers.index, remembers.tag, ?_⟩
  intro set pair member
  rw [setOf_put]
  by_cases same : set = elem.tag.toNat % reference.numSet
  · subst same
    have among : pair ∈ Recency.insert reference.numWay elem.tag elem
        (reference.pairs (elem.tag.toNat % reference.numSet)) := by
      simpa [RecencyTable.put] using member
    rcases Recency.mem_insert among with isNew | ⟨old, differs⟩
    · rw [isNew]
      exact ⟨rfl, isSet, follows⟩
    · exact older _ pair old differs
  · have among : pair ∈ reference.pairs set := by
      simpa [RecencyTable.put, same] using member
    obtain ⟨tag, inSet, _follows⟩ := remembers.entries set pair among
    apply older set pair among
    intro isElem
    rw [remembers.setOf_eq, ← tag, isElem] at inSet
    exact same (Option.some.inj inSet).symm

end Remembers

/-! ### The lookahead -/

section Lookahead

variable (config : IpStrideConfig)

/-- Three accesses of one instruction in a row, at one distance. -/
structure Strides (history : List (BitVec 64 × BitVec 64)) (trigger : BitVec 64) (stride : Int) :
    Prop where
  moves : stride ≠ 0
  repeats : ∃ newer tag older middle first others,
    history = newer ++ (tag, trigger) :: older ∧
      accessesOf tag older = middle :: first :: others ∧
      offset middle trigger = stride ∧ offset first middle = stride

theorem Strides.later {history : List (BitVec 64 × BitVec 64)} {trigger : BitVec 64}
    {stride : Int} (strides : Strides history trigger stride) (access : BitVec 64 × BitVec 64) :
    Strides (access :: history) trigger stride := by
  obtain ⟨newer, tag, older, middle, first, others, split, parts⟩ := strides.repeats
  refine ⟨strides.moves, access :: newer, tag, older, middle, first, others, ?_, parts⟩
  rw [split]
  rfl

def ahead (block : BitVec 64) (stride : Int) (count : Nat) : Address :=
  IpStride.blockAddress config (block + BitVec.ofInt 64 (count * stride))

/-- A lookahead is some strides ahead of its trigger, and in the same page. -/
structure Pursues (history : List (BitVec 64 × BitVec 64)) (lookahead : LookaheadEntry) :
    Prop where
  least : 1 ≤ lookahead.degree
  atMost : lookahead.degree ≤ IpStride.prefetchDegree
  pursued : ∃ trigger, Strides history trigger lookahead.stride ∧
    lookahead.address = ahead config trigger lookahead.stride
      (IpStride.prefetchDegree - lookahead.degree) ∧
    (config.virtualPrefetch = true ∨ IpStride.pageNumber config lookahead.address =
      IpStride.pageNumber config (IpStride.blockAddress config trigger))

theorem ahead_succ (block : BitVec 64) (stride : Int) (count : Nat) :
    IpStride.blockAddress config (IpStride.blockNumber config (ahead config block stride count) +
      BitVec.ofInt 64 stride) = ahead config block stride (count + 1) := by
  have distribute : ∀ first second : BitVec 64, (first + second) <<< config.log2BlockSize =
      first <<< config.log2BlockSize + second <<< config.log2BlockSize := by
    intro first second
    rw [BitVec.shiftLeft_eq_mul_twoPow, BitVec.shiftLeft_eq_mul_twoPow,
      BitVec.shiftLeft_eq_mul_twoPow, BitVec.add_mul]
  have again : ∀ word : BitVec 64, (word <<< config.log2BlockSize >>> config.log2BlockSize) <<<
      config.log2BlockSize = word <<< config.log2BlockSize := by
    intro word
    apply BitVec.eq_of_getLsbD_eq
    intro position within
    simp only [BitVec.getLsbD_shiftLeft, BitVec.getLsbD_ushiftRight]
    by_cases low : position < config.log2BlockSize
    · simp [low]
    · rw [show config.log2BlockSize + (position - config.log2BlockSize) = position by omega]
      simp [low, within]
  have more : ((count + 1 : Nat) : Int) * stride = count * stride + stride := by
    rw [Nat.cast_succ, Int.add_mul, Int.one_mul]
  unfold ahead IpStride.blockAddress IpStride.blockNumber Address.sliceUpper
  rw [distribute, again, ← distribute, more, BitVec.ofInt_add, BitVec.add_assoc]

variable {config} {history : List (BitVec 64 × BitVec 64)}

theorem Pursues.later {lookahead : LookaheadEntry} (pursues : Pursues config history lookahead)
    (access : BitVec 64 × BitVec 64) : Pursues config (access :: history) lookahead := by
  obtain ⟨trigger, strides, parts⟩ := pursues.pursued
  exact ⟨pursues.least, pursues.atMost, trigger, strides.later access, parts⟩

end Lookahead

/-! ### What a run keeps -/

/-- The table remembers the history, and a lookahead pursues three accesses of it. -/
structure Tracks (config : IpStrideConfig) (session : IpStrideSession) : Prop where
  remembers : ∃ reference, Msl.LruTable.Represents session.prefetcher.table reference ∧
    Remembers session.history reference
  pursues : ∀ lookahead, session.prefetcher.activeLookahead = some lookahead →
    Pursues config session.history lookahead

/-- A prefetch is one to three strides ahead of the third of three accesses. -/
def Justified (config : IpStrideConfig) (history : List (BitVec 64 × BitVec 64))
    (line : PrefetchLine) : Prop :=
  ∃ trigger stride count, Strides history trigger stride ∧ 1 ≤ count ∧
    count ≤ IpStride.prefetchDegree ∧ line.pfAddr = ahead config trigger stride count ∧
    (config.virtualPrefetch = true ∨ IpStride.pageNumber config line.pfAddr =
      IpStride.pageNumber config (IpStride.blockAddress config trigger))

namespace Tracks

variable {config : IpStrideConfig} {session : IpStrideSession}

theorem follows_access {history : List (BitVec 64 × BitVec 64)} (ip : Address)
    (clAddr : BitVec 64) {found : Option TrackerEntry}
    (fits : ∀ entry, found = some entry → entry.tag = ip.sliceUpper 2 ∧ entry.Follows history) :
    TrackerEntry.Follows ((ip.sliceUpper 2, clAddr) :: history)
      { ip := ip
        lastClAddr := clAddr
        lastStride := found.elim 0 (fun entry => offset entry.lastClAddr clAddr) } := by
  refine ⟨accessesOf (ip.sliceUpper 2) history, accessesOf_own _ _ _, ?_⟩
  intro moves
  cases found with
  | none => exact absurd rfl moves
  | some entry =>
      obtain ⟨tag, rest, accesses, _strides⟩ := fits entry rfl
      rw [tag] at accesses
      exact ⟨entry.lastClAddr, rest, accesses, rfl⟩

/-- A lookahead that an access starts pursues it and the two before it. -/
theorem pursues_access {history : List (BitVec 64 × BitVec 64)} (state : IpStride) (ip : Address)
    (clAddr : BitVec 64) {found : Option TrackerEntry}
    (before : ∀ lookahead, state.activeLookahead = some lookahead →
      Pursues config history lookahead)
    (fits : ∀ entry, found = some entry → entry.tag = ip.sliceUpper 2 ∧ entry.Follows history) :
    ∀ lookahead, state.lookaheadAfter config clAddr found = some lookahead →
      Pursues config ((ip.sliceUpper 2, clAddr) :: history) lookahead := by
  intro lookahead active
  unfold IpStride.lookaheadAfter at active
  cases found with
  | none => exact (before lookahead active).later _
  | some entry =>
      dsimp only at active
      split at active
      case isFalse => exact (before lookahead active).later _
      case isTrue starts =>
        cases active
        obtain ⟨moves, same⟩ := starts
        obtain ⟨tag, rest, accesses, strides⟩ := fits entry rfl
        obtain ⟨previous, others, isRest, repeats⟩ := strides (same ▸ moves)
        rw [tag, isRest] at accesses
        have third : Strides ((ip.sliceUpper 2, clAddr) :: history) clAddr
            (offset entry.lastClAddr clAddr) :=
          ⟨moves, [], _, history, entry.lastClAddr, previous, others, rfl, accesses, rfl,
            repeats.trans same.symm⟩
        refine ⟨Nat.succ_le_succ (Nat.zero_le 2), Nat.le_refl 3, clAddr, third, ?_, Or.inr rfl⟩
        unfold ahead
        simp

theorem operate (tracks : Tracks config session) (addr ip : Address) :
    ∃ next, session.prefetcher.prefetcherCacheOperate config addr ip = some next ∧
      Tracks config
        { prefetcher := next
          history := (ip.sliceUpper 2, IpStride.blockNumber config addr) :: session.history } := by
  obtain ⟨reference, represents, remembers⟩ := tracks.remembers
  unfold IpStride.prefetcherCacheOperate
  generalize IpStride.blockNumber config addr = clAddr
  dsimp only
  obtain ⟨found, value, fits, stillRemembers⟩ := remembers.checkHit { ip, lastClAddr := clAddr }
  obtain ⟨table, checked, stays⟩ := represents.checkHit_of_value value
  obtain ⟨filled, after⟩ := stillRemembers.fill (follows_access ip clAddr fits)
  obtain ⟨next, joined, last⟩ := stays.fill_of_filled filled
  rw [checked, Option.bind_some, joined, Option.map_some]
  exact ⟨_, rfl, ⟨_, last, after⟩,
    pursues_access session.prefetcher ip clAddr tracks.pursues fits⟩

theorem pursued_next {history : List (BitVec 64 × BitVec 64)} {lookahead : LookaheadEntry}
    (pursues : Pursues config history lookahead) {pfAddress : Address}
    (isNext : pfAddress = IpStride.blockAddress config
      (IpStride.blockNumber config lookahead.address + BitVec.ofInt 64 lookahead.stride))
    (inPage : config.virtualPrefetch = true ∨
      IpStride.pageNumber config pfAddress = IpStride.pageNumber config lookahead.address) :
    ∃ trigger, Strides history trigger lookahead.stride ∧
      pfAddress = ahead config trigger lookahead.stride
        (IpStride.prefetchDegree - lookahead.degree + 1) ∧
      (config.virtualPrefetch = true ∨ IpStride.pageNumber config pfAddress =
        IpStride.pageNumber config (IpStride.blockAddress config trigger)) := by
  obtain ⟨trigger, strides, reached, samePage⟩ := pursues.pursued
  refine ⟨trigger, strides, ?_, ?_⟩
  · rw [isNext, reached, ahead_succ]
  · rcases inPage with isVirtual | step
    · exact Or.inl isVirtual
    · rcases samePage with isVirtual | before
      · exact Or.inl isVirtual
      · exact Or.inr (step.trans before)

theorem pursues_next {history : List (BitVec 64 × BitVec 64)} {lookahead : LookaheadEntry}
    (pursues : Pursues config history lookahead) {pfAddress : Address}
    (isNext : pfAddress = IpStride.blockAddress config
      (IpStride.blockNumber config lookahead.address + BitVec.ofInt 64 lookahead.stride))
    (inPage : config.virtualPrefetch = true ∨
      IpStride.pageNumber config pfAddress = IpStride.pageNumber config lookahead.address)
    (remains : lookahead.degree - 1 ≠ 0) :
    Pursues config history
      { lookahead with address := pfAddress, degree := lookahead.degree - 1 } := by
  obtain ⟨trigger, strides, reached, samePage⟩ := pursued_next pursues isNext inPage
  have least := pursues.least
  have atMost := pursues.atMost
  have count : IpStride.prefetchDegree - (lookahead.degree - 1) =
      IpStride.prefetchDegree - lookahead.degree + 1 := by
    omega
  refine ⟨Nat.pos_of_ne_zero remains, (Nat.sub_le _ _).trans atMost, trigger, strides, ?_, samePage⟩
  dsimp only
  rw [count]
  exact reached

theorem cycle (tracks : Tracks config session) (underLightLoad success : Bool) :
    ∃ next issued,
      session.prefetcher.prefetcherCycleOperate config underLightLoad success =
        some (next, issued) ∧
      (∀ line ∈ issued, Justified config session.history line) ∧
      Tracks config { session with prefetcher := next } := by
  unfold IpStride.prefetcherCycleOperate
  cases active : session.prefetcher.activeLookahead with
  | none => exact ⟨_, _, rfl, List.forall_mem_nil _, tracks⟩
  | some lookahead =>
      have pursues := tracks.pursues lookahead active
      have positive : lookahead.degree ≠ 0 := Nat.ne_of_gt pursues.least
      dsimp only
      rw [if_neg positive]
      split
      case isFalse =>
        refine ⟨_, _, rfl, List.forall_mem_nil _, tracks.remembers, ?_⟩
        intro other isActive
        cases isActive
      case isTrue inPage =>
        refine ⟨_, _, rfl, ?_, tracks.remembers, ?_⟩
        · intro line member
          obtain ⟨trigger, strides, reached, samePage⟩ := pursued_next pursues rfl inPage
          have least := pursues.least
          have atMost := pursues.atMost
          rw [List.mem_singleton.mp member]
          exact ⟨trigger, _, _, strides, Nat.succ_le_succ (Nat.zero_le _), by omega, reached,
            samePage⟩
        · intro other isActive
          dsimp only at isActive
          cases success with
          | false =>
              rw [if_neg Bool.false_ne_true, if_neg positive] at isActive
              cases isActive
              exact pursues
          | true =>
              rw [if_pos rfl] at isActive
              split at isActive
              case isTrue => cases isActive
              case isFalse remains =>
                cases isActive
                exact pursues_next pursues rfl inPage remains

theorem step (tracks : Tracks config session) (call : IpStrideCall) :
    ∃ next, (ipStrideMachine config).step session call = some next ∧ Tracks config next := by
  unfold ipStrideMachine
  cases call with
  | operate addr ip =>
      obtain ⟨operated, succeeds, still⟩ := tracks.operate addr ip
      dsimp only
      rw [succeeds, Option.map_some]
      exact ⟨_, rfl, still⟩
  | cycle underLightLoad success =>
      obtain ⟨cycled, issued, succeeds, _justified, still⟩ := tracks.cycle underLightLoad success
      dsimp only
      rw [succeeds, Option.map_some]
      exact ⟨_, rfl, still⟩

theorem run (calls : List IpStrideCall) {start : IpStrideSession} (tracks : Tracks config start) :
    ∃ finish, (ipStrideMachine config).run start calls = some finish ∧ Tracks config finish := by
  induction calls generalizing start with
  | nil => exact ⟨start, rfl, tracks⟩
  | cons call rest ih =>
      obtain ⟨next, stepped, still⟩ := tracks.step call
      rw [Machine.run_cons, stepped, Option.bind_some]
      exact ih still

theorem make {start : IpStride} (made : IpStride.make = some start) :
    Tracks config ⟨start, []⟩ := by
  unfold IpStride.make at made
  obtain ⟨table, isTable, isStart⟩ := Option.map_eq_some_iff.mp made
  rw [← isStart]
  refine ⟨⟨_, LruTable.Represents.make _ _ _ _ isTable, rfl, rfl, ?_⟩, ?_⟩
  · intro set pair member
    cases member
  · intro lookahead isActive
    cases isActive

end Tracks

/-- No call of `ip_stride` fails, and it asks for a block only if it is one to three
strides ahead of the third of three accesses of one instruction, in its page. -/
theorem IpStride.run_justified (config : IpStrideConfig) (start : IpStride)
    (made : IpStride.make = some start) (calls : List IpStrideCall)
    (underLightLoad success : Bool) :
    ∃ session next issued,
      (ipStrideMachine config).run ⟨start, []⟩ calls = some session ∧
      session.prefetcher.prefetcherCycleOperate config underLightLoad success =
        some (next, issued) ∧
      ∀ line ∈ issued, Justified config session.history line := by
  have first : Tracks config ⟨start, []⟩ := Tracks.make made
  obtain ⟨session, ran, tracks⟩ := first.run calls
  obtain ⟨next, issued, cycled, justified, _still⟩ := tracks.cycle underLightLoad success
  exact ⟨session, next, issued, ran, cycled, justified⟩

def IpStride.streamConfig : IpStrideConfig where
  log2BlockSize := 6
  blocked := by decide
  log2PageSize := 12
  virtualPrefetch := false

/-- One instruction goes through three blocks, two blocks apart. -/
def IpStride.streamCalls : List IpStrideCall :=
  [.operate 0x1000 0x400, .operate 0x1080 0x400, .operate 0x1100 0x400]

theorem IpStride.make_isSome : IpStride.make.isSome = true := by decide

theorem IpStride.run_justified_stream :
    (∃ session next issued,
      (ipStrideMachine streamConfig).run ⟨IpStride.make.get make_isSome, []⟩ streamCalls =
        some session ∧
      session.prefetcher.prefetcherCycleOperate streamConfig true true = some (next, issued) ∧
      ∀ line ∈ issued, Justified streamConfig session.history line) ∧
    (((ipStrideMachine streamConfig).run ⟨IpStride.make.get make_isSome, []⟩ streamCalls).bind
      (fun session => session.prefetcher.prefetcherCycleOperate streamConfig true true)).map
        Prod.snd = some [⟨0x1180, true, 0⟩] :=
  ⟨IpStride.run_justified streamConfig _ (Option.some_get make_isSome).symm streamCalls true true,
    by decide +kernel⟩

end ChampSim.Prefetch
