/-
The memory operations of the instructions in the reorder buffer.

An operation is complete, a load in the load queue, a store that has not
finished, or not yet placed. A load that waits for a store holds its slot
until the store finishes.
-/

import ChampSim.Core.Order

set_option autoImplicit false

namespace ChampSim.Core

/-! ### Accounts -/

structure Account where
  instrId : Nat
  completedMemOps : Nat
  numMemOps : Nat
  completed : Bool

def OooModelInstr.account (instr : OooModelInstr) : Account where
  instrId := instr.instrId
  completedMemOps := instr.completedMemOps
  numMemOps := instr.numMemOps
  completed := instr.completed

def accountsOf (rob : List OooModelInstr) : List Account := rob.map OooModelInstr.account

def tally (instrId : Nat) (accounts : List Account) : List Account :=
  accounts.map (fun account =>
    if account.instrId = instrId then
      { account with completedMemOps := account.completedMemOps + 1 }
    else account)

def isLoadOf (instrId : Nat) (entry : Option LsqEntry) : Bool :=
  entry.any (fun load => decide (load.instrId = instrId))

def loadsOf (lq : List (Option LsqEntry)) (instrId : Nat) : Nat := lq.countP (isLoadOf instrId)

def isPendingStoreOf (instrId : Nat) (entry : LsqEntry) : Bool :=
  decide (entry.instrId = instrId) && !entry.fetchIssued

def storesOf (sq : List LsqEntry) (instrId : Nat) : Nat := sq.countP (isPendingStoreOf instrId)

def waiting (sq : List LsqEntry) : List Nat :=
  (sq.filter (fun store => !store.fetchIssued)).flatMap (fun store => store.lqDependOnMe)

/-- `missing` counts the operations of an instruction that are not yet placed. -/
structure Accounts (missing : Nat → Nat) (rob : List Account) (lq : List (Option LsqEntry))
    (sq : List LsqEntry) : Prop where
  sorted : (rob.map (fun account => account.instrId)).Pairwise (fun earlier later => earlier < later)
  balanced : ∀ account ∈ rob, account.completedMemOps + loadsOf lq account.instrId +
    storesOf sq account.instrId + missing account.instrId = account.numMemOps
  done : ∀ account ∈ rob, account.completed = true → account.completedMemOps = account.numMemOps
  loadsOwned : ∀ load, some load ∈ lq → ∃ account ∈ rob, account.instrId = load.instrId
  storesOwned : ∀ store ∈ sq, store.fetchIssued = false →
    ∃ account ∈ rob, account.instrId = store.instrId
  waits : ∀ store ∈ sq, store.fetchIssued = false → ∀ slot ∈ store.lqDependOnMe,
    ∃ load, lq[slot]? = some (some load) ∧ load.producerId = some store.instrId
  distinct : (waiting sq).Nodup
  issued : ∀ load, some load ∈ lq → load.fetchIssued = true → load.producerId = none
  finishedFirst : sq.Pairwise (fun earlier later =>
    later.fetchIssued = true → earlier.fetchIssued = true)

/-! ### Counting -/

/-- The operations of one instruction that are not yet placed. -/
def remainingOf (instrId count : Nat) : Nat → Nat :=
  fun other => if other = instrId then count else 0

theorem remainingOf_zero (instrId : Nat) : remainingOf instrId 0 = fun _ => 0 := by
  funext other
  exact ite_self 0

theorem loadsOf_set_none (lq : List (Option LsqEntry)) (slot : Nat) (load : LsqEntry)
    (present : lq[slot]? = some (some load)) (instrId : Nat) :
    loadsOf (lq.set slot none) instrId + (if load.instrId = instrId then 1 else 0) =
      loadsOf lq instrId := by
  unfold loadsOf
  induction lq generalizing slot with
  | nil => cases present
  | cons entry rest ih =>
      cases slot with
      | zero =>
          cases present
          rw [List.set_cons_zero, List.countP_cons, List.countP_cons]
          unfold isLoadOf
          by_cases mine : load.instrId = instrId
          · rw [if_pos mine]
            simp [mine]
          · rw [if_neg mine]
            simp [mine]
      | succ slot =>
          have later := ih slot present
          rw [List.set_cons_succ, List.countP_cons, List.countP_cons]
          omega

theorem loadsOf_pos {lq : List (Option LsqEntry)} {load : LsqEntry} (member : some load ∈ lq) :
    0 < loadsOf lq load.instrId :=
  List.countP_pos_iff.mpr ⟨some load, member, decide_eq_true rfl⟩

theorem storesOf_pos {sq : List LsqEntry} {store : LsqEntry} (member : store ∈ sq)
    (pending : store.fetchIssued = false) :
    0 < storesOf sq store.instrId := by
  apply List.countP_pos_iff.mpr
  refine ⟨store, member, ?_⟩
  unfold isPendingStoreOf
  rw [decide_eq_true rfl, pending]
  rfl

theorem tally_mem {accounts : List Account} {instrId : Nat} {account : Account}
    (member : account ∈ tally instrId accounts) :
    ∃ older ∈ accounts, older.instrId = account.instrId ∧ older.numMemOps = account.numMemOps ∧
      older.completed = account.completed ∧ account.completedMemOps =
        older.completedMemOps + (if older.instrId = instrId then 1 else 0) := by
  obtain ⟨older, among, same⟩ := List.mem_map.mp member
  refine ⟨older, among, ?_⟩
  subst same
  by_cases mine : older.instrId = instrId
  · rw [if_pos mine]
    exact ⟨rfl, rfl, rfl, by rw [if_pos mine]⟩
  · rw [if_neg mine]
    exact ⟨rfl, rfl, rfl, by rw [if_neg mine]; rfl⟩

theorem tally_ids (instrId : Nat) (accounts : List Account) :
    (tally instrId accounts).map (fun account => account.instrId) =
      accounts.map (fun account => account.instrId) := by
  unfold tally
  rw [List.map_map]
  apply List.map_congr_left
  intro account _member
  change (if account.instrId = instrId then _ else account).instrId = account.instrId
  split
  · rfl
  · rfl

theorem tally_owner {accounts : List Account} {owner : Nat} (instrId : Nat)
    (owned : ∃ account ∈ accounts, account.instrId = owner) :
    ∃ account ∈ tally instrId accounts, account.instrId = owner := by
  obtain ⟨account, member, same⟩ := owned
  have listed : owner ∈ (tally instrId accounts).map (fun other => other.instrId) := by
    rw [tally_ids]
    exact List.mem_map.mpr ⟨account, member, same⟩
  obtain ⟨other, among, id⟩ := List.mem_map.mp listed
  exact ⟨other, among, id⟩

def holdings (lq : List (Option LsqEntry)) : List (Option (Nat × Option Nat)) :=
  lq.map (Option.map (fun load => (load.instrId, load.producerId)))

def pledges (sq : List LsqEntry) : List (Nat × Bool × List Nat) :=
  sq.map (fun store => (store.instrId, store.fetchIssued, store.lqDependOnMe))

theorem loadsOf_eq (lq : List (Option LsqEntry)) (instrId : Nat) :
    loadsOf lq instrId =
      (holdings lq).countP (fun holding => holding.any (fun kept => decide (kept.1 = instrId))) := by
  unfold loadsOf holdings
  rw [List.countP_map]
  apply congrArg (fun count => List.countP count lq)
  funext entry
  cases entry with
  | none => rfl
  | some load => rfl

theorem storesOf_eq (sq : List LsqEntry) (instrId : Nat) :
    storesOf sq instrId =
      (pledges sq).countP (fun pledge => decide (pledge.1 = instrId) && !pledge.2.1) := by
  unfold storesOf pledges
  rw [List.countP_map]
  rfl

theorem waiting_eq (sq : List LsqEntry) :
    waiting sq = ((pledges sq).filter (fun pledge => !pledge.2.1)).flatMap
      (fun pledge => pledge.2.2) := by
  unfold waiting pledges
  rw [List.filter_map, List.flatMap_map]
  rfl

/-! ### Finishing an operation -/

/-- The instruction of an entry is found, and one more of its operations is
complete. -/
theorem LsqEntry.finish_tallies (entry : LsqEntry) (rob : List OooModelInstr)
    (sorted : ((accountsOf rob).map (fun account => account.instrId)).Pairwise
      (fun earlier later => earlier < later))
    (owned : ∃ account ∈ accountsOf rob, account.instrId = entry.instrId ∧
      account.completedMemOps + 1 ≤ account.numMemOps) :
    ∃ finished, entry.finish rob = some finished ∧
      accountsOf finished = tally entry.instrId (accountsOf rob) := by
  obtain ⟨account, member, same, below⟩ := owned
  obtain ⟨instr, among, sameInstr⟩ := List.mem_map.mp member
  subst sameInstr
  have sameId : instr.instrId = entry.instrId := same
  obtain ⟨front, back, split⟩ := List.append_of_mem among
  subst split
  unfold accountsOf at sorted
  rw [List.map_map, List.map_append, List.map_cons, List.pairwise_append] at sorted
  obtain ⟨_front, backSorted, crossed⟩ := sorted
  have older : ∀ other ∈ front, other.instrId < entry.instrId := by
    intro other inFront
    rw [← sameId]
    exact crossed other.instrId (List.mem_map.mpr ⟨other, inFront, rfl⟩) instr.instrId
      List.mem_cons_self
  have younger : ∀ other ∈ back, entry.instrId < other.instrId := by
    intro other inBack
    rw [← sameId]
    exact (List.pairwise_cons.mp backSorted).1 other.instrId
      (List.mem_map.mpr ⟨other, inBack, rfl⟩)
  have index : ((front ++ instr :: back).takeWhile
      (fun other => decide (other.instrId < entry.instrId))) = front := by
    rw [List.takeWhile_append_of_pos (fun other inFront => decide_eq_true (older other inFront)),
      List.takeWhile_cons_of_neg (by rw [sameId]; simp), List.append_nil]
  refine ⟨front ++ { instr with completedMemOps := instr.completedMemOps + 1 } :: back, ?_, ?_⟩
  · unfold finish
    dsimp only
    rw [index, List.getElem?_append_right (Nat.le_refl _), Nat.sub_self, List.getElem?_cons_zero]
    change (entry.finishInstr instr).map _ = _
    unfold finishInstr
    rw [if_pos ⟨sameId, below⟩, Option.map_some, List.set_append_right _ _ (Nat.le_refl _),
      Nat.sub_self, List.set_cons_zero]
  · unfold accountsOf tally
    rw [List.map_map, List.map_append, List.map_append, List.map_cons, List.map_cons]
    have frontSame : front.map OooModelInstr.account = front.map ((fun account : Account =>
        if account.instrId = entry.instrId then
          { account with completedMemOps := account.completedMemOps + 1 } else account) ∘
            OooModelInstr.account) := by
      apply List.map_congr_left
      intro other inFront
      exact (if_neg (Nat.ne_of_lt (older other inFront))).symm
    have backSame : back.map OooModelInstr.account = back.map ((fun account : Account =>
        if account.instrId = entry.instrId then
          { account with completedMemOps := account.completedMemOps + 1 } else account) ∘
            OooModelInstr.account) := by
      apply List.map_congr_left
      intro other inBack
      exact (if_neg (Nat.ne_of_gt (younger other inBack))).symm
    rw [← frontSame, ← backSame]
    congr 2
    exact (if_pos sameId).symm

namespace Accounts

variable {missing : Nat → Nat} {rob : List Account} {lq : List (Option LsqEntry)}
  {sq : List LsqEntry}

theorem slot_mem {slot : Nat} {load : LsqEntry} (present : lq[slot]? = some (some load)) :
    some load ∈ lq := List.mem_of_getElem? present

theorem load_owner (accounts : Accounts missing rob lq sq) {load : LsqEntry}
    (member : some load ∈ lq) : ∃ account ∈ rob, account.instrId = load.instrId ∧
      account.completedMemOps + 1 ≤ account.numMemOps := by
  obtain ⟨account, owner, same⟩ := accounts.loadsOwned load member
  have total := accounts.balanced account owner
  have positive := loadsOf_pos member
  rw [← same] at positive
  exact ⟨account, owner, same, by omega⟩

theorem finishLoad (accounts : Accounts missing rob lq sq) (slot : Nat) (load : LsqEntry)
    (present : lq[slot]? = some (some load)) (free : slot ∉ waiting sq) :
    Accounts missing (tally load.instrId rob) (lq.set slot none) sq := by
  have fewer : ∀ other, some other ∈ lq.set slot none → some other ∈ lq := by
    intro other member
    rcases List.mem_or_eq_of_mem_set member with older | newest
    · exact older
    · cases newest
  refine ⟨?_, ?_, ?_, ?_, ?_, ?_, accounts.distinct, ?_, accounts.finishedFirst⟩
  · rw [tally_ids]
    exact accounts.sorted
  · intro account member
    obtain ⟨older, among, sameId, sameTotal, _sameDone, completed⟩ := tally_mem member
    have total := accounts.balanced older among
    have counted := loadsOf_set_none lq slot load present older.instrId
    rw [← sameId, ← sameTotal, completed]
    by_cases mine : load.instrId = older.instrId
    · rw [if_pos mine] at counted
      rw [if_pos mine.symm]
      omega
    · rw [if_neg mine] at counted
      rw [if_neg (fun same => mine same.symm)]
      omega
  · intro account member isDone
    obtain ⟨older, among, sameId, sameTotal, sameDone, completed⟩ := tally_mem member
    have all := accounts.done older among (sameDone.trans isDone)
    have total := accounts.balanced older among
    rw [← sameTotal, completed]
    by_cases mine : older.instrId = load.instrId
    · have positive := loadsOf_pos (slot_mem present)
      rw [← mine] at positive
      omega
    · rw [if_neg mine]
      exact all
  · intro other member
    exact tally_owner _ (accounts.loadsOwned other (fewer other member))
  · intro store member pending
    exact tally_owner _ (accounts.storesOwned store member pending)
  · intro store member pending other held
    obtain ⟨held', there, producer⟩ := accounts.waits store member pending other held
    refine ⟨held', ?_, producer⟩
    have different : slot ≠ other := by
      intro same
      subst same
      exact free (List.mem_flatMap.mpr ⟨store, List.mem_filter.mpr ⟨member, by rw [pending]; rfl⟩,
        held⟩)
    rw [List.getElem?_set_ne different]
    exact there
  · intro other member
    exact accounts.issued other (fewer other member)

/-! ### Finishing a store -/

theorem waiting_append (first second : List LsqEntry) :
    waiting (first ++ second) = waiting first ++ waiting second := by
  unfold waiting
  rw [List.filter_append, List.flatMap_append]

theorem waiting_pending (store : LsqEntry) (rest : List LsqEntry)
    (pending : store.fetchIssued = false) :
    waiting (store :: rest) = store.lqDependOnMe ++ waiting rest := by
  unfold waiting
  rw [List.filter_cons_of_pos (by rw [pending]; rfl), List.flatMap_cons]

theorem waiting_finished (store : LsqEntry) (rest : List LsqEntry)
    (finished : store.fetchIssued = true) : waiting (store :: rest) = waiting rest := by
  unfold waiting
  rw [List.filter_cons_of_neg (by rw [finished]; decide)]

theorem finishStore {front back : List LsqEntry} {store : LsqEntry} (marked : LsqEntry)
    (accounts : Accounts missing rob lq (front ++ store :: back))
    (pending : store.fetchIssued = false) (finished : marked.fetchIssued = true)
    (earlier : ∀ entry ∈ front, entry.fetchIssued = true) :
    Accounts missing (tally store.instrId rob) lq (front ++ marked :: back) ∧
      (∀ slot ∈ store.lqDependOnMe, slot ∉ waiting (front ++ marked :: back)) ∧
        store.lqDependOnMe.Nodup := by
  have distinct := accounts.distinct
  rw [waiting_append, waiting_pending store back pending] at distinct
  have others : waiting (front ++ marked :: back) = waiting front ++ waiting back := by
    rw [waiting_append, waiting_finished marked back finished]
  have counted : ∀ instrId, storesOf (front ++ marked :: back) instrId +
      (if store.instrId = instrId then 1 else 0) = storesOf (front ++ store :: back) instrId := by
    intro instrId
    unfold storesOf
    rw [List.countP_append, List.countP_append, List.countP_cons, List.countP_cons]
    unfold isPendingStoreOf
    rw [finished, pending]
    by_cases mine : store.instrId = instrId
    · simp [mine]
      omega
    · simp [mine]
  have among : ∀ other, other ∈ front ++ marked :: back → other.fetchIssued = false →
      other ∈ front ++ store :: back := by
    intro other member open'
    rcases List.mem_append.mp member with inFront | later
    · exact List.mem_append_left _ inFront
    · rcases List.mem_cons.mp later with isMarked | inBack
      · rw [isMarked, finished] at open'
        cases open'
      · exact List.mem_append_right _ (List.mem_cons_of_mem store inBack)
  have mine : store ∈ front ++ store :: back := List.mem_append_right _ List.mem_cons_self
  refine ⟨⟨?_, ?_, ?_, ?_, ?_, ?_, ?_, accounts.issued, ?_⟩, ?_, ?_⟩
  · rw [tally_ids]
    exact accounts.sorted
  · intro account member
    obtain ⟨older, olderMember, same, sameTotal, _sameDone, completed⟩ := tally_mem member
    have total := accounts.balanced older olderMember
    have fewer := counted older.instrId
    rw [← same, ← sameTotal, completed]
    by_cases own : store.instrId = older.instrId
    · rw [if_pos own] at fewer
      rw [if_pos own.symm]
      omega
    · rw [if_neg own] at fewer
      rw [if_neg (fun equal => own equal.symm)]
      omega
  · intro account member isDone
    obtain ⟨older, olderMember, same, sameTotal, sameDone, completed⟩ := tally_mem member
    have all := accounts.done older olderMember (sameDone.trans isDone)
    have total := accounts.balanced older olderMember
    have fewer := counted older.instrId
    rw [← sameTotal, completed]
    by_cases own : older.instrId = store.instrId
    · rw [if_pos own.symm] at fewer
      omega
    · rw [if_neg own]
      exact all
  · intro load member
    exact tally_owner _ (accounts.loadsOwned load member)
  · intro other member open'
    exact tally_owner _ (accounts.storesOwned other (among other member open') open')
  · intro other member open'
    exact accounts.waits other (among other member open') open'
  · rw [others]
    exact distinct.sublist
      ((List.sublist_append_right store.lqDependOnMe (waiting back)).append_left (waiting front))
  · have before := accounts.finishedFirst
    rw [List.pairwise_append, List.pairwise_cons] at before ⊢
    refine ⟨before.1, ⟨?_, before.2.1.2⟩, ?_⟩
    · intro _later _inBack _done
      exact finished
    · intro entry inFront _later _among _done
      exact earlier entry inFront
  · intro slot held inOthers
    rw [others] at inOthers
    rw [List.nodup_append] at distinct
    rcases List.mem_append.mp inOthers with inFront | inBack
    · exact distinct.2.2 slot inFront slot (List.mem_append_left _ held) rfl
    · have both := distinct.2.1
      rw [List.nodup_append] at both
      exact both.2.2 slot held slot inBack rfl
  · rw [List.nodup_append] at distinct
    have both := distinct.2.1
    rw [List.nodup_append] at both
    exact both.1

theorem store_owner (accounts : Accounts missing rob lq sq) {store : LsqEntry} (member : store ∈ sq)
    (pending : store.fetchIssued = false) : ∃ account ∈ rob, account.instrId = store.instrId ∧
      account.completedMemOps + 1 ≤ account.numMemOps := by
  obtain ⟨account, owner, same⟩ := accounts.storesOwned store member pending
  have total := accounts.balanced account owner
  have positive := storesOf_pos member pending
  rw [← same] at positive
  exact ⟨account, owner, same, by omega⟩

/-! ### Placing an operation -/

theorem placeLoad {instrId count : Nat}
    (accounts : Accounts (remainingOf instrId (count + 1)) rob lq sq) (slot : Nat)
    (load : LsqEntry) (free : lq[slot]? = some none) (sameId : load.instrId = instrId)
    (unissued : load.fetchIssued = false) (owned : ∃ account ∈ rob, account.instrId = instrId) :
    Accounts (remainingOf instrId count) rob (lq.set slot (some load)) sq := by
  obtain ⟨within, atSlot⟩ := List.getElem?_eq_some_iff.mp free
  have emptied : (lq.set slot (some load)).set slot none = lq := by
    rw [List.set_set, ← atSlot]
    exact List.set_getElem_self within
  have counted : ∀ other, loadsOf (lq.set slot (some load)) other =
      loadsOf lq other + (if instrId = other then 1 else 0) := by
    intro other
    have taken := loadsOf_set_none (lq.set slot (some load)) slot load
      (List.getElem?_set_self within) other
    rw [emptied, sameId] at taken
    exact taken.symm
  have known : ∀ other, some other ∈ lq.set slot (some load) → other = load ∨ some other ∈ lq := by
    intro other member
    rcases List.mem_or_eq_of_mem_set member with older | newest
    · exact Or.inr older
    · exact Or.inl (Option.some.inj newest)
  refine ⟨accounts.sorted, ?_, accounts.done, ?_, accounts.storesOwned, ?_, accounts.distinct, ?_,
    accounts.finishedFirst⟩
  · intro account member
    have total := accounts.balanced account member
    rw [counted]
    unfold remainingOf at total ⊢
    by_cases mine : account.instrId = instrId
    · rw [if_pos mine] at total ⊢
      rw [if_pos mine.symm]
      omega
    · rw [if_neg mine] at total ⊢
      rw [if_neg (fun same => mine same.symm)]
      omega
  · intro other member
    rcases known other member with newest | older
    · rw [newest, sameId]
      exact owned
    · exact accounts.loadsOwned other older
  · intro store member pending other held
    obtain ⟨held', there, producer⟩ := accounts.waits store member pending other held
    refine ⟨held', ?_, producer⟩
    have different : slot ≠ other := by
      intro same
      subst same
      rw [free] at there
      cases there
    rw [List.getElem?_set_ne different]
    exact there
  · intro other member issued
    rcases known other member with newest | older
    · rw [newest, unissued] at issued
      cases issued
    · exact accounts.issued other older issued

theorem placeForwarded {instrId count : Nat}
    (accounts : Accounts (remainingOf instrId (count + 1)) rob lq sq) :
    Accounts (remainingOf instrId count) (tally instrId rob) lq sq := by
  refine ⟨?_, ?_, ?_, ?_, ?_, accounts.waits, accounts.distinct, accounts.issued,
    accounts.finishedFirst⟩
  · rw [tally_ids]
    exact accounts.sorted
  · intro account member
    obtain ⟨older, among, sameId, sameTotal, _sameDone, completed⟩ := tally_mem member
    have total := accounts.balanced older among
    rw [← sameId, ← sameTotal, completed]
    unfold remainingOf at total ⊢
    by_cases mine : older.instrId = instrId
    · rw [if_pos mine] at total ⊢
      rw [if_pos mine]
      omega
    · rw [if_neg mine] at total ⊢
      rw [if_neg mine]
      omega
  · intro account member isDone
    obtain ⟨older, among, sameId, sameTotal, sameDone, completed⟩ := tally_mem member
    have all := accounts.done older among (sameDone.trans isDone)
    have total := accounts.balanced older among
    rw [← sameTotal, completed]
    unfold remainingOf at total
    by_cases mine : older.instrId = instrId
    · rw [if_pos mine] at total
      omega
    · rw [if_neg mine]
      exact all
  · intro load member
    exact tally_owner _ (accounts.loadsOwned load member)
  · intro store member pending
    exact tally_owner _ (accounts.storesOwned store member pending)

theorem placeStore {instrId count : Nat}
    (accounts : Accounts (remainingOf instrId (count + 1)) rob lq sq) (store : LsqEntry)
    (sameId : store.instrId = instrId) (pending : store.fetchIssued = false)
    (releases : store.lqDependOnMe = []) (owned : ∃ account ∈ rob, account.instrId = instrId) :
    Accounts (remainingOf instrId count) rob lq (sq ++ [store]) := by
  have counted : ∀ other, storesOf (sq ++ [store]) other =
      storesOf sq other + (if instrId = other then 1 else 0) := by
    intro other
    unfold storesOf isPendingStoreOf
    rw [List.countP_append, List.countP_singleton, sameId, pending]
    by_cases mine : instrId = other
    · simp [mine]
    · simp [mine]
  refine ⟨accounts.sorted, ?_, accounts.done, accounts.loadsOwned, ?_, ?_, ?_, accounts.issued, ?_⟩
  · intro account member
    have total := accounts.balanced account member
    rw [counted]
    unfold remainingOf at total ⊢
    by_cases mine : account.instrId = instrId
    · rw [if_pos mine] at total ⊢
      rw [if_pos mine.symm]
      omega
    · rw [if_neg mine] at total ⊢
      rw [if_neg (fun same => mine same.symm)]
      omega
  · intro other member open'
    rcases List.mem_append.mp member with older | newest
    · exact accounts.storesOwned other older open'
    · rw [List.mem_singleton.mp newest, sameId]
      exact owned
  · intro other member open' slot held
    rcases List.mem_append.mp member with older | newest
    · exact accounts.waits other older open' slot held
    · rw [List.mem_singleton.mp newest, releases] at held
      cases held
  · rw [waiting_append, waiting_pending store [] pending, releases]
    change (waiting sq ++ ([] ++ [])).Nodup
    rw [List.append_nil, List.append_nil]
    exact accounts.distinct
  · rw [List.pairwise_append]
    refine ⟨accounts.finishedFirst, List.pairwise_singleton _ _, ?_⟩
    intro earlier _among later newest finished
    rw [List.mem_singleton.mp newest, pending] at finished
    cases finished

theorem holdLoad {front back : List LsqEntry} {store : LsqEntry}
    (accounts : Accounts missing rob lq (front ++ store :: back)) (slot : Nat) (load : LsqEntry)
    (present : lq[slot]? = some (some load)) (producer : load.producerId = some store.instrId)
    (free : slot ∉ waiting (front ++ store :: back)) (pending : store.fetchIssued = false) :
    Accounts missing rob lq
      (front ++ { store with lqDependOnMe := store.lqDependOnMe ++ [slot] } :: back) := by
  have known : ∀ other,
      other ∈ front ++ { store with lqDependOnMe := store.lqDependOnMe ++ [slot] } :: back →
        other = { store with lqDependOnMe := store.lqDependOnMe ++ [slot] } ∨
          other ∈ front ++ store :: back := by
    intro other member
    rcases List.mem_append.mp member with inFront | later
    · exact Or.inr (List.mem_append_left _ inFront)
    · rcases List.mem_cons.mp later with isHolder | inBack
      · exact Or.inl isHolder
      · exact Or.inr (List.mem_append_right _ (List.mem_cons_of_mem store inBack))
  have mine : store ∈ front ++ store :: back := List.mem_append_right _ List.mem_cons_self
  refine ⟨accounts.sorted, ?_, accounts.done, accounts.loadsOwned, ?_, ?_, ?_, accounts.issued, ?_⟩
  · intro account member
    have total := accounts.balanced account member
    unfold storesOf at total ⊢
    rw [List.countP_append, List.countP_cons] at total ⊢
    exact total
  · intro other member open'
    rcases known other member with isHolder | older
    · rw [isHolder]
      exact accounts.storesOwned store mine pending
    · exact accounts.storesOwned other older open'
  · intro other member open' held among
    rcases known other member with isHolder | older
    · rw [isHolder] at among ⊢
      rcases List.mem_append.mp among with before | newest
      · exact accounts.waits store mine pending held before
      · rw [List.mem_singleton.mp newest]
        exact ⟨load, present, producer⟩
    · exact accounts.waits other older open' held among
  · have distinct := accounts.distinct
    rw [waiting_append, waiting_pending store back pending] at distinct free
    rw [waiting_append,
      waiting_pending { store with lqDependOnMe := store.lqDependOnMe ++ [slot] } back pending]
    have moved : (waiting front ++ (store.lqDependOnMe ++ [slot] ++ waiting back)).Perm
        (slot :: (waiting front ++ (store.lqDependOnMe ++ waiting back))) := by
      rw [List.append_assoc store.lqDependOnMe, ← List.append_assoc (waiting front),
        ← List.append_assoc (waiting front)]
      exact List.perm_middle
    exact moved.nodup_iff.mpr (List.nodup_cons.mpr ⟨free, distinct⟩)
  · have before := accounts.finishedFirst
    rw [List.pairwise_append, List.pairwise_cons] at before ⊢
    refine ⟨before.1, ⟨before.2.1.1, before.2.1.2⟩, ?_⟩
    intro earlier inFront later among finished
    rcases List.mem_cons.mp among with isHolder | inBack
    · rw [isHolder] at finished
      exact before.2.2 earlier inFront store List.mem_cons_self finished
    · exact before.2.2 earlier inFront later (List.mem_cons_of_mem store inBack) finished

/-! ### Instructions of the reorder buffer -/

theorem complete {front back : List Account} {account : Account}
    (accounts : Accounts missing (front ++ account :: back) lq sq)
    (all : account.completedMemOps = account.numMemOps) :
    Accounts missing (front ++ { account with completed := true } :: back) lq sq := by
  have known : ∀ other ∈ front ++ { account with completed := true } :: back,
      other = { account with completed := true } ∨ other ∈ front ++ account :: back := by
    intro other member
    rcases List.mem_append.mp member with inFront | later
    · exact Or.inr (List.mem_append_left _ inFront)
    · rcases List.mem_cons.mp later with isMarked | inBack
      · exact Or.inl isMarked
      · exact Or.inr (List.mem_append_right _ (List.mem_cons_of_mem account inBack))
  have mine : account ∈ front ++ account :: back := List.mem_append_right _ List.mem_cons_self
  have owner : ∀ instrId, (∃ other ∈ front ++ account :: back, other.instrId = instrId) →
      ∃ other ∈ front ++ { account with completed := true } :: back, other.instrId = instrId := by
    rintro instrId ⟨other, member, same⟩
    rcases List.mem_append.mp member with inFront | later
    · exact ⟨other, List.mem_append_left _ inFront, same⟩
    · rcases List.mem_cons.mp later with isAccount | inBack
      · exact ⟨_, List.mem_append_right _ List.mem_cons_self, isAccount ▸ same⟩
      · exact ⟨other, List.mem_append_right _ (List.mem_cons_of_mem _ inBack), same⟩
  refine ⟨?_, ?_, ?_, ?_, ?_, accounts.waits, accounts.distinct, accounts.issued,
    accounts.finishedFirst⟩
  · have sorted := accounts.sorted
    rw [List.map_append, List.map_cons] at sorted ⊢
    exact sorted
  · intro other member
    rcases known other member with isMarked | older
    · rw [isMarked]
      exact accounts.balanced account mine
    · exact accounts.balanced other older
  · intro other member isDone
    rcases known other member with isMarked | older
    · rw [isMarked]
      exact all
    · exact accounts.done other older isDone
  · intro load member
    exact owner load.instrId (accounts.loadsOwned load member)
  · intro store member pending
    exact owner store.instrId (accounts.storesOwned store member pending)

/-- No entry of either queue belongs to an instruction that is complete. -/
theorem completed_owns (accounts : Accounts missing rob lq sq) {account : Account}
    (member : account ∈ rob) (isDone : account.completed = true) :
    loadsOf lq account.instrId = 0 ∧ storesOf sq account.instrId = 0 := by
  have total := accounts.balanced account member
  have all := accounts.done account member isDone
  omega

theorem retire {gone rest : List Account} (accounts : Accounts missing (gone ++ rest) lq sq)
    (complete : ∀ account ∈ gone, account.completed = true) : Accounts missing rest lq sq := by
  have sorted := accounts.sorted
  rw [List.map_append, List.pairwise_append] at sorted
  refine ⟨sorted.2.1, ?_, ?_, ?_, ?_, accounts.waits, accounts.distinct, accounts.issued,
    accounts.finishedFirst⟩
  · intro account member
    exact accounts.balanced account (List.mem_append_right gone member)
  · intro account member
    exact accounts.done account (List.mem_append_right gone member)
  · intro load member
    obtain ⟨account, among, same⟩ := accounts.loadsOwned load member
    rcases List.mem_append.mp among with inGone | inRest
    · have none := (accounts.completed_owns among (complete account inGone)).1
      have positive := loadsOf_pos member
      rw [← same] at positive
      omega
    · exact ⟨account, inRest, same⟩
  · intro store member pending
    obtain ⟨account, among, same⟩ := accounts.storesOwned store member pending
    rcases List.mem_append.mp among with inGone | inRest
    · have none := (accounts.completed_owns among (complete account inGone)).2
      have positive := storesOf_pos member pending
      rw [← same] at positive
      omega
    · exact ⟨account, inRest, same⟩

theorem enter {newest : Account} (accounts : Accounts (fun _ => 0) rob lq sq)
    (youngest : ∀ account ∈ rob, account.instrId < newest.instrId)
    (fresh : newest.completedMemOps = 0 ∧ newest.completed = false) :
    Accounts (remainingOf newest.instrId newest.numMemOps) (rob ++ [newest]) lq sq := by
  have unknown : ∀ account ∈ rob, account.instrId ≠ newest.instrId :=
    fun account member => Nat.ne_of_lt (youngest account member)
  have noLoads : loadsOf lq newest.instrId = 0 := by
    apply List.countP_eq_zero.mpr
    intro entry member mine
    obtain ⟨load, isLoad, same⟩ := Option.any_eq_true _ _ |>.mp mine
    subst isLoad
    obtain ⟨account, among, owner⟩ := accounts.loadsOwned load member
    exact unknown account among (owner.trans (of_decide_eq_true same))
  have noStores : storesOf sq newest.instrId = 0 := by
    apply List.countP_eq_zero.mpr
    intro store member mine
    obtain ⟨same, pending⟩ := Bool.and_eq_true_iff.mp mine
    obtain ⟨account, among, owner⟩ := accounts.storesOwned store member
      (Bool.not_eq_true' _ |>.mp pending)
    exact unknown account among (owner.trans (of_decide_eq_true same))
  refine ⟨?_, ?_, ?_, ?_, ?_, accounts.waits, accounts.distinct, accounts.issued,
    accounts.finishedFirst⟩
  · rw [List.map_append, List.pairwise_append]
    refine ⟨accounts.sorted, List.pairwise_singleton _ _, ?_⟩
    intro earlier member later among
    obtain ⟨account, inRob, same⟩ := List.mem_map.mp member
    rw [List.mem_singleton.mp among, ← same]
    exact youngest account inRob
  · intro account member
    unfold remainingOf
    rcases List.mem_append.mp member with older | isNewest
    · rw [if_neg (unknown account older)]
      exact accounts.balanced account older
    · rw [List.mem_singleton.mp isNewest, if_pos rfl, noLoads, noStores, fresh.1]
      omega
  · intro account member isDone
    rcases List.mem_append.mp member with older | isNewest
    · exact accounts.done account older isDone
    · rw [List.mem_singleton.mp isNewest, fresh.2] at isDone
      cases isDone
  · intro load member
    obtain ⟨account, among, same⟩ := accounts.loadsOwned load member
    exact ⟨account, List.mem_append_left _ among, same⟩
  · intro store member pending
    obtain ⟨account, among, same⟩ := accounts.storesOwned store member pending
    exact ⟨account, List.mem_append_left _ among, same⟩

/-! ### Changes of the two queues that the accounts do not see -/

theorem changeLoads (accounts : Accounts missing rob lq sq) (changed : List (Option LsqEntry))
    (same : holdings changed = holdings lq)
    (issued : ∀ load, some load ∈ changed → load.fetchIssued = true → load.producerId = none) :
    Accounts missing rob changed sq := by
  refine ⟨accounts.sorted, ?_, accounts.done, ?_, accounts.storesOwned, ?_, accounts.distinct,
    issued, accounts.finishedFirst⟩
  · intro account member
    have total := accounts.balanced account member
    rw [loadsOf_eq] at total ⊢
    rw [same]
    exact total
  · intro load member
    have kept : some (load.instrId, load.producerId) ∈ holdings lq := by
      rw [← same]
      exact List.mem_map.mpr ⟨some load, member, rfl⟩
    obtain ⟨entry, among, older⟩ := List.mem_map.mp kept
    obtain ⟨before, isEntry, keeps⟩ := Option.map_eq_some_iff.mp older
    subst isEntry
    obtain ⟨account, owner, id⟩ := accounts.loadsOwned before among
    exact ⟨account, owner, id.trans (congrArg Prod.fst keeps)⟩
  · intro store member pending slot held
    obtain ⟨load, there, producer⟩ := accounts.waits store member pending slot held
    have kept : (holdings changed)[slot]? = some (some (load.instrId, load.producerId)) := by
      rw [same]
      unfold holdings
      rw [List.getElem?_map, there]
      rfl
    unfold holdings at kept
    rw [List.getElem?_map] at kept
    obtain ⟨entry, atSlot, keeps⟩ := Option.map_eq_some_iff.mp kept
    obtain ⟨after, isEntry, both⟩ := Option.map_eq_some_iff.mp keeps
    subst isEntry
    exact ⟨after, atSlot, (congrArg Prod.snd both).trans producer⟩

theorem changeStores (accounts : Accounts missing rob lq sq) (changed : List LsqEntry)
    (same : pledges changed = pledges sq) : Accounts missing rob lq changed := by
  have known : ∀ store ∈ changed, ∃ older ∈ sq, older.instrId = store.instrId ∧
      older.fetchIssued = store.fetchIssued ∧ older.lqDependOnMe = store.lqDependOnMe := by
    intro store member
    have kept : (store.instrId, store.fetchIssued, store.lqDependOnMe) ∈ pledges sq := by
      rw [← same]
      exact List.mem_map.mpr ⟨store, member, rfl⟩
    obtain ⟨older, among, keeps⟩ := List.mem_map.mp kept
    exact ⟨older, among, congrArg Prod.fst keeps, congrArg (fun pledge => pledge.2.1) keeps,
      congrArg (fun pledge => pledge.2.2) keeps⟩
  refine ⟨accounts.sorted, ?_, accounts.done, accounts.loadsOwned, ?_, ?_, ?_, accounts.issued, ?_⟩
  · intro account member
    have total := accounts.balanced account member
    rw [storesOf_eq] at total ⊢
    rw [same]
    exact total
  · intro store member pending
    obtain ⟨older, among, id, issued, _holds⟩ := known store member
    obtain ⟨account, owner, owns⟩ := accounts.storesOwned older among (issued.trans pending)
    exact ⟨account, owner, owns.trans id⟩
  · intro store member pending slot held
    obtain ⟨older, among, id, issued, holds⟩ := known store member
    rw [← holds] at held
    rw [← id]
    exact accounts.waits older among (issued.trans pending) slot held
  · rw [waiting_eq, same, ← waiting_eq]
    exact accounts.distinct
  · have finished := accounts.finishedFirst
    have through : ∀ stores : List LsqEntry, stores.Pairwise (fun earlier later =>
        later.fetchIssued = true → earlier.fetchIssued = true) ↔
          (pledges stores).Pairwise (fun earlier later =>
            later.2.1 = true → earlier.2.1 = true) := by
      intro stores
      unfold pledges
      rw [List.pairwise_map]
    rw [through, same, ← through]
    exact finished

theorem dropFinished {gone rest : List LsqEntry} (accounts : Accounts missing rob lq (gone ++ rest))
    (finished : ∀ store ∈ gone, store.fetchIssued = true) : Accounts missing rob lq rest := by
  refine ⟨accounts.sorted, ?_, accounts.done, accounts.loadsOwned, ?_, ?_, ?_, accounts.issued, ?_⟩
  · intro account member
    have total := accounts.balanced account member
    have none : storesOf gone account.instrId = 0 := by
      apply List.countP_eq_zero.mpr
      intro store among mine
      obtain ⟨_same, pending⟩ := Bool.and_eq_true_iff.mp mine
      rw [finished store among] at pending
      cases pending
    unfold storesOf at total none ⊢
    rw [List.countP_append, none, Nat.zero_add] at total
    exact total
  · intro store member
    exact accounts.storesOwned store (List.mem_append_right gone member)
  · intro store member
    exact accounts.waits store (List.mem_append_right gone member)
  · have distinct := accounts.distinct
    rw [waiting_append] at distinct
    exact (List.nodup_append.mp distinct).2.1
  · exact (List.pairwise_append.mp accounts.finishedFirst).2.1

end Accounts

end ChampSim.Core
