/-
The stall of the front end after a misprediction.

Fetching stops with the branch that was mispredicted, and resumes when the
branch is decoded or when it completes. While it is stopped the branch is the
youngest instruction of the pipeline and the only one that is unresolved.
-/

import ChampSim.Core.MemoryStages

set_option autoImplicit false

namespace ChampSim.Core

open Transition Cache

def OooModelInstr.unresolved (instr : OooModelInstr) : Bool :=
  instr.branchMispredicted && !instr.completed

def OooModelInstr.mark (instr : OooModelInstr) : Nat × Bool := (instr.instrId, instr.unresolved)

def marks (instrs : List OooModelInstr) : List (Nat × Bool) := instrs.map OooModelInstr.mark

theorem marks_append (first second : List OooModelInstr) :
    marks (first ++ second) = marks first ++ marks second := List.map_append

theorem mark_mem {instr : OooModelInstr} {instrs : List OooModelInstr} (member : instr ∈ instrs) :
    instr.mark ∈ marks instrs := List.mem_map.mpr ⟨instr, member, rfl⟩

/-- Fetching goes on only while nothing is unresolved, and waits for the one
unresolved instruction, the youngest. -/
def Stalled : Option Nat → List (Nat × Bool) → Prop
  | some _, marked => ∀ mark ∈ marked, mark.2 = false
  | none, marked => ∃ branch others, marked.Perm ((branch, true) :: others) ∧
      ∀ mark ∈ others, mark.1 < branch ∧ mark.2 = false

namespace Stalled

variable {resume : Option Nat} {marked other : List (Nat × Bool)}

theorem perm (stalled : Stalled resume marked) (same : marked.Perm other) :
    Stalled resume other := by
  cases resume with
  | some time => exact fun mark member => stalled mark (same.mem_iff.mpr member)
  | none =>
      obtain ⟨branch, others, split, older⟩ := stalled
      exact ⟨branch, others, same.symm.trans split, older⟩

theorem drop {gone : List (Nat × Bool)} (stalled : Stalled resume (gone ++ marked))
    (resolved : ∀ mark ∈ gone, mark.2 = false) : Stalled resume marked := by
  cases resume with
  | some time => exact fun mark member => stalled mark (List.mem_append_right gone member)
  | none =>
      obtain ⟨branch, others, split, older⟩ := stalled
      have present : (branch, true) ∈ marked := by
        rcases List.mem_append.mp (split.mem_iff.mpr List.mem_cons_self) with isGone | kept
        · cases resolved (branch, true) isGone
        · exact kept
      obtain ⟨before, after, same⟩ := List.append_of_mem present
      have front : marked.Perm ((branch, true) :: (before ++ after)) := by
        rw [same]
        exact List.perm_middle
      have rest : others.Perm (gone ++ (before ++ after)) := by
        apply List.Perm.cons_inv (a := (branch, true))
        exact split.symm.trans ((front.append_left gone).trans List.perm_middle)
      exact ⟨branch, before ++ after, front, fun mark member =>
        older mark (rest.mem_iff.mpr (List.mem_append_right gone member))⟩

theorem resolve {front back : List (Nat × Bool)} {id : Nat} {unresolved : Bool}
    (stalled : Stalled resume (front ++ (id, unresolved) :: back)) (time : Nat) :
    Stalled (if unresolved then some time else resume) (front ++ (id, false) :: back) := by
  cases unresolved with
  | false => exact stalled
  | true =>
      have branchFirst : (front ++ (id, true) :: back).Perm ((id, true) :: (front ++ back)) :=
        List.perm_middle
      cases resume with
      | some earlier => cases stalled (id, true) (branchFirst.mem_iff.mpr List.mem_cons_self)
      | none =>
          obtain ⟨branch, others, split, older⟩ := stalled
          have same := branchFirst.symm.trans split
          have isBranch : (id, true) = (branch, true) := by
            rcases List.mem_cons.mp (same.mem_iff.mp List.mem_cons_self) with first | later
            · exact first
            · cases (older (id, true) later).2
          rw [isBranch] at same
          have rest := List.Perm.cons_inv same
          intro mark member
          have among : mark ∈ (id, false) :: (front ++ back) := List.perm_middle.mem_iff.mp member
          rcases List.mem_cons.mp among with isResolved | isOther
          · rw [isResolved]
          · exact (older mark (rest.mem_iff.mp isOther)).2

/-- A misprediction that is fetched is the youngest, and fetching stops. -/
theorem enter {time id : Nat} {unresolved : Bool} (fetching : Stalled (some time) marked)
    (newest : ∀ mark ∈ marked, mark.1 < id) :
    Stalled (if unresolved then none else some time) (marked ++ [(id, unresolved)]) := by
  cases unresolved with
  | true =>
      exact ⟨id, marked, List.perm_append_singleton _ _, fun mark member =>
        ⟨newest mark member, fetching mark member⟩⟩
  | false =>
      intro mark member
      rcases List.mem_append.mp member with older | isNewest
      · exact fetching mark older
      · rw [List.mem_singleton.mp isNewest]

end Stalled

namespace O3Cpu

variable {Module : Type} (config : Config) (hooks : CoreModules Module)

/-- The instructions from the fetch buffer to the reorder buffer. -/
def pipeline (state : O3Cpu Module) : List OooModelInstr :=
  state.rob ++ state.dispatchBuffer ++ state.dibHitBuffer ++ state.decodeBuffer ++
    state.ifetchBuffer

/-- The instruction is the only one that is unresolved, and the youngest. -/
def Awaits (state : O3Cpu Module) (branch : OooModelInstr) : Prop :=
  state.pipeline.filter (fun instr => instr.unresolved) = [branch] ∧
    ∀ other ∈ state.pipeline, other = branch ∨ other.instrId < branch.instrId

/-- The step between the states decodes the instruction and finds out that it
was mispredicted, or completes it. -/
def Resolves (state next : O3Cpu Module) (label : Step) (branch : OooModelInstr) : Prop :=
  (label = .stage .decodeInstruction ∧ branch ∈ (state.selectDecodes config).decodes ∧
      branch.resolvesAtDecode = true) ∨
    (label = .stage .completeInflightInstruction ∧
      ∃ done ∈ next.rob, done.instrId = branch.instrId ∧ done.completed = true)

/-- What a run keeps of the stall: no prediction of an instruction that waits
to be fetched is known. -/
structure Stalls (state : O3Cpu Module) : Prop where
  input : ∀ instr ∈ state.inputQueue, instr.branchMispredicted = false
  stalled : Stalled state.fetchResumeTime (marks state.pipeline)

theorem awaits_iff {state : O3Cpu Module}
    (stalled : Stalled state.fetchResumeTime (marks state.pipeline)) :
    state.fetchResumeTime = none ↔ ∃ branch, state.Awaits branch := by
  cases resume : state.fetchResumeTime with
  | some time =>
      rw [resume] at stalled
      constructor
      · intro impossible
        cases impossible
      · rintro ⟨branch, only, _youngest⟩
        have present : branch ∈ state.pipeline.filter (fun instr => instr.unresolved) := by
          rw [only]
          exact List.mem_cons_self
        obtain ⟨member, unresolved⟩ := List.mem_filter.mp present
        have resolved : branch.unresolved = false := stalled branch.mark (mark_mem member)
        rw [resolved] at unresolved
        cases unresolved
  | none =>
      rw [resume] at stalled
      obtain ⟨id, others, split, older⟩ := stalled
      refine ⟨fun _stopped => ?_, fun _awaits => rfl⟩
      have onlyMark : (state.pipeline.filter (fun instr => instr.unresolved)).map
          OooModelInstr.mark = [(id, true)] := by
        have settled : others.filter (fun mark => mark.2) = [] := by
          apply List.filter_eq_nil_iff.mpr
          intro mark member unresolved
          rw [(older mark member).2] at unresolved
          cases unresolved
        have filtered := split.filter (fun mark => mark.2)
        rw [List.filter_cons_of_pos rfl, settled] at filtered
        unfold marks at filtered
        rw [List.filter_map] at filtered
        exact List.perm_singleton.mp filtered
      obtain ⟨branch, only, isBranch⟩ := List.map_eq_singleton_iff.mp onlyMark
      refine ⟨branch, only, ?_⟩
      intro other member
      rcases List.mem_cons.mp (split.mem_iff.mp (mark_mem member)) with isId | isOlder
      · have unresolved : other.unresolved = true := congrArg Prod.snd isId
        have among : other ∈ state.pipeline.filter (fun instr => instr.unresolved) :=
          List.mem_filter.mpr ⟨member, unresolved⟩
        rw [only] at among
        exact Or.inl (List.mem_singleton.mp among)
      · have less := (older other.mark isOlder).1
        have sameId : branch.instrId = id := congrArg Prod.fst isBranch
        rw [← sameId] at less
        exact Or.inr less

theorem Awaits.unique {state : O3Cpu Module} {branch other : OooModelInstr}
    (awaits : state.Awaits branch) (member : other ∈ state.pipeline)
    (unresolved : other.unresolved = true) : other = branch := by
  have among : other ∈ state.pipeline.filter (fun instr => instr.unresolved) :=
    List.mem_filter.mpr ⟨member, unresolved⟩
  rw [awaits.1] at among
  exact List.mem_singleton.mp among

theorem Awaits.member {state : O3Cpu Module} {branch : OooModelInstr}
    (awaits : state.Awaits branch) :
    branch ∈ state.pipeline ∧ branch.unresolved = true := by
  apply List.mem_filter.mp
  rw [awaits.1]
  exact List.mem_cons_self

/-! ### Stages that resolve nothing -/

theorem marks_withoutOps {rob other : List OooModelInstr} (same : withoutOps rob = withoutOps other) :
    marks rob = marks other := by
  have through : ∀ instrs, marks instrs = marks (withoutOps instrs) := by
    intro instrs
    unfold marks withoutOps
    rw [List.map_map]
    rfl
  rw [through, same, ← through]

theorem Stalls.same {state next : O3Cpu Module} (stalls : state.Stalls)
    (input : next.inputQueue = state.inputQueue)
    (resume : next.fetchResumeTime = state.fetchResumeTime)
    (moved : (marks state.pipeline).Perm (marks next.pipeline)) : next.Stalls := by
  refine ⟨?_, ?_⟩
  · rw [input]
    exact stalls.input
  · rw [resume]
    exact stalls.stalled.perm moved

theorem retireRob_stalls (state next : O3Cpu Module) (stalls : state.Stalls)
    (ran : state.retireRob config = some next) : next.Stalls := by
  obtain ⟨alloc, _retired, same⟩ := Option.map_eq_some_iff.mp ran
  subst same
  refine ⟨stalls.input, ?_⟩
  have isPrefix := Queue.span_isPrefix config.retireWidth
    (fun instr : OooModelInstr => instr.completed) state.rob
  have completed := Queue.span_holds config.retireWidth
    (fun instr : OooModelInstr => instr.completed) state.rob
  change state.retiring config <+: state.rob at isPrefix
  change ∀ instr, instr ∈ state.retiring config → instr.completed = true at completed
  have split : state.rob = state.retiring config ++
      state.rob.drop (state.retiring config).length := by
    obtain ⟨rest, whole⟩ := isPrefix
    rw [← whole, List.drop_left]
  have stalled := stalls.stalled
  unfold pipeline at stalled ⊢
  rw [split] at stalled
  simp only [List.append_assoc] at stalled ⊢
  rw [marks_append] at stalled
  apply stalled.drop
  intro mark member
  obtain ⟨instr, among, same⟩ := List.mem_map.mp member
  rw [← same]
  change (instr.branchMispredicted && !instr.completed) = false
  rw [completed instr among, Bool.not_true, Bool.and_false]

theorem rob_stalls {state next : O3Cpu Module} (stalls : state.Stalls)
    (rob : marks next.rob = marks state.rob)
    (input : next.inputQueue = state.inputQueue)
    (resume : next.fetchResumeTime = state.fetchResumeTime)
    (dispatch : next.dispatchBuffer = state.dispatchBuffer)
    (dibHit : next.dibHitBuffer = state.dibHitBuffer)
    (decode : next.decodeBuffer = state.decodeBuffer)
    (ifetch : marks next.ifetchBuffer = marks state.ifetchBuffer) : next.Stalls := by
  apply stalls.same input resume
  unfold pipeline
  simp only [marks_append]
  rw [rob, dispatch, dibHit, decode, ifetch]

theorem executeInstruction_stalls (state next : O3Cpu Module) (stalls : state.Stalls)
    (ran : state.executeInstruction config = some next) : next.Stalls := by
  have rob := executeInstruction_map config OooModelInstr.mark (fun _ _ => rfl) state next ran
  obtain ⟨executing, _swept, same⟩ := Option.map_eq_some_iff.mp ran
  subst same
  exact rob_stalls stalls rob rfl rfl rfl rfl rfl rfl

theorem scheduleInstruction_stalls (beyond : RegisterAllocator → Nat → Bool)
    (state next : O3Cpu Module) (stalls : state.Stalls)
    (ran : state.scheduleInstruction config beyond = some next) : next.Stalls := by
  have rob := scheduleInstruction_map config OooModelInstr.mark (fun _ _ _ => rfl) beyond state
    next ran
  obtain ⟨search, _swept, same⟩ := Option.map_eq_some_iff.mp ran
  subst same
  exact rob_stalls stalls rob rfl rfl rfl rfl rfl rfl

theorem handleMemoryReturn_stalls (state next : O3Cpu Module) (stalls : state.Stalls)
    (ran : state.handleMemoryReturn config = some next) : next.Stalls := by
  obtain ⟨⟨rob, lq⟩, finished, same⟩ := Option.map_eq_some_iff.mp ran
  subst same
  exact rob_stalls stalls (marks_withoutOps (returnLoads_withoutOps config _ _ _ finished)) rfl rfl
    rfl rfl rfl (serviceReturned_map config OooModelInstr.mark (fun _ => rfl) _ _ _ _)

theorem operateLsq_stalls (state next : O3Cpu Module) (stalls : state.Stalls)
    (ran : state.operateLsq config = some next) : next.Stalls := by
  obtain ⟨⟨rob, lq⟩, finished, loaded⟩ := Option.bind_eq_some_iff.mp ran
  obtain ⟨⟨loads, bus⟩, _issued, same⟩ := Option.map_eq_some_iff.mp loaded
  subst same
  exact rob_stalls stalls (marks_withoutOps (finishStores_withoutOps _ _ _ finished)) rfl rfl rfl rfl
    rfl rfl

theorem dispatchFront_stalls (state next : O3Cpu Module) (instr : OooModelInstr)
    (rest : List OooModelInstr) (stalls : state.Stalls)
    (front : state.dispatchBuffer = instr :: rest)
    (ran : state.dispatchFront config instr rest = some next) :
    next.Stalls ∧ next.fetchResumeTime = state.fetchResumeTime := by
  obtain ⟨schedule, scheduled, same⟩ := Option.map_eq_some_iff.mp ran
  subst same
  have mark := congrArg OooModelInstr.mark (doMemoryScheduling_withoutOps _ schedule scheduled)
  change schedule.instr.mark = instr.mark at mark
  refine ⟨stalls.same rfl rfl (List.Perm.of_eq ?_), rfl⟩
  unfold pipeline
  dsimp only
  rw [front]
  simp only [List.append_assoc, List.cons_append, List.nil_append]
  unfold marks
  simp only [List.map_append, List.map_cons]
  rw [← mark]
  rfl

theorem dispatchLoop_stalls (bandwidth : Nat) (state next : O3Cpu Module) (stalls : state.Stalls)
    (ran : dispatchLoop config bandwidth state = some next) :
    next.Stalls ∧ next.fetchResumeTime = state.fetchResumeTime := by
  induction bandwidth generalizing state with
  | zero =>
      cases ran
      exact ⟨stalls, rfl⟩
  | succ bandwidth ih =>
      unfold dispatchLoop at ran
      split at ran
      · cases ran
        exact ⟨stalls, rfl⟩
      · rename_i instr rest front
        split at ran
        · obtain ⟨middle, first, remaining⟩ := Option.bind_eq_some_iff.mp ran
          obtain ⟨moved, kept⟩ :=
            dispatchFront_stalls config state middle instr rest stalls front first
          obtain ⟨last, same⟩ := ih middle moved remaining
          exact ⟨last, same.trans kept⟩
        · cases ran
          exact ⟨stalls, rfl⟩

theorem promoteToDecode_stalls (state next : O3Cpu Module) (stalls : state.Stalls)
    (ran : state.promoteToDecode config = some next) :
    next.Stalls ∧ next.fetchResumeTime = state.fetchResumeTime := by
  obtain ⟨window, rest, split, _room, same⟩ := promoteToDecode_window config state next ran
  subst same
  refine ⟨stalls.same rfl rfl ?_, rfl⟩
  have timed : ∀ (instrs : List OooModelInstr) (time : Nat),
      marks (instrs.map (fun instr => { instr with readyTime := time })) = marks instrs := by
    intro instrs time
    unfold marks
    rw [List.map_map]
    rfl
  have parts : (marks (window.filter (fun instr => instr.decoded)) ++
      marks (window.filter (fun instr => !instr.decoded))).Perm (marks window) := by
    rw [← marks_append]
    exact (List.filter_append_perm _ window).map _
  unfold pipeline
  dsimp only
  rw [split]
  simp only [marks_append, timed, List.append_assoc]
  apply List.Perm.append_left
  apply List.Perm.append_left
  apply List.Perm.append_left
  refine ((parts.symm.append_right (marks rest)).append_left _).trans ?_
  rw [List.append_assoc]
  exact List.perm_append_comm_assoc _ _ _

theorem fetchInstruction_stalls (state : O3Cpu Module) (stalls : state.Stalls) :
    (state.fetchInstruction config).Stalls :=
  rob_stalls stalls rfl rfl rfl rfl rfl rfl
    (fetchGroups_map config OooModelInstr.mark (fun _ => rfl) _ _ _)

theorem checkDib_stalls (state : O3Cpu Module) (stalls : state.Stalls) :
    (state.checkDib config hooks).Stalls :=
  rob_stalls stalls rfl rfl rfl rfl rfl rfl
    (checkDib_map config hooks OooModelInstr.mark state (fun _ => rfl) (fun _ => rfl))

/-! ### Stages that resolve a branch -/

theorem decodeEach_stalled (state : O3Cpu Module) (front back : List (Nat × Bool))
    (entries : List OooModelInstr) (fresh : AllFresh entries)
    (stalled : Stalled state.fetchResumeTime (front ++ (marks entries ++ back))) :
    Stalled (state.decodeEach config hooks entries).2.fetchResumeTime
      (front ++ (marks (state.decodeEach config hooks entries).1 ++ back)) := by
  induction entries generalizing state front with
  | nil => exact stalled
  | cons entry rest ih =>
      have uncompleted : entry.completed = false := (fresh entry List.mem_cons_self).1.2.2.1
      have after : Stalled (state.doDecode config hooks entry).2.fetchResumeTime
          (front ++ ((state.doDecode config hooks entry).1.mark :: (marks rest ++ back))) := by
        unfold doDecode
        dsimp only
        cases resolves : entry.resolvesAtDecode with
        | false =>
            unfold OooModelInstr.mark OooModelInstr.unresolved
            dsimp only
            rw [Bool.not_false, Bool.and_true]
            exact stalled
        | true =>
            have flagged : entry.branchMispredicted = true := by
              unfold OooModelInstr.resolvesAtDecode at resolves
              exact (Bool.and_eq_true _ _ ▸ resolves).1
            have unresolved : entry.mark = (entry.instrId, true) := by
              unfold OooModelInstr.mark OooModelInstr.unresolved
              rw [flagged, uncompleted]
              rfl
            unfold marks at stalled
            rw [List.map_cons, unresolved] at stalled
            unfold OooModelInstr.mark OooModelInstr.unresolved
            dsimp only
            rw [Bool.not_true, Bool.and_false, Bool.false_and]
            exact stalled.resolve _
      have later := ih (state.doDecode config hooks entry).2
        (front ++ [(state.doDecode config hooks entry).1.mark])
        (fresh.subset (List.subset_cons_self entry rest)) (by
          rw [List.append_assoc, List.singleton_append]
          exact after)
      rw [List.append_assoc, List.singleton_append] at later
      exact later

theorem decodeInstruction_stalls {history : History} (state : O3Cpu Module)
    (inOrder : InOrder config state.order history) (fresh : state.Undispatched)
    (stalls : state.Stalls) : (state.decodeInstruction config hooks).Stalls := by
  have chosen := state.selectDecodes_chosen config (InOrder.apart inOrder)
  have misses := fresh.decode
  rw [chosen.decodes] at misses
  obtain ⟨_ids, modules, resume, kept⟩ :=
    state.decodeEach_ids config hooks (state.selectDecodes config).decodes
  have timed : marks ((state.selectDecodes config).dibHits.map (state.doDibHit config)) =
      marks (state.selectDecodes config).dibHits := by
    unfold marks
    rw [List.map_map]
    rfl
  constructor
  · unfold decodeInstruction
    dsimp only
    rw [kept]
    exact stalls.input
  · have merged : (marks (mergeInOrder
        ((state.selectDecodes config).dibHits.map (state.doDibHit config))
        (state.decodeEach config hooks (state.selectDecodes config).decodes).1)).Perm
          (marks (state.selectDecodes config).dibHits ++
            marks (state.decodeEach config hooks (state.selectDecodes config).decodes).1) := by
      rw [← timed, ← marks_append, mergeInOrder_eq_merge]
      exact (List.merge_perm_append _).map _
    have stalled := stalls.stalled
    unfold pipeline at stalled
    rw [chosen.dibHits, chosen.decodes] at stalled
    simp only [marks_append, List.append_assoc] at stalled
    have ordered := decodeEach_stalled config hooks state
      (marks state.rob ++ marks state.dispatchBuffer ++ marks (state.selectDecodes config).dibHits)
      (marks (state.selectDecodes config).dibHitsLeft ++
        marks (state.selectDecodes config).decodesLeft ++ marks state.ifetchBuffer)
      (state.selectDecodes config).decodes (misses.subset (List.subset_append_left _ _)) (by
        apply stalled.perm
        simp only [List.append_assoc]
        apply List.Perm.append_left
        apply List.Perm.append_left
        apply List.Perm.append_left
        exact List.perm_append_comm_assoc _ _ _)
    apply ordered.perm
    unfold decodeInstruction pipeline
    dsimp only
    rw [kept]
    simp only [marks_append, List.append_assoc]
    apply List.Perm.append_left
    apply List.Perm.append_left
    rw [← List.append_assoc]
    exact merged.symm.append_right _

theorem completeInflightInstruction_stalls (state next : O3Cpu Module) (stalls : state.Stalls)
    (ran : state.completeInflightInstruction config = some next) : next.Stalls := by
  obtain ⟨⟨rob, completing⟩, swept, same⟩ := Option.map_eq_some_iff.mp ran
  subst same
  refine ⟨stalls.input, ?_⟩
  have stalled := stalls.stalled
  unfold pipeline at stalled ⊢
  simp only [List.append_assoc, marks_append] at stalled ⊢
  apply Queue.sweep_invariant _ (fun visited reached =>
    Stalled reached.fetchResumeTime (marks visited ++ _)) ?_ [] state.rob _ (rob, completing)
    stalled swept
  intro front instr rest reached visited later stalled step
  unfold completeVisit at step
  split at step
  · rename_i ready
    obtain ⟨alloc, _completes, same⟩ := Option.map_eq_some_iff.mp step
    cases same
    unfold marks at stalled ⊢
    simp only [List.map_append, List.map_cons, List.append_assoc, List.cons_append] at stalled ⊢
    have resolved := stalled.resolve (state.currentTime + config.branchMispredictPenalty)
    unfold OooModelInstr.unresolved at resolved
    rw [ready.2.2.1, Bool.not_false, Bool.and_true] at resolved
    unfold OooModelInstr.mark OooModelInstr.unresolved at resolved ⊢
    simp only [Bool.not_true, Bool.and_false] at resolved ⊢
    exact resolved
  · cases step
    exact stalled

/-! ### Reading instructions -/

/-- Fetching stops exactly when the instruction turns out to be mispredicted. -/
theorem doPredictBranch_resume (state : O3Cpu Module) (archInstr : OooModelInstr)
    (unknown : archInstr.branchMispredicted = false) :
    ∃ stop branchPrediction branchMispredicted modules,
      state.doPredictBranch hooks archInstr =
          (stop, { archInstr with branchPrediction, branchMispredicted },
            { state with
              modules
              fetchResumeTime := if branchMispredicted then none else state.fetchResumeTime }) ∧
        (branchMispredicted = true → stop = true) := by
  have quiet : ∀ stop branchPrediction modules,
      ∃ branchMispredicted : Bool,
        ((stop, { archInstr with branchPrediction }, { state with modules }) :
            Bool × OooModelInstr × O3Cpu Module) =
          (stop, { archInstr with branchPrediction, branchMispredicted },
            { state with
              modules
              fetchResumeTime := if branchMispredicted then none else state.fetchResumeTime }) ∧
        (branchMispredicted = true → stop = true) := by
    intro stop branchPrediction modules
    refine ⟨archInstr.branchMispredicted, ?_, ?_⟩
    · rw [unknown]
      rfl
    · rw [unknown]
      intro impossible
      cases impossible
  unfold doPredictBranch
  dsimp only
  generalize hooks.btbPrediction state.modules archInstr.ip archInstr.branch = btb
  generalize hooks.predictBranch btb.2 archInstr.ip btb.1.1 btb.1.2 archInstr.branch = direction
  generalize (if (direction.1 || btb.1.2) = true then btb.1.1 else 0) = target
  split
  · split
    · split
      · obtain ⟨mispredicted, same⟩ := quiet false (direction.1 || btb.1.2) _
        exact ⟨_, _, mispredicted, _, same⟩
      · exact ⟨_, _, true, _, rfl, fun _ => rfl⟩
    · obtain ⟨mispredicted, same⟩ := quiet archInstr.branchTaken (direction.1 || btb.1.2) _
      exact ⟨_, _, mispredicted, _, same⟩
  · obtain ⟨mispredicted, same⟩ := quiet false (direction.1 || btb.1.2) _
    exact ⟨_, _, mispredicted, _, same⟩

theorem doInitInstruction_resume (state : O3Cpu Module) (archInstr : OooModelInstr)
    (unknown : archInstr.branchMispredicted = false) :
    ∃ stop sourceRegisters destinationRegisters branchPrediction branchMispredicted modules,
      state.doInitInstruction hooks archInstr =
          (stop,
            { archInstr with
              sourceRegisters, destinationRegisters, branchPrediction, branchMispredicted },
            { state with
              modules
              fetchResumeTime := if branchMispredicted then none else state.fetchResumeTime }) ∧
        (branchMispredicted = true → stop = true) := by
  have kept : ∃ sourceRegisters destinationRegisters,
      (if state.warmup then
        { archInstr with sourceRegisters := [], destinationRegisters := [] } else archInstr) =
          { archInstr with sourceRegisters, destinationRegisters } := by
    split
    · exact ⟨[], [], rfl⟩
    · exact ⟨_, _, rfl⟩
  obtain ⟨sources, destinations, same⟩ := kept
  unfold doInitInstruction
  dsimp only
  rw [same]
  obtain ⟨folded, _fewer, folds⟩ := OooModelInstr.doStackPointerFolding_shape
    { archInstr with sourceRegisters := sources, destinationRegisters := destinations }
  rw [folds]
  obtain ⟨stop, prediction, mispredicted, modules, predicted, stops⟩ :=
    doPredictBranch_resume hooks state
      { archInstr with sourceRegisters := sources, destinationRegisters := folded } unknown
  exact ⟨stop, sources, folded, prediction, mispredicted, modules, predicted, stops⟩

theorem InOrder.older {config : Config} {state : O3Cpu Module} {history : History}
    (inOrder : InOrder config state.order history) :
    ∀ mark ∈ marks state.pipeline, ∀ later ∈ state.inputQueue, mark.1 < later.instrId := by
  intro mark member later waiting
  obtain ⟨instr, among, same⟩ := List.mem_map.mp member
  rw [← same]
  have all := inOrder.pipeline_increasing
  unfold Order.pipeline at all
  have seen : ∀ {instr : OooModelInstr} {instrs : List OooModelInstr}, instr ∈ instrs →
      instr.instrId ∈ ids instrs := fun present => List.mem_map.mpr ⟨_, present, rfl⟩
  apply (List.pairwise_append.mp all).2.2 instr.instrId ?_ later.instrId (seen waiting)
  unfold pipeline at among
  simp only [List.mem_append, InOrder.fetched_mem] at among ⊢
  rcases among with (((rob | dispatch) | dibHit) | decode) | ifetch
  · exact Or.inl (Or.inl (Or.inl (seen rob)))
  · exact Or.inl (Or.inl (Or.inr (seen dispatch)))
  · exact Or.inl (Or.inr (Or.inl (seen dibHit)))
  · exact Or.inl (Or.inr (Or.inr (seen decode)))
  · exact Or.inr (seen ifetch)

theorem readInstructions_stalls (bandwidth : Nat) (state : O3Cpu Module)
    (fresh : AllFresh state.inputQueue)
    (older : ∀ mark ∈ marks state.pipeline, ∀ later ∈ state.inputQueue, mark.1 < later.instrId)
    (sorted : (ids state.inputQueue).Pairwise (fun earlier later => earlier < later))
    (stalls : state.Stalls) : (readInstructions hooks bandwidth state).Stalls := by
  induction bandwidth generalizing state with
  | zero => exact stalls
  | succ bandwidth ih =>
      unfold readInstructions
      split
      · exact stalls
      · rename_i front others waiting
        have unknown := stalls.input
        rw [waiting] at unknown fresh older sorted
        have uncompleted : front.completed = false := (fresh front List.mem_cons_self).1.2.2.1
        split
        · rename_i allowed
          obtain ⟨resume, isResume, _due⟩ := (Option.any_eq_true _ _).mp allowed
          obtain ⟨stop, sources, destinations, prediction, mispredicted, modules, initiated, _stops⟩ :=
            state.doInitInstruction_resume hooks front (unknown front List.mem_cons_self)
          dsimp only
          rw [initiated]
          dsimp only
          generalize isNext : ({ state with
            modules
            fetchResumeTime := if mispredicted then none else state.fetchResumeTime
            inputQueue := others
            ifetchBuffer := state.ifetchBuffer ++
              [{ front with
                  sourceRegisters := sources
                  destinationRegisters := destinations
                  branchPrediction := prediction
                  branchMispredicted := mispredicted
                  readyTime := state.currentTime }] } : O3Cpu Module) = next
          have input : next.inputQueue = others := by rw [← isNext]
          have grown : marks next.pipeline =
              marks state.pipeline ++ [(front.instrId, mispredicted)] := by
            have last : (front.instrId, mispredicted && !front.completed) =
                (front.instrId, mispredicted) := by
              rw [uncompleted, Bool.not_false, Bool.and_true]
            rw [← isNext, ← last]
            unfold pipeline
            dsimp only
            rw [← List.append_assoc, marks_append]
            rfl
          have moved : next.Stalls := by
            constructor
            · rw [input]
              exact fun instr member => unknown instr (List.mem_cons_of_mem front member)
            · have fetching := stalls.stalled
              rw [isResume] at fetching
              rw [grown, ← isNext]
              dsimp only
              rw [isResume]
              exact fetching.enter (fun mark member => older mark member front List.mem_cons_self)
          split
          · exact moved
          · apply ih next
            · rw [input]
              exact fresh.subset (List.subset_cons_self front others)
            · rw [grown, input]
              intro mark member later among
              rcases List.mem_append.mp member with earlier | isFront
              · exact older mark earlier later (List.mem_cons_of_mem front among)
              · rw [List.mem_singleton.mp isFront]
                exact (List.pairwise_cons.mp sorted).1 later.instrId
                  (List.mem_map.mpr ⟨later, among, rfl⟩)
            · rw [input]
              exact (List.pairwise_cons.mp sorted).2
            · exact moved
        · exact stalls

/-! ### How a stall ends -/

theorem decodeEach_resume (state : O3Cpu Module) (entries : List OooModelInstr) :
    (state.decodeEach config hooks entries).2.fetchResumeTime =
      if entries.any (fun entry => entry.resolvesAtDecode) then
        some (state.currentTime + config.branchMispredictPenalty)
      else state.fetchResumeTime := by
  induction entries generalizing state with
  | nil => rfl
  | cons entry rest ih =>
      have later := ih (state.doDecode config hooks entry).2
      change (state.decodeEach config hooks (entry :: rest)).2.fetchResumeTime =
        (if rest.any (fun other => other.resolvesAtDecode) then
            some (state.currentTime + config.branchMispredictPenalty)
          else if entry.resolvesAtDecode then
            some (state.currentTime + config.branchMispredictPenalty)
          else state.fetchResumeTime) at later
      rw [later, List.any_cons]
      cases entry.resolvesAtDecode with
      | false => rfl
      | true =>
          rw [Bool.true_or]
          exact ite_self _

/-- The loop over the reorder buffer resumes fetching only when it completes a
misprediction. -/
theorem completeEach_resume (time resume : Nat) (completing : Completing)
    (rob : List OooModelInstr) (result : List OooModelInstr × Completing)
    (ran : Queue.sweep (completeVisit time resume) completing rob = some result) :
    (result.2.fetchResumeTime = completing.fetchResumeTime ∧ marks result.1 = marks rob) ∨
      (result.2.fetchResumeTime = some resume ∧ ∃ instr ∈ rob, instr.unresolved = true ∧
        ∃ done ∈ result.1, done.instrId = instr.instrId ∧ done.completed = true) := by
  induction rob generalizing completing result with
  | nil =>
      cases ran
      exact Or.inl ⟨rfl, rfl⟩
  | cons instr rest ih =>
      obtain ⟨⟨visited, next⟩, visits, others⟩ := Option.bind_eq_some_iff.mp ran
      obtain ⟨⟨after, last⟩, remaining, same⟩ := Option.map_eq_some_iff.mp others
      subst same
      have first : (next.fetchResumeTime = completing.fetchResumeTime ∧ visited.mark = instr.mark) ∨
          (next.fetchResumeTime = some resume ∧ instr.unresolved = true ∧
            visited.instrId = instr.instrId ∧ visited.completed = true) := by
        unfold completeVisit at visits
        split at visits
        · rename_i ready
          obtain ⟨alloc, _completes, same⟩ := Option.map_eq_some_iff.mp visits
          cases same
          dsimp only
          cases flagged : instr.branchMispredicted with
          | true =>
              refine Or.inr ⟨rfl, ?_, rfl, rfl⟩
              unfold OooModelInstr.unresolved
              rw [flagged, ready.2.2.1]
              rfl
          | false =>
              refine Or.inl ⟨rfl, ?_⟩
              unfold OooModelInstr.mark OooModelInstr.unresolved
              dsimp only
              rw [flagged]
              rfl
        · cases visits
          exact Or.inl ⟨rfl, rfl⟩
      rcases ih next (after, last) remaining with ⟨kept, looks⟩ | ⟨resumed, other, member, found⟩
      · rcases first with ⟨before, mark⟩ | ⟨before, unresolved, id, completed⟩
        · refine Or.inl ⟨kept.trans before, ?_⟩
          unfold marks at looks ⊢
          rw [List.map_cons, List.map_cons, mark, looks]
        · exact Or.inr ⟨kept.trans before, instr, List.mem_cons_self, unresolved, visited,
            List.mem_cons_self, id, completed⟩
      · obtain ⟨unresolved, done, among, id, completed⟩ := found
        exact Or.inr ⟨resumed, other, List.mem_cons_of_mem instr member, unresolved, done,
          List.mem_cons_of_mem visited among, id, completed⟩

/-- Fetching resumes in the step that resolves the branch it waits for, and in
no other. -/
def ResumesWith (state next : O3Cpu Module) (label : Step) (branch : OooModelInstr) : Prop :=
  (next.fetchResumeTime = none ↔ ¬Resolves config state next label branch) ∧
    (Resolves config state next label branch →
      next.fetchResumeTime = some (state.currentTime + config.branchMispredictPenalty))

theorem ResumesWith.quiet {state next : O3Cpu Module} {label : Step} (branch : OooModelInstr)
    (kept : next.fetchResumeTime = none) (notDecode : label ≠ .stage .decodeInstruction)
    (notComplete : label ≠ .stage .completeInflightInstruction) :
    ResumesWith config state next label branch := by
  have unresolved : ¬Resolves config state next label branch := by
    rintro (⟨isDecode, _⟩ | ⟨isComplete, _⟩)
    · exact notDecode isDecode
    · exact notComplete isComplete
  exact ⟨iff_of_true kept unresolved, fun resolves => absurd resolves unresolved⟩

theorem decodeInstruction_resumes {history : History} (state : O3Cpu Module)
    (branch : OooModelInstr) (inOrder : InOrder config state.order history)
    (fresh : state.Undispatched) (stopped : state.fetchResumeTime = none)
    (awaits : state.Awaits branch) :
    ResumesWith config state (state.decodeInstruction config hooks) (.stage .decodeInstruction)
      branch := by
  have chosen := state.selectDecodes_chosen config (InOrder.apart inOrder)
  have resumed : (state.decodeInstruction config hooks).fetchResumeTime = _ :=
    decodeEach_resume config hooks state (state.selectDecodes config).decodes
  have isBranch : ∀ entry ∈ (state.selectDecodes config).decodes,
      entry.resolvesAtDecode = true → entry = branch := by
    intro entry member resolves
    have inDecode : entry ∈ state.decodeBuffer := by
      rw [chosen.decodes]
      exact List.mem_append_left _ member
    apply awaits.unique
    · unfold pipeline
      exact List.mem_append_left _ (List.mem_append_right _ inDecode)
    · have uncompleted : entry.completed = false := (fresh.decode entry inDecode).1.2.2.1
      have flagged := resolves
      unfold OooModelInstr.resolvesAtDecode at flagged
      rw [Bool.and_eq_true] at flagged
      unfold OooModelInstr.unresolved
      rw [flagged.1, uncompleted]
      rfl
  have resolved : Resolves config state (state.decodeInstruction config hooks)
      (.stage .decodeInstruction) branch ↔
        (state.selectDecodes config).decodes.any (fun entry => entry.resolvesAtDecode) = true := by
    constructor
    · rintro (⟨_isDecode, member, resolves⟩ | ⟨impossible, _⟩)
      · exact List.any_eq_true.mpr ⟨branch, member, resolves⟩
      · cases impossible
    · intro resolving
      obtain ⟨entry, member, resolves⟩ := List.any_eq_true.mp resolving
      have same := isBranch entry member resolves
      rw [same] at member resolves
      exact Or.inl ⟨rfl, member, resolves⟩
  unfold ResumesWith
  rw [resolved, resumed, stopped]
  cases (state.selectDecodes config).decodes.any (fun entry => entry.resolvesAtDecode) with
  | true => simp
  | false => simp

theorem completeInflightInstruction_resumes (state next : O3Cpu Module) (branch : OooModelInstr)
    (stopped : state.fetchResumeTime = none) (awaits : state.Awaits branch)
    (ran : state.completeInflightInstruction config = some next) :
    ResumesWith config state next (.stage .completeInflightInstruction) branch := by
  obtain ⟨result, swept, same⟩ := Option.map_eq_some_iff.mp ran
  have inRob : ∀ {instr : OooModelInstr}, instr ∈ state.rob → instr ∈ state.pipeline := by
    intro instr member
    unfold pipeline
    simp only [List.mem_append]
    exact Or.inl (Or.inl (Or.inl (Or.inl member)))
  rcases completeEach_resume _ _ _ _ _ swept with ⟨kept, looks⟩ | ⟨resumed, instr, member, found⟩
  · have unresolved : ¬Resolves config state next (.stage .completeInflightInstruction) branch := by
      rintro (⟨impossible, _⟩ | ⟨_isComplete, done, among, id, completed⟩)
      · cases impossible
      · rw [← same] at among
        have seen : done.mark ∈ marks state.rob := by
          rw [← looks]
          exact mark_mem among
        obtain ⟨instr, member, isDone⟩ := List.mem_map.mp seen
        have sameId : instr.instrId = done.instrId := congrArg Prod.fst isDone
        have settled : instr.unresolved = false := by
          have looks : instr.unresolved = done.unresolved := congrArg Prod.snd isDone
          rw [looks]
          unfold OooModelInstr.unresolved
          rw [completed, Bool.not_true, Bool.and_false]
        rcases awaits.2 instr (inRob member) with isBranch | older
        · rw [isBranch, awaits.member.2] at settled
          cases settled
        · omega
    refine ⟨iff_of_true ?_ unresolved, fun resolves => absurd resolves unresolved⟩
    rw [← same]
    exact kept.trans stopped
  · obtain ⟨unresolved, done, among, id, completed⟩ := found
    have isBranch := awaits.unique (inRob member) unresolved
    have resolves : Resolves config state next (.stage .completeInflightInstruction) branch := by
      refine Or.inr ⟨rfl, done, ?_, id.trans (congrArg OooModelInstr.instrId isBranch), completed⟩
      rw [← same]
      exact among
    have later : next.fetchResumeTime =
        some (state.currentTime + config.branchMispredictPenalty) := by
      rw [← same]
      exact resumed
    refine ⟨iff_of_false ?_ (fun unresolved => unresolved resolves), fun _ => later⟩
    rw [later]
    intro impossible
    cases impossible

/-! ### Runs -/

theorem runStage_stalls {history : History} (state next : O3Cpu Module) (stage : Stage)
    (inOrder : InOrder config state.order history) (fresh : state.Undispatched)
    (stalls : state.Stalls) (ran : state.runStage config hooks stage = some next) :
    next.Stalls := by
  cases stage with
  | retireRob => exact retireRob_stalls config state next stalls ran
  | completeInflightInstruction =>
      exact completeInflightInstruction_stalls config state next stalls ran
  | executeInstruction => exact executeInstruction_stalls config state next stalls ran
  | scheduleInstruction beyond =>
      exact scheduleInstruction_stalls config beyond state next stalls ran
  | handleMemoryReturn => exact handleMemoryReturn_stalls config state next stalls ran
  | operateLsq => exact operateLsq_stalls config state next stalls ran
  | dispatchInstruction => exact (dispatchLoop_stalls config _ state next stalls ran).1
  | decodeInstruction =>
      cases ran
      exact decodeInstruction_stalls config hooks state inOrder fresh stalls
  | promoteToDecode => exact (promoteToDecode_stalls config state next stalls ran).1
  | fetchInstruction =>
      cases ran
      exact fetchInstruction_stalls config state stalls
  | checkDib =>
      cases ran
      exact checkDib_stalls config hooks state stalls
  | initializeInstruction =>
      cases ran
      exact readInstructions_stalls hooks _ state fresh.input (InOrder.older inOrder)
        inOrder.sorted.input stalls

theorem occur_stalls (state next : O3Cpu Module) (event : Event) (stalls : state.Stalls)
    (ran : state.occur config event = some next) :
    next.Stalls ∧ next.fetchResumeTime = state.fetchResumeTime := by
  obtain ⟨_, _, added, _, _, same, traced⟩ := occur_shape config state next event ran
  rw [same]
  refine ⟨⟨?_, stalls.stalled⟩, rfl⟩
  intro instr member
  rcases List.mem_append.mp member with waiting | isNew
  · exact stalls.input instr waiting
  · obtain ⟨instrId, record, isTraced⟩ := traced instr isNew
    rw [isTraced]
    rfl

theorem readInstructions_stopped (bandwidth : Nat) (state : O3Cpu Module)
    (stopped : state.fetchResumeTime = none) : readInstructions hooks bandwidth state = state := by
  cases bandwidth with
  | zero => rfl
  | succ bandwidth =>
      unfold readInstructions
      split
      · rfl
      · rw [stopped]
        rfl

theorem runStage_resumes {history : History} (state next : O3Cpu Module) (stage : Stage)
    (branch : OooModelInstr) (inOrder : InOrder config state.order history)
    (fresh : state.Undispatched) (stalls : state.Stalls) (stopped : state.fetchResumeTime = none)
    (awaits : state.Awaits branch) (ran : state.runStage config hooks stage = some next) :
    ResumesWith config state next (.stage stage) branch := by
  have quiet : next.fetchResumeTime = state.fetchResumeTime →
      Step.stage stage ≠ .stage .decodeInstruction →
        Step.stage stage ≠ .stage .completeInflightInstruction →
          ResumesWith config state next (.stage stage) branch :=
    fun kept => ResumesWith.quiet config branch (kept.trans stopped)
  cases stage with
  | retireRob =>
      obtain ⟨alloc, _retired, same⟩ := Option.map_eq_some_iff.mp ran
      exact quiet (by rw [← same]) (by simp) (by simp)
  | completeInflightInstruction =>
      exact completeInflightInstruction_resumes config state next branch stopped awaits ran
  | executeInstruction =>
      obtain ⟨executing, _swept, same⟩ := Option.map_eq_some_iff.mp ran
      exact quiet (by rw [← same]) (by simp) (by simp)
  | scheduleInstruction beyond =>
      obtain ⟨search, _swept, same⟩ := Option.map_eq_some_iff.mp ran
      exact quiet (by rw [← same]) (by simp) (by simp)
  | handleMemoryReturn =>
      obtain ⟨memory, _finished, same⟩ := Option.map_eq_some_iff.mp ran
      exact quiet (by rw [← same]) (by simp) (by simp)
  | operateLsq =>
      obtain ⟨memory, _finished, loaded⟩ := Option.bind_eq_some_iff.mp ran
      obtain ⟨loads, _issued, same⟩ := Option.map_eq_some_iff.mp loaded
      exact quiet (by rw [← same]) (by simp) (by simp)
  | dispatchInstruction =>
      exact quiet (dispatchLoop_stalls config _ state next stalls ran).2 (by simp) (by simp)
  | decodeInstruction =>
      cases ran
      exact decodeInstruction_resumes config hooks state branch inOrder fresh stopped awaits
  | promoteToDecode =>
      exact quiet (promoteToDecode_stalls config state next stalls ran).2 (by simp) (by simp)
  | fetchInstruction =>
      cases ran
      exact quiet rfl (by simp) (by simp)
  | checkDib =>
      cases ran
      exact quiet rfl (by simp) (by simp)
  | initializeInstruction =>
      cases ran
      refine quiet ?_ (by simp) (by simp)
      unfold initializeInstruction
      rw [readInstructions_stopped hooks _ state stopped]

theorem histories_stalls (l1iBus l1dBus : Channel) (modules : Module) (labels : List Step)
    (reached : O3Cpu Module × History)
    (ran : (histories config hooks).run (O3Cpu.init config l1iBus l1dBus modules, {}) labels =
      some reached) : Kept config reached ∧ reached.1.Stalls := by
  apply (histories config hooks).run_invariant
    (fun noted => Kept config noted ∧ noted.1.Stalls) ?_ labels _ reached
    ⟨init_kept config l1iBus l1dBus modules, ?_, ?_⟩ ran
  · rintro noted label next ⟨kept, stalls⟩ stepped
    refine ⟨kept.step config hooks noted next label stepped, ?_⟩
    obtain ⟨continues, recorded⟩ := (Machine.restrict_step_iff _ _ _ _ _).mp stepped
    obtain ⟨moved, history⟩ := (Machine.record_step_iff _ _ _ _ _).mp recorded
    cases label with
    | stage stage =>
        exact runStage_stalls config hooks noted.1 next.1 stage kept.inOrder kept.undispatched
          stalls moved
    | event event => exact (occur_stalls config noted.1 next.1 event stalls moved).1
  · intro instr member
    cases member
  · intro mark member
    cases member

/-- In every run, fetching is stopped exactly while one misprediction is
unresolved, by the youngest instruction of the pipeline, and resumes in the
step that decodes or completes that instruction. -/
theorem histories_fetchResumes (l1iBus l1dBus : Channel) (modules : Module) (labels : List Step)
    (reached : O3Cpu Module × History)
    (ran : (histories config hooks).run (O3Cpu.init config l1iBus l1dBus modules, {}) labels =
      some reached) :
    (reached.1.fetchResumeTime = none ↔ ∃ branch, reached.1.Awaits branch) ∧
      (∀ branch ∈ reached.1.pipeline, branch.unresolved = true →
        ∀ other ∈ reached.1.pipeline, other = branch ∨ other.instrId < branch.instrId) ∧
      ∀ branch, reached.1.Awaits branch → ∀ label next,
        (histories config hooks).step reached label = some next →
          ResumesWith config reached.1 next.1 label branch := by
  obtain ⟨kept, stalls⟩ := histories_stalls config hooks l1iBus l1dBus modules labels reached ran
  have awaits := awaits_iff stalls.stalled
  refine ⟨awaits, ?_, ?_⟩
  · intro branch member unresolved other among
    have stopped : reached.1.fetchResumeTime = none := by
      cases resume : reached.1.fetchResumeTime with
      | none => rfl
      | some time =>
          have stalled := stalls.stalled
          rw [resume] at stalled
          have resolved : branch.unresolved = false := stalled branch.mark (mark_mem member)
          rw [resolved] at unresolved
          cases unresolved
    obtain ⟨youngest, only⟩ := awaits.mp stopped
    rw [only.unique member unresolved]
    exact only.2 other among
  · intro branch only label next stepped
    obtain ⟨continues, recorded⟩ := (Machine.restrict_step_iff _ _ _ _ _).mp stepped
    obtain ⟨moved, _history⟩ := (Machine.record_step_iff _ _ _ _ _).mp recorded
    have stopped := awaits.mpr ⟨branch, only⟩
    cases label with
    | stage stage =>
        exact runStage_resumes config hooks reached.1 next.1 stage branch kept.inOrder
          kept.undispatched stalls stopped only moved
    | event event =>
        exact ResumesWith.quiet config branch
          ((occur_stalls config reached.1 next.1 event stalls moved).2.trans stopped) (by simp)
          (by simp)

end O3Cpu

/-- A taken branch that the quiet modules predict not taken. -/
def smallBranch : TraceInstr where
  isBranch := true
  branchTaken := true
  branch := .branchDirectJump
  branchTarget := 0x2000

def branchAndLoad : List Step :=
  [.event (.beginPhase false), .event (.read 3 smallBranch), .event (.read 7 smallLoad)]

private theorem branchAndLoad_stops :
    ((histories smallCore quietModules).run (smallInit, {})
      (branchAndLoad ++ smallCycles 3)).any (fun reached =>
        decide (reached.1.fetchResumeTime = none)) = true := by
  decide +kernel

theorem histories_fetchResumes_branchAndLoad :
    ∃ reached, (histories smallCore quietModules).run (smallInit, {})
        (branchAndLoad ++ smallCycles 3) = some reached ∧ reached.1.fetchResumeTime = none ∧
      (reached.1.fetchResumeTime = none ↔ ∃ branch, reached.1.Awaits branch) ∧
      (∀ branch ∈ reached.1.pipeline, branch.unresolved = true →
        ∀ other ∈ reached.1.pipeline, other = branch ∨ other.instrId < branch.instrId) ∧
      ∀ branch, reached.1.Awaits branch → ∀ label next,
        (histories smallCore quietModules).step reached label = some next →
          O3Cpu.ResumesWith smallCore reached.1 next.1 label branch := by
  obtain ⟨reached, ran, stopped⟩ := (Option.any_eq_true _ _).mp branchAndLoad_stops
  exact ⟨reached, ran, of_decide_eq_true stopped, O3Cpu.histories_fetchResumes smallCore
    quietModules smallBus smallBus () _ reached ran⟩

end ChampSim.Core
