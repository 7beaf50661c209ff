/-
The operands of the instructions that execute.

A source of a renamed instruction is the version that the youngest older writer
left: it is a destination of that writer, or it is committed when the writer has
retired. It becomes valid when the writer completes.
-/

import ChampSim.Core.RegisterRuns

set_option autoImplicit false

namespace ChampSim.Core

open Transition Cache

/-- The youngest of the instructions older than another one that writes a register. -/
def youngestWriter (dispatched : List Registers) (instrId reg : Nat) : Option Nat :=
  lastWriter (dispatched.filter (fun registers => decide (registers.instrId < instrId))) reg

/-! ### The youngest writer and the youngest version -/

theorem lastWriter_mem (dispatched : List Registers) (reg writer : Nat)
    (found : lastWriter dispatched reg = some writer) :
    writer ∈ dispatched.map (fun registers => registers.instrId) := by
  obtain ⟨registers, last, same⟩ := Option.map_eq_some_iff.mp found
  have member := List.filter_subset_self _ (List.mem_of_getLast? last)
  exact List.mem_map.mpr ⟨registers, member, same⟩

/-- The youngest version before an entry was left by the youngest writer before it. -/
theorem lastWriter_latest (gone : List Registers) (backendRat : Nat → Option Nat) (reg : Nat)
    (front : List RobEntry) (renamed : ∀ entry ∈ front, entry.view.scheduled = true) :
    (∃ entry ∈ front, ∃ phys, (reg, phys) ∈ entry.destinations ∧
      lastWriter (gone ++ front.map RobEntry.dispatched) reg = some entry.dispatched.instrId ∧
        Versions.latest backendRat (pendingVersions front) reg = some phys) ∨
    (lastWriter (gone ++ front.map RobEntry.dispatched) reg = lastWriter gone reg ∧
      Versions.latest backendRat (pendingVersions front) reg = backendRat reg) := by
  induction front using List.reverseRecOn with
  | nil =>
      refine Or.inr ⟨?_, ?_⟩
      · rw [List.map_nil, List.append_nil]
      · change ((backendRat reg).toList ++ []).getLast? = _
        cases backendRat reg with
        | none => rfl
        | some phys => rfl
  | append_singleton front newest ih =>
      have before := ih (fun entry member => renamed entry (List.mem_append_left _ member))
      have mine := renamed newest (List.mem_append_right _ List.mem_cons_self)
      rw [List.map_append, List.map_singleton, ← List.append_assoc, lastWriter_append,
        pendingVersions_append, Versions.latest_append_all]
      have own : pendingVersions [newest] = newest.destinations := List.flatMap_singleton _ _
      rw [own]
      cases last : (Versions.ofKey newest.destinations reg).getLast? with
      | some phys =>
          have member := (Versions.ofKey_mem _ _ _).mp (List.mem_of_getLast? last)
          have writes : newest.dispatched.destinationRegisters.contains reg = true := by
            cases newest with
            | waiting registers => cases mine
            | renamed instrId completed sources destinations =>
                exact List.contains_iff_mem.mpr (List.mem_map.mpr ⟨(reg, phys), member, rfl⟩)
          rw [if_pos writes]
          exact Or.inl ⟨newest, List.mem_append_right _ List.mem_cons_self, phys, member, rfl, rfl⟩
      | none =>
          have silent : ¬ newest.dispatched.destinationRegisters.contains reg = true := by
            intro writes
            cases newest with
            | waiting registers => cases mine
            | renamed instrId completed sources destinations =>
                obtain ⟨destination, member, isReg⟩ :=
                  List.mem_map.mp (List.contains_iff_mem.mp writes)
                have nothing : Versions.ofKey destinations reg = [] :=
                  List.getLast?_eq_none_iff.mp last
                have listed : destination.2 ∈ Versions.ofKey destinations reg :=
                  (Versions.ofKey_mem _ _ _).mpr (by rw [← isReg]; exact member)
                rw [nothing] at listed
                cases listed
          rw [if_neg silent]
          rcases before with ⟨entry, member, phys, listed, writer, latest⟩ | ⟨writer, latest⟩
          · exact Or.inl ⟨entry, List.mem_append_left _ member, phys, listed, writer, latest⟩
          · exact Or.inr ⟨writer, latest⟩

/-! ### The entries that are older than an instruction -/

theorem Tracked.ids_eq {size : Nat} {gone : List Registers} {rob : List OooModelInstr}
    {alloc : RegisterAllocator} {entries : List RobEntry}
    (tracked : Tracked size gone rob alloc entries) :
    entries.map (fun entry => entry.dispatched.instrId) = ids rob := by
  have shown := congrArg (List.map (fun view : RobView => view.registers.instrId)) tracked.shown
  rw [List.map_map, List.map_map] at shown
  have seen : entries.map ((fun view : RobView => view.registers.instrId) ∘ RobEntry.view) =
      entries.map (fun entry => entry.dispatched.instrId) := by
    apply List.map_congr_left
    intro entry _member
    cases entry with
    | waiting registers => rfl
    | renamed instrId completed sources destinations => rfl
  rw [← seen]
  exact shown

theorem dispatched_older (before after : List Registers) (registers : Registers)
    (increasing : ((before ++ registers :: after).map (fun other => other.instrId)).Pairwise
      (fun earlier later => earlier < later)) :
    (before ++ registers :: after).filter
      (fun other => decide (other.instrId < registers.instrId)) = before := by
  rw [List.map_append, List.map_cons, List.pairwise_append, List.pairwise_cons] at increasing
  have older : ∀ other ∈ before, decide (other.instrId < registers.instrId) = true := by
    intro other member
    exact decide_eq_true (increasing.2.2 _ (List.mem_map.mpr ⟨other, member, rfl⟩) _
      List.mem_cons_self)
  have younger : ∀ other ∈ registers :: after,
      ¬ decide (other.instrId < registers.instrId) = true := by
    intro other member less
    have lower := of_decide_eq_true less
    rcases List.mem_cons.mp member with isMine | later
    · rw [isMine] at lower
      omega
    · have above := increasing.2.1.1 _ (List.mem_map.mpr ⟨other, later, rfl⟩)
      omega
  rw [List.filter_append, List.filter_eq_self.mpr older, List.filter_eq_nil_iff.mpr younger,
    List.append_nil]

/-- A destination of an entry names its register and its writer, and is valid
only when the writer has completed. -/
theorem Tracked.written {size : Nat} {gone : List Registers} {rob : List OooModelInstr}
    {alloc : RegisterAllocator} {entries : List RobEntry}
    (tracked : Tracked size gone rob alloc entries) {entry : RobEntry} (among : entry ∈ entries)
    {reg phys : Nat} (listed : (reg, phys) ∈ entry.destinations) :
    ∃ file, alloc.physicalRegisterFile[phys]? = some file ∧ file.archRegIndex = reg ∧
      file.producingInstructionId = entry.dispatched.instrId ∧
        (file.valid = true →
          ∃ instr ∈ rob, instr.instrId = entry.dispatched.instrId ∧ instr.completed = true) := by
  cases entry with
  | waiting registers => cases listed
  | renamed instrId completed sources destinations =>
      have inWrites : { producer := instrId, reg, phys, completed } ∈ pendingWrites entries :=
        List.mem_flatMap.mpr ⟨_, among, List.mem_map.mpr ⟨_, listed, rfl⟩⟩
      obtain ⟨_known, file, present, arch, produced, complete⟩ :=
        tracked.state.renamed.pending _ inWrites
      refine ⟨file, present, arch, produced, ?_⟩
      intro valid
      have listedView : RobEntry.view (.renamed instrId completed sources destinations) ∈
          rob.map OooModelInstr.view := by
        rw [← tracked.shown]
        exact List.mem_map_of_mem among
      obtain ⟨instr, inRob, isView⟩ := List.mem_map.mp listedView
      have sameId := congrArg (fun view : RobView => view.registers.instrId) isView
      have sameDone := congrArg RobView.completed isView
      exact ⟨instr, inRob, sameId, sameDone.trans (complete valid)⟩

theorem front_renamed {limit : Nat} {front back : List OooModelInstr} {instr : OooModelInstr}
    {entries : List RobEntry} (ordered : ScheduleOrder limit (front ++ instr :: back))
    (scheduled : instr.scheduled = true)
    (shown : entries.map RobEntry.view = front.map OooModelInstr.view) :
    ∀ entry ∈ entries, entry.view.scheduled = true := by
  intro entry among
  have listed : entry.view ∈ front.map OooModelInstr.view := by
    rw [← shown]
    exact List.mem_map_of_mem among
  obtain ⟨before, inRob, isView⟩ := List.mem_map.mp listed
  rw [← isView]
  exact ordered.front_scheduled scheduled before inRob

/-! ### The sources of a renamed instruction -/

namespace O3Cpu

variable {Module : Type} (config : Config) (hooks : CoreModules Module)

/-- What is known of a physical register that is read in place of `reg`. -/
structure Operand (noted : (O3Cpu Module × History) × List Registers) (instrId reg phys : Nat) :
    Prop where
  taken : phys ∉ noted.1.1.regAllocator.freeRegisters
  written : ∃ entry, noted.1.1.regAllocator.physicalRegisterFile[phys]? = some entry ∧
    entry.archRegIndex = reg ∧
      entry.producingInstructionId = (youngestWriter noted.2 instrId reg).getD 0
  ready : noted.1.1.regAllocator.isValid phys = some true →
    ∀ writer, youngestWriter noted.2 instrId reg = some writer →
      writer ∈ noted.1.2.retired ∨
        ∃ older ∈ noted.1.1.rob, older.instrId = writer ∧ older.completed = true

/-- What was dispatched and is older than an entry of the reorder buffer. -/
theorem dispatched_before (noted : (O3Cpu Module × History) × List Registers)
    (gone : List Registers) {front back : List RobEntry} {entry : RobEntry}
    (kept : Kept config noted.1)
    (dispatched : Dispatches config noted gone (front ++ entry :: back)) :
    noted.2.filter (fun registers => decide (registers.instrId < entry.dispatched.instrId)) =
      gone ++ front.map RobEntry.dispatched := by
  have stream := dispatched.stream
  rw [List.map_append, List.map_cons, ← List.append_assoc] at stream
  rw [stream]
  apply dispatched_older
  rw [← stream, dispatched.stream, List.map_append, List.map_map, dispatched.retired]
  have ids : (front ++ entry :: back).map ((fun registers : Registers => registers.instrId) ∘
      RobEntry.dispatched) = ids noted.1.1.rob := dispatched.kept.tracked.ids_eq
  rw [ids]
  have increasing := kept.inOrder.increasing
  rw [← kept.inOrder.stream] at increasing
  have fewer : (noted.1.2.retired ++ Core.ids noted.1.1.rob).Sublist
      (noted.1.2.retired ++ noted.1.1.order.pipeline) := by
    unfold Order.pipeline
    simp only [List.append_assoc]
    exact (List.sublist_append_left _ _).append_left _
  exact List.Pairwise.sublist fewer increasing

/-- The version that an entry reads was left by the youngest writer before it. -/
theorem operand_latest (noted : (O3Cpu Module × History) × List Registers) (gone : List Registers)
    {front back : List RobEntry} {entry : RobEntry} (kept : Kept config noted.1)
    (dispatched : Dispatches config noted gone (front ++ entry :: back))
    (frontRenamed : ∀ other ∈ front, other.view.scheduled = true) (reg phys : Nat)
    (latest : noted.1.1.regAllocator.latest (pendingVersions front) reg = some phys) :
    Operand noted entry.dispatched.instrId reg phys := by
  have tracked := dispatched.kept.tracked
  have renamed := tracked.state.renamed
  have inside : pendingVersions front ⊆
      Write.versions (pendingWrites (front ++ entry :: back)) := by
    rw [versions_pendingWrites, pendingVersions_append]
    exact List.subset_append_left _ _
  have writerIs : youngestWriter noted.2 entry.dispatched.instrId reg =
      lastWriter (gone ++ front.map RobEntry.dispatched) reg := by
    unfold youngestWriter
    rw [dispatched_before config noted gone kept dispatched]
  have taken := renamed.taken (renamed.latest_held inside latest)
  rcases lastWriter_latest gone noted.1.1.regAllocator.backendRat reg front frontRenamed with
    ⟨other, inFront, written, listed, isWriter, isLatest⟩ | ⟨isWriter, isLatest⟩
  · have isPhys : written = phys := Option.some.inj (isLatest.symm.trans latest)
    subst isPhys
    obtain ⟨file, present, arch, produced, complete⟩ :=
      tracked.written (List.mem_append_left _ inFront) listed
    refine ⟨taken, ?_, ?_⟩
    · rw [writerIs, isWriter]
      exact ⟨file, present, arch, produced⟩
    · intro valid writer found
      rw [writerIs, isWriter] at found
      cases found
      unfold RegisterAllocator.isValid at valid
      rw [present] at valid
      exact Or.inr (complete (Option.some.inj valid))
  · have isCommitted : noted.1.1.regAllocator.backendRat reg = some phys :=
      isLatest.symm.trans latest
    obtain ⟨_known, file, present, arch, produced⟩ := renamed.committed _ _ isCommitted
    refine ⟨taken, ?_, ?_⟩
    · rw [writerIs, isWriter]
      exact ⟨file, present, arch, produced⟩
    · intro _valid writer found
      rw [writerIs, isWriter] at found
      refine Or.inl ?_
      rw [← dispatched.retired]
      exact lastWriter_mem gone reg writer found

theorem operands (noted : (O3Cpu Module × History) × List Registers) (gone : List Registers)
    (entries : List RobEntry) (kept : Kept config noted.1)
    (dispatched : Dispatches config noted gone entries) (instr : OooModelInstr)
    (member : instr ∈ noted.1.1.rob) (scheduled : instr.scheduled = true) :
    ∃ registers ∈ noted.2, registers.instrId = instr.instrId ∧
      List.Forall₂ (Operand noted instr.instrId) registers.sourceRegisters
        instr.sourceRegisters := by
  obtain ⟨front, back, cut⟩ := List.append_of_mem member
  have tracked := dispatched.kept.tracked
  have ordered := dispatched.kept.ordered
  rw [cut] at tracked ordered
  obtain ⟨entriesFront, entry, entriesBack, same, inFront, mine, _inBack⟩ := tracked.split
  obtain ⟨sources, destinations, isRenamed, sourceRegs, _destinationRegs⟩ :=
    Tracked.renamed_entry mine scheduled
  have reads := tracked.state.reads
  rw [same] at reads
  have found := ((reads_append _ _ _ _).mp reads).2.1
  subst same
  have sameId : entry.dispatched.instrId = instr.instrId := by
    rw [isRenamed]
    rfl
  have frontRenamed := front_renamed ordered scheduled inFront
  refine ⟨entry.dispatched, ?_, sameId, ?_⟩
  · rw [dispatched.stream]
    apply List.mem_append_right
    exact List.mem_map_of_mem (List.mem_append_right _ List.mem_cons_self)
  · rw [← sourceRegs, ← sameId]
    have operand := operand_latest config noted gone kept dispatched frontRenamed
    rw [isRenamed] at found operand ⊢
    change List.Forall₂ _ (sources.map Prod.fst) (sources.map Prod.snd)
    rw [List.forall₂_map_left_iff, List.forall₂_map_right_iff, List.forall₂_same]
    intro read among
    exact operand read.1 read.2 (found read among)

/-! ### Executions -/

theorem sourcesValid_true (alloc : RegisterAllocator) (physRegs : List Nat)
    (valid : sourcesValid alloc physRegs = some true) :
    ∀ phys ∈ physRegs, alloc.isValid phys = some true := by
  induction physRegs with
  | nil =>
      intro phys member
      cases member
  | cons first rest ih =>
      unfold sourcesValid at valid
      obtain ⟨isValid, present, others⟩ := Option.bind_eq_some_iff.mp valid
      cases isValid with
      | false => cases others
      | true =>
          intro phys member
          rcases List.mem_cons.mp member with isFirst | later
          · rw [isFirst]
            exact present
          · exact ih others phys later

/-- An instruction that executes was scheduled, and all of its sources are valid. -/
theorem executeInstruction_executes (state next : O3Cpu Module)
    (ran : state.executeInstruction config = some next) (index : Nat)
    (before after : OooModelInstr) (present : state.rob[index]? = some before)
    (present' : next.rob[index]? = some after) (waits : before.executed = false)
    (executed : after.executed = true) : before.scheduled = true ∧
      sourcesValid state.regAllocator before.sourceRegisters = some true := by
  obtain ⟨⟨rob, executing⟩, swept, same⟩ := Option.map_eq_some_iff.mp ran
  subst same
  obtain ⟨reached, left, visits⟩ := Queue.sweep_visits _ _ _ _ swept index before after present
    present'
  unfold executeVisit at visits
  split at visits
  · rename_i allowed
    obtain ⟨ready, valid, result⟩ := Option.map_eq_some_iff.mp visits
    cases ready with
    | true => exact ⟨allowed.2.1, valid⟩
    | false =>
        cases result
        rw [waits] at executed
        cases executed
  · cases visits
    rw [waits] at executed
    cases executed

/-- In every run an instruction executes only when, for each register that it
had as a source when it was dispatched, the youngest older writer has completed
or retired; and while it is in the reorder buffer no register that it reads is
free or written by another. -/
theorem dispatches_operandsReady (l1iBus l1dBus : Channel) (modules : Module)
    (labels : List Step) (reached : (O3Cpu Module × History) × List Registers)
    (ran : (dispatches config hooks).run
      ((O3Cpu.init config l1iBus l1dBus modules, {}), []) labels = some reached) :
    (∀ next, reached.1.1.executeInstruction config = some next →
      ∀ (index : Nat) (before after : OooModelInstr), reached.1.1.rob[index]? = some before →
        next.rob[index]? = some after → before.executed = false → after.executed = true →
          ∃ registers ∈ reached.2, registers.instrId = before.instrId ∧
            ∀ reg ∈ registers.sourceRegisters, ∀ writer,
              youngestWriter reached.2 before.instrId reg = some writer →
                writer ∈ reached.1.2.retired ∨
                  ∃ older ∈ reached.1.1.rob, older.instrId = writer ∧ older.completed = true) ∧
      ∀ instr ∈ reached.1.1.rob, instr.scheduled = true →
        ∃ registers ∈ reached.2, registers.instrId = instr.instrId ∧
          List.Forall₂ (fun reg phys =>
            phys ∉ reached.1.1.regAllocator.freeRegisters ∧
              ∃ entry, reached.1.1.regAllocator.physicalRegisterFile[phys]? = some entry ∧
                entry.archRegIndex = reg ∧ entry.producingInstructionId =
                  (youngestWriter reached.2 instr.instrId reg).getD 0)
            registers.sourceRegisters instr.sourceRegisters := by
  obtain ⟨kept, gone, entries, dispatched⟩ :=
    dispatches_kept config hooks l1iBus l1dBus modules labels reached ran
  constructor
  · intro next executes index before after present present' waits executed
    obtain ⟨scheduled, valid⟩ := executeInstruction_executes config reached.1.1 next executes
      index before after present present' waits executed
    obtain ⟨registers, member, sameId, pairs⟩ := operands config reached gone entries kept
      dispatched before (List.mem_of_getElem? present) scheduled
    refine ⟨registers, member, sameId, ?_⟩
    have allValid := sourcesValid_true _ _ valid
    intro reg among writer isWriter
    obtain ⟨position, atPosition⟩ := List.mem_iff_getElem?.mp among
    obtain ⟨within, value⟩ := List.getElem?_eq_some_iff.mp atPosition
    have inside : position < before.sourceRegisters.length := by
      rw [← pairs.length_eq]
      exact within
    have operand := pairs.get within inside
    have isReg : registers.sourceRegisters.get ⟨position, within⟩ = reg := value
    rw [isReg] at operand
    exact operand.ready (allValid _ (List.getElem_mem inside)) writer isWriter
  · intro instr member scheduled
    obtain ⟨registers, among, sameId, pairs⟩ := operands config reached gone entries kept
      dispatched instr member scheduled
    exact ⟨registers, among, sameId, pairs.imp (fun _ _ operand =>
      ⟨operand.taken, operand.written⟩)⟩

end O3Cpu

private theorem storeAndLoad_executes :
    ((dispatches smallCore quietModules).run ((smallInit, {}), [])
      (storeAndLoad ++ smallCycles 8 ++ [.event .tick, .stage .retireRob,
        .stage .completeInflightInstruction])).any (fun reached =>
          decide (reached.1.1.rob.map (fun instr => instr.executed) = [true, false]) &&
            (reached.1.1.executeInstruction smallCore).any (fun next =>
              decide (next.rob.map (fun instr => instr.executed) = [true, true]))) = true := by
  decide +kernel

theorem dispatches_operandsReady_storeAndLoad :
    ∃ reached, (dispatches smallCore quietModules).run ((smallInit, {}), [])
        (storeAndLoad ++ smallCycles 8 ++ [.event .tick, .stage .retireRob,
          .stage .completeInflightInstruction]) = some reached ∧
      (∀ next, reached.1.1.executeInstruction smallCore = some next →
        ∀ (index : Nat) (before after : OooModelInstr), reached.1.1.rob[index]? = some before →
          next.rob[index]? = some after → before.executed = false → after.executed = true →
            ∃ registers ∈ reached.2, registers.instrId = before.instrId ∧
              ∀ reg ∈ registers.sourceRegisters, ∀ writer,
                youngestWriter reached.2 before.instrId reg = some writer →
                  writer ∈ reached.1.2.retired ∨ ∃ older ∈ reached.1.1.rob,
                    older.instrId = writer ∧ older.completed = true) ∧
        ∀ instr ∈ reached.1.1.rob, instr.scheduled = true →
          ∃ registers ∈ reached.2, registers.instrId = instr.instrId ∧
            List.Forall₂ (fun reg phys =>
              phys ∉ reached.1.1.regAllocator.freeRegisters ∧
                ∃ entry, reached.1.1.regAllocator.physicalRegisterFile[phys]? = some entry ∧
                  entry.archRegIndex = reg ∧ entry.producingInstructionId =
                    (youngestWriter reached.2 instr.instrId reg).getD 0)
              registers.sourceRegisters instr.sourceRegisters := by
  obtain ⟨reached, ran, _executes⟩ := (Option.any_eq_true _ _).mp storeAndLoad_executes
  exact ⟨reached, ran, O3Cpu.dispatches_operandsReady smallCore quietModules smallBus smallBus ()
    _ reached ran⟩

end ChampSim.Core
