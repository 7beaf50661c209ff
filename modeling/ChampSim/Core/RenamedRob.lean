/-
The reorder buffer with the registers that its instructions had when they were
dispatched.

An entry is either waiting with its architectural registers or renamed, and then
each of its registers is kept beside the physical one that took its place.
-/

import ChampSim.Core.Backend
import ChampSim.Core.Renaming

set_option autoImplicit false

namespace ChampSim.Core

/-- The registers of an instruction when it is dispatched. -/
structure Registers where
  instrId : Nat
  sourceRegisters : List Nat
  destinationRegisters : List Nat
deriving DecidableEq, Repr

namespace Registers

def Arch (registers : Registers) : Prop :=
  (∀ reg ∈ registers.sourceRegisters, reg < RegisterAllocator.numArchRegisters) ∧
    ∀ reg ∈ registers.destinationRegisters, reg < RegisterAllocator.numArchRegisters

def writesTo (reg : Nat) (registers : Registers) : Bool :=
  registers.destinationRegisters.contains reg

end Registers

def lastWriter (dispatched : List Registers) (reg : Nat) : Option Nat :=
  ((dispatched.filter (Registers.writesTo reg)).getLast?).map (fun registers => registers.instrId)

/-- What renaming and retirement see of an instruction. -/
structure RobView where
  registers : Registers
  scheduled : Bool
  completed : Bool

namespace OooModelInstr

def registers (instr : OooModelInstr) : Registers where
  instrId := instr.instrId
  sourceRegisters := instr.sourceRegisters
  destinationRegisters := instr.destinationRegisters

def view (instr : OooModelInstr) : RobView where
  registers := instr.registers
  scheduled := instr.scheduled
  completed := instr.completed

end OooModelInstr

/-- A renamed entry pairs every register with a physical one. -/
inductive RobEntry where
  | waiting (registers : Registers)
  | renamed (instrId : Nat) (completed : Bool) (sources destinations : List (Nat × Nat))

namespace RobEntry

def dispatched : RobEntry → Registers
  | .waiting registers => registers
  | .renamed instrId _ sources destinations =>
      { instrId
        sourceRegisters := sources.map Prod.fst
        destinationRegisters := destinations.map Prod.fst }

def view : RobEntry → RobView
  | .waiting registers => { registers, scheduled := false, completed := false }
  | .renamed instrId completed sources destinations =>
      { registers :=
          { instrId
            sourceRegisters := sources.map Prod.snd
            destinationRegisters := destinations.map Prod.snd }
        scheduled := true
        completed }

def sources : RobEntry → List (Nat × Nat)
  | .waiting _ => []
  | .renamed _ _ sources _ => sources

def destinations : RobEntry → List (Nat × Nat)
  | .waiting _ => []
  | .renamed _ _ _ destinations => destinations

def writes : RobEntry → List Write
  | .waiting _ => []
  | .renamed instrId completed _ destinations => destinations.map (fun destination =>
      { producer := instrId, reg := destination.1, phys := destination.2, completed })

end RobEntry

def pendingWrites (entries : List RobEntry) : List Write := entries.flatMap RobEntry.writes

def pendingVersions (entries : List RobEntry) : List (Nat × Nat) :=
  entries.flatMap RobEntry.destinations

theorem versions_pendingWrites (entries : List RobEntry) :
    Write.versions (pendingWrites entries) = pendingVersions entries := by
  unfold Write.versions pendingWrites pendingVersions
  rw [List.map_flatMap]
  apply List.flatMap_congr
  intro entry _member
  cases entry with
  | waiting registers => rfl
  | renamed instrId completed sources destinations =>
      change List.map _ (List.map _ destinations) = destinations
      rw [List.map_map]
      exact List.map_id _

theorem pendingVersions_append (front back : List RobEntry) :
    pendingVersions (front ++ back) = pendingVersions front ++ pendingVersions back :=
  List.flatMap_append

theorem pendingWrites_append (front back : List RobEntry) :
    pendingWrites (front ++ back) = pendingWrites front ++ pendingWrites back :=
  List.flatMap_append

/-! ### What the entries read -/

/-- Every source of an entry is the youngest version before the entry. -/
def Reads (alloc : RegisterAllocator) : List (Nat × Nat) → List RobEntry → Prop
  | _, [] => True
  | before, entry :: rest =>
      (∀ read ∈ entry.sources, alloc.latest before read.1 = some read.2) ∧
        Reads alloc (before ++ entry.destinations) rest

theorem reads_append (alloc : RegisterAllocator) (before : List (Nat × Nat))
    (front back : List RobEntry) :
    Reads alloc before (front ++ back) ↔
      Reads alloc before front ∧ Reads alloc (before ++ pendingVersions front) back := by
  induction front generalizing before with
  | nil =>
      change _ ↔ True ∧ Reads alloc (before ++ []) back
      rw [List.append_nil]
      exact ⟨fun reads => ⟨trivial, reads⟩, And.right⟩
  | cons entry rest ih =>
      change (_ ∧ Reads alloc (before ++ entry.destinations) (rest ++ back)) ↔
        (_ ∧ Reads alloc (before ++ entry.destinations) rest) ∧
          Reads alloc (before ++ (entry.destinations ++ pendingVersions rest)) back
      rw [ih, ← List.append_assoc, and_assoc]

theorem reads_waiting (alloc : RegisterAllocator) (before : List (Nat × Nat))
    (entries : List RobEntry) (waiting : ∀ entry ∈ entries, entry.view.scheduled = false) :
    Reads alloc before entries := by
  induction entries generalizing before with
  | nil => trivial
  | cons entry rest ih =>
      have first := waiting entry List.mem_cons_self
      refine ⟨?_, ih _ (fun other member => waiting other (List.mem_cons_of_mem entry member))⟩
      intro read member
      cases entry with
      | waiting registers => cases member
      | renamed instrId completed sources destinations => cases first

/-- What one allocator finds for every entry another one may find as well. -/
theorem Reads.imp {alloc next : RegisterAllocator} (total : List (Nat × Nat))
    {before others : List (Nat × Nat)} {entries : List RobEntry}
    (finds : ∀ pending, others ++ pending ⊆ total → ∀ reg phys,
      alloc.latest (before ++ pending) reg = some phys →
        next.latest (others ++ pending) reg = some phys)
    (among : others ++ pendingVersions entries ⊆ total)
    (reads : Reads alloc before entries) : Reads next others entries := by
  induction entries generalizing before others with
  | nil => trivial
  | cons entry rest ih =>
      obtain ⟨first, later⟩ := reads
      have split : others ++ entry.destinations ++ pendingVersions rest ⊆ total := by
        rw [List.append_assoc]
        exact among
      constructor
      · intro read member
        have found := finds [] (by
          rw [List.append_nil]
          exact fun version inside => among (List.mem_append_left _ inside)) read.1 read.2
        rw [List.append_nil, List.append_nil] at found
        exact found (first read member)
      · apply ih ?_ split later
        intro pending inside reg phys
        rw [List.append_assoc, List.append_assoc]
        apply finds (entry.destinations ++ pending)
        rw [← List.append_assoc]
        exact inside

/-! ### Renaming the registers of an instruction -/

namespace RegisterAllocator.Renamed

variable {size : Nat} {owner : Nat → Option Nat} {writes : List Write} {alloc : RegisterAllocator}

def unmappedCount (alloc : RegisterAllocator) (regs : List Nat) : Nat :=
  regs.countP (fun reg => (alloc.frontendRat reg).isNone)

theorem unmappedCount_le {next : RegisterAllocator} (keeps : KeepsVersions alloc next)
    (regs : List Nat) : unmappedCount next regs ≤ unmappedCount alloc regs := by
  apply List.countP_mono_left
  intro reg _member absent
  cases mapping : alloc.frontendRat reg with
  | none => rfl
  | some phys =>
      rw [keeps.frontend reg (by rw [mapping]; exact Option.some_ne_none phys), mapping] at absent
      cases absent

theorem renameSources (renamed : Renamed size owner writes alloc) (regs : List Nat)
    (arch : ∀ reg ∈ regs, reg < numArchRegisters) (spare : Nat)
    (room : unmappedCount alloc regs + spare ≤ alloc.freeRegisters.length) :
    ∃ (sources : List (Nat × Nat)) (next : RegisterAllocator),
      O3Cpu.renameEach renameSrcRegister alloc regs =
        some (sources.map Prod.snd, next) ∧ sources.map Prod.fst = regs ∧
      Renamed size owner writes next ∧ KeepsVersions alloc next ∧
        spare ≤ next.freeRegisters.length ∧
          ∀ read ∈ sources, next.latest (Write.versions writes) read.1 = some read.2 := by
  induction regs generalizing alloc with
  | nil =>
      refine ⟨[], alloc, rfl, rfl, renamed, KeepsVersions.refl alloc, by omega, ?_⟩
      intro read member
      cases member
  | cons reg rest ih =>
      have count : (if (alloc.frontendRat reg).isNone = true then 1 else 0) =
          (if alloc.frontendRat reg = none then 1 else 0) := by
        cases alloc.frontendRat reg with
        | none => rfl
        | some phys => rfl
      unfold unmappedCount at room
      rw [List.countP_cons, count] at room
      have needed : alloc.frontendRat reg = none → 0 < alloc.freeRegisters.length := by
        intro absent
        rw [if_pos absent] at room
        omega
      obtain ⟨phys, middle, first, kept, found, keeps, spent⟩ :=
        renamed.renameSrcRegister_renames reg (arch reg List.mem_cons_self) needed
      have fewer := unmappedCount_le keeps rest
      unfold unmappedCount at fewer
      obtain ⟨sources, last, others, firsts, done, keepsLater, remaining, reads⟩ := ih kept
        (fun other member => arch other (List.mem_cons_of_mem reg member)) (by
          unfold unmappedCount
          omega)
      refine ⟨(reg, phys) :: sources, last, ?_, ?_, done, keeps.trans keepsLater, remaining, ?_⟩
      · unfold O3Cpu.renameEach at others ⊢
        unfold Queue.sweep
        rw [first]
        change (Queue.sweep renameSrcRegister middle rest).map _ = _
        rw [others]
        rfl
      · rw [List.map_cons, firsts]
      · intro read member
        rcases List.mem_cons.mp member with isFirst | later
        · rw [isFirst]
          exact kept.latest_kept keepsLater (List.Subset.refl _) found
        · exact reads read later

theorem renameDestinations (renamed : Renamed size owner writes alloc) (id : Nat)
    (regs : List Nat) (arch : ∀ reg ∈ regs, reg < numArchRegisters)
    (room : regs.length ≤ alloc.freeRegisters.length) :
    ∃ (destinations : List (Nat × Nat)) (next : RegisterAllocator),
      O3Cpu.renameEach (fun current reg => current.renameDestRegister reg id) alloc regs =
          some (destinations.map Prod.snd, next) ∧ destinations.map Prod.fst = regs ∧
      Renamed size owner (writes ++ destinations.map (fun destination =>
        { producer := id, reg := destination.1, phys := destination.2, completed := false }))
          next ∧
        next.backendRat = alloc.backendRat := by
  induction regs generalizing alloc writes with
  | nil =>
      refine ⟨[], alloc, rfl, rfl, ?_, rfl⟩
      rw [List.map_nil, List.append_nil]
      exact renamed
  | cons reg rest ih =>
      rw [List.length_cons] at room
      obtain ⟨phys, middle, first, kept, same, spent⟩ :=
        renamed.renameDestRegister_renames reg id (arch reg List.mem_cons_self) (by omega)
      obtain ⟨destinations, last, others, firsts, done, unchanged⟩ := ih kept
        (fun other member => arch other (List.mem_cons_of_mem reg member)) (by omega)
      refine ⟨(reg, phys) :: destinations, last, ?_, ?_, ?_, unchanged.trans same⟩
      · unfold O3Cpu.renameEach at others ⊢
        unfold Queue.sweep
        rw [first]
        change (Queue.sweep _ middle rest).map _ = _
        rw [others]
        rfl
      · rw [List.map_cons, firsts]
      · rw [List.map_cons, List.append_cons]
        exact done

theorem completeEach (renamed : Renamed size owner writes alloc) (physRegs : List Nat)
    (held : ∀ phys ∈ physRegs, phys ∈ (Write.versions writes).map Prod.snd)
    (complete : ∀ phys ∈ physRegs, ∀ write ∈ writes, write.phys = phys →
      write.completed = true) :
    ∃ next, physRegs.foldlM completeDestRegister alloc = some next ∧
      Renamed size owner writes next ∧ next.backendRat = alloc.backendRat := by
  obtain ⟨next, completes, kept, same⟩ := Queue.foldlM_succeeds completeDestRegister
    (fun reached => Renamed size owner writes reached ∧ reached.backendRat = alloc.backendRat)
    physRegs (by
      rintro reached phys member ⟨kept, same⟩
      obtain ⟨after, completes, still, unchanged⟩ := kept.completeDestRegister_renames phys
        (held phys member) (complete phys member)
      exact ⟨after, completes, still, unchanged.trans same⟩) alloc ⟨renamed, rfl⟩
  exact ⟨next, completes, kept, same⟩

/-- The destinations of the oldest instruction are committed in order. -/
theorem retireEach {rest : List Write} (id : Nat) (completed : Bool)
    (destinations : List (Nat × Nat))
    (renamed : Renamed size owner (destinations.map (fun destination =>
      { producer := id, reg := destination.1, phys := destination.2, completed }) ++ rest) alloc) :
    ∃ next, (destinations.map Prod.snd).foldlM retireDestRegister alloc = some next ∧
      Renamed size
        (fun reg => if (destinations.map Prod.fst).contains reg then some id else owner reg)
          rest next ∧
      (∀ pending reg, next.latest pending reg = alloc.latest (destinations ++ pending) reg) ∧
        ∃ freed, next.freeRegisters = alloc.freeRegisters ++ freed := by
  induction destinations generalizing alloc owner with
  | nil => exact ⟨alloc, rfl, renamed, fun _ _ => rfl, [], (List.append_nil _).symm⟩
  | cons destination others ih =>
      obtain ⟨middle, first, kept, backend, free⟩ := renamed.retireDestRegister_renames
      obtain ⟨last, remaining, done, latest, freed, added⟩ := ih kept
      refine ⟨last, ?_, ?_, ?_, (alloc.backendRat destination.1).toList ++ freed, ?_⟩
      · rw [List.map_cons, List.foldlM_cons, first]
        exact remaining
      · have owners : (fun reg => if ((destination :: others).map Prod.fst).contains reg then some id
            else owner reg) = (fun reg => if (others.map Prod.fst).contains reg then some id
              else Function.update owner destination.1 (some id) reg) := by
          funext reg
          rw [List.map_cons, List.contains_cons]
          by_cases later : (others.map Prod.fst).contains reg = true
          · rw [later, Bool.or_true]
            rfl
          · rw [Bool.eq_false_iff.mpr later, Bool.or_false]
            by_cases mine : reg = destination.1
            · rw [mine, Function.update_self, beq_self_eq_true]
              rfl
            · rw [Function.update_of_ne mine, beq_eq_false_iff_ne.mpr mine]
        rw [owners]
        exact done
      · intro pending reg
        rw [latest]
        unfold RegisterAllocator.latest
        rw [backend]
        exact Versions.latest_commit _ _ _ _ _
      · rw [added, free, List.append_assoc]

end RegisterAllocator.Renamed

/-! ### The entries and the allocator -/

structure RobRenamed (size : Nat) (gone : List Registers) (entries : List RobEntry)
    (alloc : RegisterAllocator) : Prop where
  renamed : alloc.Renamed size (lastWriter gone) (pendingWrites entries)
  reads : Reads alloc [] entries
  arch : ∀ entry ∈ entries, entry.dispatched.Arch

/-- The instructions of a reorder buffer are the entries of what was dispatched. -/
structure Tracked (size : Nat) (gone : List Registers) (rob : List OooModelInstr)
    (alloc : RegisterAllocator) (entries : List RobEntry) : Prop where
  shown : entries.map RobEntry.view = rob.map OooModelInstr.view
  state : RobRenamed size gone entries alloc

theorem lastWriter_append (gone : List Registers) (newest : Registers) (reg : Nat) :
    lastWriter (gone ++ [newest]) reg =
      if newest.destinationRegisters.contains reg then some newest.instrId
      else lastWriter gone reg := by
  unfold lastWriter
  rw [List.filter_append]
  cases writes : newest.destinationRegisters.contains reg with
  | true =>
      rw [List.filter_cons_of_pos (by exact writes), List.filter_nil, List.getLast?_concat]
      rfl
  | false =>
      rw [List.filter_cons_of_neg (by unfold Registers.writesTo; rw [writes]; decide),
        List.filter_nil, List.append_nil]
      rfl

namespace Tracked

open O3Cpu

variable {size : Nat} {gone : List Registers} {rob front back : List OooModelInstr}
  {instr : OooModelInstr} {alloc : RegisterAllocator} {entries : List RobEntry}

theorem split (tracked : Tracked size gone (front ++ instr :: back) alloc entries) :
    ∃ entriesFront entry entriesBack, entries = entriesFront ++ entry :: entriesBack ∧
      entriesFront.map RobEntry.view = front.map OooModelInstr.view ∧
        entry.view = instr.view ∧
          entriesBack.map RobEntry.view = back.map OooModelInstr.view := by
  have shown := tracked.shown
  rw [List.map_append, List.map_cons] at shown
  obtain ⟨entriesFront, others, first, inFront, later⟩ := List.map_eq_append_iff.mp shown
  obtain ⟨entry, entriesBack, second, mine, inBack⟩ := List.map_eq_cons_iff.mp later
  subst second
  exact ⟨entriesFront, entry, entriesBack, first, inFront, mine, inBack⟩

theorem unscheduled_views {others : List RobEntry} {instrs : List OooModelInstr}
    (shown : others.map RobEntry.view = instrs.map OooModelInstr.view)
    (waiting : ∀ later ∈ instrs, later.scheduled = false) :
    ∀ entry ∈ others, entry.view.scheduled = false := by
  intro entry member
  have listed : entry.view ∈ instrs.map OooModelInstr.view := by
    rw [← shown]
    exact List.mem_map.mpr ⟨entry, member, rfl⟩
  obtain ⟨later, among, same⟩ := List.mem_map.mp listed
  rw [← same]
  exact waiting later among

theorem waiting_entry {entry : RobEntry} (mine : entry.view = instr.view)
    (waits : instr.scheduled = false) :
    entry = .waiting instr.registers ∧ instr.completed = false := by
  cases entry with
  | waiting registers =>
      have same : registers = instr.registers := congrArg RobView.registers mine
      subst same
      exact ⟨rfl, (congrArg RobView.completed mine).symm⟩
  | renamed instrId completed sources destinations =>
      have scheduled : true = instr.scheduled := congrArg RobView.scheduled mine
      rw [waits] at scheduled
      cases scheduled

/-- The registers of an instruction that is not scheduled are architectural. -/
theorem waiting_arch (tracked : Tracked size gone (front ++ instr :: back) alloc entries)
    (waits : instr.scheduled = false) : instr.registers.Arch := by
  obtain ⟨entriesFront, entry, entriesBack, split, _inFront, mine, _inBack⟩ := tracked.split
  obtain ⟨isWaiting, _undone⟩ := waiting_entry mine waits
  have known := tracked.state.arch entry (by
    rw [split]
    exact List.mem_append_right _ List.mem_cons_self)
  rw [isWaiting] at known
  exact known

theorem renamed_entry {entry : RobEntry} (mine : entry.view = instr.view)
    (scheduled : instr.scheduled = true) : ∃ sources destinations,
      entry = .renamed instr.instrId instr.completed sources destinations ∧
        sources.map Prod.snd = instr.sourceRegisters ∧
          destinations.map Prod.snd = instr.destinationRegisters := by
  cases entry with
  | waiting registers =>
      have waits : false = instr.scheduled := congrArg RobView.scheduled mine
      rw [scheduled] at waits
      cases waits
  | renamed instrId completed sources destinations =>
      have registers : RobEntry.view (.renamed instrId completed sources destinations) =
          instr.view := mine
      have sameId : instrId = instr.instrId :=
        congrArg (fun view => view.registers.instrId) registers
      have sameDone : completed = instr.completed := congrArg RobView.completed registers
      subst sameId sameDone
      exact ⟨sources, destinations, rfl,
        congrArg (fun view => view.registers.sourceRegisters) registers,
        congrArg (fun view => view.registers.destinationRegisters) registers⟩

theorem waiting_pending (others : List RobEntry)
    (waiting : ∀ entry ∈ others, entry.view.scheduled = false) : pendingWrites others = [] := by
  apply List.flatMap_eq_nil_iff.mpr
  intro entry member
  cases entry with
  | waiting registers => rfl
  | renamed instrId completed sources destinations => cases waiting _ member

theorem dispatch (tracked : Tracked size gone rob alloc entries)
    (fresh : instr.scheduled = false ∧ instr.completed = false) (arch : instr.registers.Arch) :
    Tracked size gone (rob ++ [instr]) alloc (entries ++ [.waiting instr.registers]) := by
  have waits : ∀ entry ∈ [RobEntry.waiting instr.registers], entry.view.scheduled = false := by
    intro entry member
    rw [List.mem_singleton.mp member]
    rfl
  refine ⟨?_, ?_, ?_, ?_⟩
  · rw [List.map_append, List.map_append, tracked.shown]
    unfold OooModelInstr.view
    rw [List.map_singleton, List.map_singleton, fresh.1, fresh.2]
    rfl
  · rw [pendingWrites_append, waiting_pending _ waits, List.append_nil]
    exact tracked.state.renamed
  · exact (reads_append _ _ _ _).mpr ⟨tracked.state.reads, reads_waiting _ _ _ waits⟩
  · intro entry member
    rcases List.mem_append.mp member with older | newest
    · exact tracked.state.arch entry older
    · rw [List.mem_singleton.mp newest]
      exact arch

theorem schedule (tracked : Tracked size gone (front ++ instr :: back) alloc entries)
    (waits : instr.scheduled = false) (after : ∀ later ∈ back, later.scheduled = false)
    (room : RegisterAllocator.Renamed.unmappedCount alloc instr.sourceRegisters +
      instr.destinationRegisters.length ≤ alloc.freeRegisters.length) :
    ∃ sourceRegisters destinationRegisters next others, doScheduling alloc instr =
        some ({ instr with sourceRegisters, destinationRegisters, scheduled := true }, next) ∧
      Tracked size gone (front ++
        { instr with sourceRegisters, destinationRegisters, scheduled := true } :: back) next
          others ∧
        others.map RobEntry.dispatched = entries.map RobEntry.dispatched := by
  obtain ⟨entriesFront, entry, entriesBack, same, inFront, mine, inBack⟩ := tracked.split
  obtain ⟨isWaiting, undone⟩ := waiting_entry mine waits
  subst isWaiting same
  have backWaits := unscheduled_views inBack after
  have pendings : pendingWrites (entriesFront ++ .waiting instr.registers :: entriesBack) =
      pendingWrites entriesFront := by
    rw [pendingWrites_append]
    change _ ++ ([] ++ pendingWrites entriesBack) = _
    rw [waiting_pending _ backWaits, List.append_nil, List.append_nil]
  obtain ⟨renamed, reads, arch⟩ := tracked.state
  rw [pendings] at renamed
  have isArch := arch (.waiting instr.registers)
    (List.mem_append_right _ List.mem_cons_self)
  obtain ⟨sources, middle, first, sourceRegs, kept, keeps, spare, finds⟩ :=
    renamed.renameSources instr.sourceRegisters isArch.1 _ room
  obtain ⟨destinations, next, second, destinationRegs, done, backend⟩ :=
    kept.renameDestinations instr.instrId instr.destinationRegisters isArch.2 spare
  have latest : ∀ pending reg, next.latest pending reg = middle.latest pending reg := by
    intro pending reg
    unfold RegisterAllocator.latest
    rw [backend]
  have registers : RobEntry.dispatched (.renamed instr.instrId false sources destinations) =
      instr.registers := by
    change ({ instrId := instr.instrId
              sourceRegisters := sources.map Prod.fst
              destinationRegisters := destinations.map Prod.fst } : Registers) = _
    rw [sourceRegs, destinationRegs]
    rfl
  refine ⟨sources.map Prod.snd, destinations.map Prod.snd, next,
    entriesFront ++ .renamed instr.instrId false sources destinations :: entriesBack,
    ?_, ⟨?_, ?_, ?_, ?_⟩, ?_⟩
  · unfold doScheduling
    rw [first, Option.bind_some]
    dsimp only
    rw [second]
    rfl
  · rw [List.map_append, List.map_append, List.map_cons, List.map_cons, inFront, inBack]
    unfold OooModelInstr.view
    rw [undone]
    rfl
  · rw [pendingWrites_append]
    change RegisterAllocator.Renamed _ _ (_ ++ (_ ++ pendingWrites entriesBack)) next
    rw [waiting_pending _ backWaits, List.append_nil]
    exact done
  · rw [reads_append] at reads ⊢
    refine ⟨?_, ?_, reads_waiting _ _ _ backWaits⟩
    · apply Reads.imp (pendingVersions entriesFront) ?_ (List.Subset.refl _) reads.1
      intro pending inside reg phys found
      rw [latest]
      rw [← versions_pendingWrites] at inside
      exact renamed.latest_kept keeps inside found
    · intro read member
      rw [latest, List.nil_append, ← versions_pendingWrites]
      exact finds read member
  · intro other member
    rcases List.mem_append.mp member with earlier | later
    · exact arch other (List.mem_append_left _ earlier)
    · rcases List.mem_cons.mp later with isMine | behind
      · rw [isMine, registers]
        exact isArch
      · exact arch other (List.mem_append_right _ (List.mem_cons_of_mem _ behind))
  · rw [List.map_append, List.map_append, List.map_cons, List.map_cons, registers]
    rfl

theorem complete (tracked : Tracked size gone (front ++ instr :: back) alloc entries)
    (scheduled : instr.scheduled = true) :
    ∃ next others, instr.destinationRegisters.foldlM RegisterAllocator.completeDestRegister
        alloc = some next ∧
      Tracked size gone (front ++ { instr with completed := true } :: back) next others ∧
        others.map RobEntry.dispatched = entries.map RobEntry.dispatched := by
  obtain ⟨entriesFront, entry, entriesBack, same, inFront, mine, inBack⟩ := tracked.split
  obtain ⟨sources, destinations, isRenamed, sourceRegs, destinationRegs⟩ :=
    renamed_entry mine scheduled
  subst isRenamed same
  obtain ⟨renamed, reads, arch⟩ := tracked.state
  rw [pendingWrites_append] at renamed
  change RegisterAllocator.Renamed _ _ (pendingWrites entriesFront ++ (destinations.map _ ++
    pendingWrites entriesBack)) alloc at renamed
  rw [← List.append_assoc] at renamed
  have marked := renamed.mark (fun write => { write with completed := true })
    (fun _ => ⟨rfl, rfl⟩) (fun _ => rfl)
  rw [List.map_map] at marked
  have distinct := marked.distinct
  unfold RegisterAllocator.registers Versions.items at distinct
  have physDistinct := (List.nodup_append.mp distinct).2.1
  unfold Write.versions at physDistinct
  rw [List.map_map] at physDistinct
  have listed : ∀ phys ∈ destinations.map Prod.snd, ∃ write ∈ pendingWrites entriesFront ++
      destinations.map ((fun write : Write => { write with completed := true }) ∘
        fun destination => { producer := instr.instrId, reg := destination.1,
                             phys := destination.2, completed := instr.completed }) ++
          pendingWrites entriesBack, write.phys = phys ∧ write.completed = true := by
    intro phys member
    obtain ⟨destination, among, isPhys⟩ := List.mem_map.mp member
    refine ⟨_, List.mem_append_left _ (List.mem_append_right _
      (List.mem_map.mpr ⟨destination, among, rfl⟩)), isPhys, rfl⟩
  obtain ⟨next, completes, done, backend⟩ := marked.completeEach (destinations.map Prod.snd)
    (by
      intro phys member
      obtain ⟨write, among, isPhys, _complete⟩ := listed phys member
      rw [← isPhys]
      exact RegisterAllocator.Renamed.pending_held among)
    (by
      intro phys member write inWrites samePhys
      obtain ⟨other, among, isPhys, isComplete⟩ := listed phys member
      have equal := List.inj_on_of_nodup_map physDistinct inWrites among
        (samePhys.trans isPhys.symm)
      rw [equal]
      exact isComplete)
  refine ⟨next, entriesFront ++ .renamed instr.instrId true sources destinations :: entriesBack,
    ?_, ⟨?_, ?_, ?_, ?_⟩, ?_⟩
  · rw [← destinationRegs]
    exact completes
  · rw [List.map_append, List.map_append, List.map_cons, List.map_cons, inFront, inBack]
    unfold OooModelInstr.view OooModelInstr.registers
    dsimp only
    rw [scheduled, ← sourceRegs, ← destinationRegs]
    rfl
  · rw [pendingWrites_append]
    change RegisterAllocator.Renamed _ _ (pendingWrites entriesFront ++ (destinations.map _ ++
      pendingWrites entriesBack)) next
    rw [← List.append_assoc]
    exact done
  · have moved : Reads next [] (entriesFront ++
        .renamed instr.instrId instr.completed sources destinations :: entriesBack) := by
      apply Reads.imp _ ?_ (List.Subset.refl _) reads
      intro pending _inside reg phys found
      unfold RegisterAllocator.latest at found ⊢
      rw [backend]
      exact found
    rw [reads_append] at moved ⊢
    exact moved
  · intro other member
    rcases List.mem_append.mp member with earlier | later
    · exact arch other (List.mem_append_left _ earlier)
    · rcases List.mem_cons.mp later with isMine | behind
      · rw [isMine]
        exact arch (.renamed instr.instrId instr.completed sources destinations)
          (List.mem_append_right _ List.mem_cons_self)
      · exact arch other (List.mem_append_right _ (List.mem_cons_of_mem _ behind))
  · rw [List.map_append, List.map_append, List.map_cons, List.map_cons]
    rfl

theorem retire (tracked : Tracked size gone (instr :: back) alloc entries)
    (scheduled : instr.scheduled = true) :
    ∃ next entry others, entries = entry :: others ∧
      entry.dispatched.instrId = instr.instrId ∧ retireRegisters alloc instr = some next ∧
        Tracked size (gone ++ [entry.dispatched]) back next others ∧
          ∃ freed, next.freeRegisters = alloc.freeRegisters ++ freed := by
  obtain ⟨entry, others, same, mine, inBack⟩ := List.map_eq_cons_iff.mp tracked.shown
  obtain ⟨sources, destinations, isRenamed, _sourceRegs, destinationRegs⟩ :=
    renamed_entry mine scheduled
  subst isRenamed same
  obtain ⟨renamed, reads, arch⟩ := tracked.state
  obtain ⟨next, retires, done, latest, freed⟩ :=
    RegisterAllocator.Renamed.retireEach instr.instrId instr.completed destinations renamed
  refine ⟨next, _, others, rfl, rfl, ?_, ⟨inBack, ?_, ?_, ?_⟩, freed⟩
  · unfold retireRegisters
    rw [← destinationRegs]
    exact retires
  · have owners : lastWriter (gone ++ [RobEntry.dispatched
        (.renamed instr.instrId instr.completed sources destinations)]) =
          (fun reg => if (destinations.map Prod.fst).contains reg then some instr.instrId
            else lastWriter gone reg) := by
      funext reg
      exact lastWriter_append gone _ reg
    rw [owners]
    exact done
  · apply Reads.imp (pendingVersions others) ?_ (List.Subset.refl _) reads.2
    intro pending _inside reg phys found
    rw [List.nil_append, latest]
    exact found
  · intro other member
    exact arch other (List.mem_cons_of_mem _ member)

end Tracked

end ChampSim.Core
