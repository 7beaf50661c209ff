/-
What the register allocator keeps of the registers it has renamed.

A physical register is a version of an architectural one: the backend table
holds the committed versions, and the writes that have not retired hold the
pending ones. The frontend table names the youngest version of each.
-/

import ChampSim.Core.RegisterAllocator
import ChampSim.Library.Versions

set_option autoImplicit false

namespace ChampSim.Core

/-- A write that has been renamed and has not retired. -/
structure Write where
  producer : Nat
  reg : Nat
  phys : Nat
  completed : Bool

namespace Write

def version (write : Write) : Nat × Nat := (write.reg, write.phys)

def versions (writes : List Write) : List (Nat × Nat) := writes.map Write.version

end Write

namespace RegisterAllocator

def archRegisters : List Nat := List.range numArchRegisters

/-- The youngest version of a register after some of the pending ones. -/
def latest (alloc : RegisterAllocator) (pending : List (Nat × Nat)) (reg : Nat) : Option Nat :=
  Versions.latest alloc.backendRat pending reg

def registers (alloc : RegisterAllocator) (writes : List Write) : List Nat :=
  Versions.items archRegisters alloc.freeRegisters alloc.backendRat (Write.versions writes)

/-- `owner` is the producer of the committed version of a register. -/
structure Renamed (size : Nat) (owner : Nat → Option Nat) (writes : List Write)
    (alloc : RegisterAllocator) : Prop where
  placed : (alloc.registers writes).Perm (List.range size)
  sized : alloc.physicalRegisterFile.length = size
  frontend : ∀ reg, alloc.frontendRat reg = alloc.latest (Write.versions writes) reg
  committed : ∀ reg phys, alloc.backendRat reg = some phys → reg < numArchRegisters ∧
    ∃ entry, alloc.physicalRegisterFile[phys]? = some entry ∧ entry.archRegIndex = reg ∧
      entry.producingInstructionId = (owner reg).getD 0
  pending : ∀ write ∈ writes, write.reg < numArchRegisters ∧
    ∃ entry, alloc.physicalRegisterFile[write.phys]? = some entry ∧
      entry.archRegIndex = write.reg ∧ entry.producingInstructionId = write.producer ∧
        (entry.valid = true → write.completed = true)
  unwritten : ∀ reg, alloc.backendRat reg = none → owner reg = none

namespace Renamed

variable {size : Nat} {owner : Nat → Option Nat} {writes : List Write} {alloc : RegisterAllocator}

/-! ### Where the registers are -/

theorem distinct (renamed : Renamed size owner writes alloc) : (alloc.registers writes).Nodup :=
  renamed.placed.nodup_iff.mpr List.nodup_range

theorem within (renamed : Renamed size owner writes alloc) {phys : Nat}
    (member : phys ∈ alloc.registers writes) : phys < alloc.physicalRegisterFile.length := by
  rw [renamed.sized]
  exact List.mem_range.mp (renamed.placed.mem_iff.mp member)

theorem taken (renamed : Renamed size owner writes alloc) {phys : Nat}
    (held : phys ∈ archRegisters.filterMap alloc.backendRat ∨
      phys ∈ (Write.versions writes).map Prod.snd) : phys ∉ alloc.freeRegisters := by
  have distinct := renamed.distinct
  unfold registers Versions.items at distinct
  rw [List.append_assoc, List.nodup_append] at distinct
  intro free
  exact distinct.2.2 phys free phys (List.mem_append.mpr held) rfl

theorem committed_held (renamed : Renamed size owner writes alloc) {reg phys : Nat}
    (holds : alloc.backendRat reg = some phys) :
    phys ∈ archRegisters.filterMap alloc.backendRat :=
  List.mem_filterMap.mpr ⟨reg, List.mem_range.mpr (renamed.committed reg phys holds).1, holds⟩

theorem pending_held {write : Write} (member : write ∈ writes) :
    write.phys ∈ (Write.versions writes).map Prod.snd :=
  List.mem_map.mpr ⟨write.version, List.mem_map.mpr ⟨write, member, rfl⟩, rfl⟩

/-- The version that a read finds is committed, or one of the pending writes. -/
theorem latest_held (renamed : Renamed size owner writes alloc) {before : List (Nat × Nat)}
    (among : before ⊆ Write.versions writes) {reg phys : Nat}
    (found : alloc.latest before reg = some phys) :
    phys ∈ archRegisters.filterMap alloc.backendRat ∨
      phys ∈ (Write.versions writes).map Prod.snd := by
  rcases Versions.latest_mem _ _ _ _ found with old | new
  · exact Or.inl (renamed.committed_held old)
  · exact Or.inr (List.mem_map.mpr ⟨(reg, phys), among new, rfl⟩)

theorem held_within (renamed : Renamed size owner writes alloc) {phys : Nat}
    (held : phys ∈ archRegisters.filterMap alloc.backendRat ∨
      phys ∈ (Write.versions writes).map Prod.snd) :
    phys < alloc.physicalRegisterFile.length := by
  apply renamed.within
  unfold registers Versions.items
  rw [List.append_assoc]
  exact List.mem_append_right _ (List.mem_append.mpr held)

/-- A write to a free register of the file changes no entry that is held. -/
theorem file_unchanged (renamed : Renamed size owner writes alloc) {phys other : Nat}
    (free : phys ∈ alloc.freeRegisters)
    (held : other ∈ archRegisters.filterMap alloc.backendRat ∨
      other ∈ (Write.versions writes).map Prod.snd) (value : PhysicalRegister) :
    (alloc.physicalRegisterFile.set phys value)[other]? = alloc.physicalRegisterFile[other]? := by
  have different : phys ≠ other := by
    intro same
    subst same
    exact renamed.taken held free
  exact List.getElem?_set_ne different

/-! ### Renaming -/

theorem front_free {phys : Nat} {others : List Nat} (renamed : Renamed size owner writes alloc)
    (free : alloc.freeRegisters = phys :: others) :
    phys < alloc.physicalRegisterFile.length := by
  apply renamed.within
  unfold registers Versions.items
  rw [free]
  exact List.mem_append_left _ (List.mem_append_left _ List.mem_cons_self)

theorem renameDestRegister_renames (renamed : Renamed size owner writes alloc) (reg id : Nat)
    (arch : reg < numArchRegisters) (room : 0 < alloc.freeRegisters.length) :
    ∃ phys next, alloc.renameDestRegister reg id = some (phys, next) ∧
      Renamed size owner
        (writes ++ [{ producer := id, reg, phys, completed := false }]) next ∧
      next.backendRat = alloc.backendRat ∧
        next.freeRegisters.length + 1 = alloc.freeRegisters.length := by
  cases free : alloc.freeRegisters with
  | nil =>
      rw [free] at room
      cases room
  | cons phys others =>
      have inside := renamed.front_free free
      have isFree : phys ∈ alloc.freeRegisters := by
        rw [free]
        exact List.mem_cons_self
      refine ⟨phys, { alloc with
        freeRegisters := others
        frontendRat := Function.update alloc.frontendRat reg (some phys)
        physicalRegisterFile := alloc.physicalRegisterFile.set phys
          { archRegIndex := reg, producingInstructionId := id, valid := false, busy := true } },
        ?_, ⟨?_, ?_, ?_, ?_, ?_, renamed.unwritten⟩, rfl, rfl⟩
      · unfold renameDestRegister writeFile
        rw [free]
        dsimp only
        rw [if_pos arch, if_pos inside]
        rfl
      · apply List.Perm.trans ?_ renamed.placed
        unfold registers Write.versions
        rw [List.map_append, free]
        exact Versions.items_append _ _ _ _ reg phys
      · rw [List.length_set]
        exact renamed.sized
      · intro other
        change Function.update alloc.frontendRat reg (some phys) other =
          Versions.latest alloc.backendRat _ other
        unfold Write.versions
        rw [List.map_append, List.map_singleton]
        rw [show Write.version { producer := id, reg, phys, completed := false } = (reg, phys)
          from rfl, Versions.latest_append]
        by_cases mine : reg = other
        · rw [if_pos mine, mine, Function.update_self]
        · rw [if_neg mine, Function.update_of_ne (fun same => mine same.symm)]
          exact renamed.frontend other
      · intro other held holds
        obtain ⟨known, entry, present, kept⟩ := renamed.committed other held holds
        refine ⟨known, entry, ?_, kept⟩
        rw [renamed.file_unchanged isFree (Or.inl (renamed.committed_held holds))]
        exact present
      · intro write member
        rcases List.mem_append.mp member with older | newest
        · obtain ⟨known, entry, present, kept⟩ := renamed.pending write older
          refine ⟨known, entry, ?_, kept⟩
          rw [renamed.file_unchanged isFree (Or.inr (pending_held older))]
          exact present
        · rw [List.mem_singleton.mp newest]
          refine ⟨arch, _, List.getElem?_set_self inside, rfl, rfl, ?_⟩
          intro valid
          cases valid

/-- A register with a version keeps its committed one while a source is renamed. -/
structure KeepsVersions (alloc next : RegisterAllocator) : Prop where
  frontend : ∀ reg, alloc.frontendRat reg ≠ none → next.frontendRat reg = alloc.frontendRat reg
  backend : ∀ reg, alloc.frontendRat reg ≠ none → next.backendRat reg = alloc.backendRat reg

theorem KeepsVersions.refl (alloc : RegisterAllocator) : KeepsVersions alloc alloc :=
  ⟨fun _ _ => rfl, fun _ _ => rfl⟩

theorem KeepsVersions.trans {first second third : RegisterAllocator}
    (one : KeepsVersions first second) (two : KeepsVersions second third) :
    KeepsVersions first third := by
  constructor
  · intro reg mapped
    have still : second.frontendRat reg ≠ none := by
      rw [one.frontend reg mapped]
      exact mapped
    exact (two.frontend reg still).trans (one.frontend reg mapped)
  · intro reg mapped
    have still : second.frontendRat reg ≠ none := by
      rw [one.frontend reg mapped]
      exact mapped
    exact (two.backend reg still).trans (one.backend reg mapped)

/-- Without a version a register has neither a committed nor a pending one. -/
theorem unmapped (renamed : Renamed size owner writes alloc) {reg : Nat}
    (absent : alloc.frontendRat reg = none) {before : List (Nat × Nat)}
    (among : before ⊆ Write.versions writes) : alloc.latest before reg = none := by
  rw [renamed.frontend reg] at absent
  obtain ⟨uncommitted, noWrite⟩ := (Versions.latest_eq_none _ _ _).mp absent
  apply (Versions.latest_eq_none _ _ _).mpr
  refine ⟨uncommitted, ?_⟩
  apply List.eq_nil_iff_forall_not_mem.mpr
  intro phys member
  have present : phys ∈ Versions.ofKey (Write.versions writes) reg :=
    (Versions.ofKey_mem _ _ _).mpr (among ((Versions.ofKey_mem _ _ _).mp member))
  rw [noWrite] at present
  cases present

/-- A version that a read has found is found again while versions are kept. -/
theorem latest_kept (renamed : Renamed size owner writes alloc) {next : RegisterAllocator}
    (keeps : KeepsVersions alloc next) {before : List (Nat × Nat)}
    (among : before ⊆ Write.versions writes) {reg phys : Nat} (found : alloc.latest before reg = some phys) :
    next.latest before reg = some phys := by
  have mapped : alloc.frontendRat reg ≠ none := by
    intro absent
    rw [renamed.unmapped absent among] at found
    cases found
  unfold latest Versions.latest at found ⊢
  rw [keeps.backend reg mapped]
  exact found

theorem unmapped_latest (renamed : Renamed size owner writes alloc) {reg : Nat}
    (unmapped : alloc.frontendRat reg = none) :
    Versions.latest alloc.backendRat (Write.versions writes) reg = none :=
  (renamed.frontend reg).symm.trans unmapped

/-- The allocator when a register without a version has taken a free one. -/
def adopted (alloc : RegisterAllocator) (reg phys : Nat) (others : List Nat) : RegisterAllocator :=
  { alloc with
    freeRegisters := others
    frontendRat := Function.update alloc.frontendRat reg (some phys)
    backendRat := Function.update alloc.backendRat reg (some phys)
    physicalRegisterFile := alloc.physicalRegisterFile.set phys
      { archRegIndex := reg, producingInstructionId := 0, valid := true, busy := true } }

theorem adopted_latest (renamed : Renamed size owner writes alloc) {reg phys : Nat}
    (others : List Nat) (unmapped : alloc.frontendRat reg = none) (other : Nat) :
    (adopted alloc reg phys others).latest (Write.versions writes) other =
      if reg = other then some phys else alloc.latest (Write.versions writes) other :=
  Versions.latest_adopt _ _ reg phys (renamed.unmapped_latest unmapped) other

/-- A free register becomes the committed version of a register without one. -/
theorem adopt (renamed : Renamed size owner writes alloc) {reg phys : Nat} {others : List Nat}
    (arch : reg < numArchRegisters) (unmapped : alloc.frontendRat reg = none)
    (free : alloc.freeRegisters = phys :: others) :
    Renamed size owner writes (adopted alloc reg phys others) := by
  have inside := renamed.front_free free
  have isFree : phys ∈ alloc.freeRegisters := by
    rw [free]
    exact List.mem_cons_self
  have uncommitted := ((Versions.latest_eq_none _ _ _).mp (renamed.unmapped_latest unmapped)).1
  constructor
  · apply List.Perm.trans ?_ renamed.placed
    unfold registers adopted
    rw [free]
    exact Versions.items_adopt archRegisters List.nodup_range others _ _ reg
      (List.mem_range.mpr arch) uncommitted phys
  · unfold adopted
    dsimp only
    rw [List.length_set]
    exact renamed.sized
  · intro other
    rw [renamed.adopted_latest others unmapped]
    unfold adopted
    dsimp only
    by_cases mine : reg = other
    · rw [if_pos mine, mine, Function.update_self]
    · rw [if_neg mine, Function.update_of_ne (fun same => mine same.symm)]
      exact renamed.frontend other
  · intro other held holds
    unfold adopted at holds ⊢
    dsimp only at holds ⊢
    by_cases mine : other = reg
    · subst mine
      rw [Function.update_self] at holds
      cases holds
      refine ⟨arch, _, List.getElem?_set_self inside, rfl, ?_⟩
      rw [renamed.unwritten other uncommitted]
      rfl
    · rw [Function.update_of_ne mine] at holds
      obtain ⟨known, entry, present, kept⟩ := renamed.committed other held holds
      refine ⟨known, entry, ?_, kept⟩
      rw [renamed.file_unchanged isFree (Or.inl (renamed.committed_held holds))]
      exact present
  · intro write member
    obtain ⟨known, entry, present, kept⟩ := renamed.pending write member
    refine ⟨known, entry, ?_, kept⟩
    unfold adopted
    dsimp only
    rw [renamed.file_unchanged isFree (Or.inr (pending_held member))]
    exact present
  · intro other absent
    unfold adopted at absent
    dsimp only at absent
    by_cases mine : other = reg
    · rw [mine, Function.update_self] at absent
      cases absent
    · rw [Function.update_of_ne mine] at absent
      exact renamed.unwritten other absent

/-- A source finds its version, or takes a free register as a committed one. -/
theorem renameSrcRegister_renames (renamed : Renamed size owner writes alloc) (reg : Nat)
    (arch : reg < numArchRegisters)
    (room : alloc.frontendRat reg = none → 0 < alloc.freeRegisters.length) :
    ∃ phys next, alloc.renameSrcRegister reg = some (phys, next) ∧
      Renamed size owner writes next ∧
        next.latest (Write.versions writes) reg = some phys ∧
        KeepsVersions alloc next ∧ alloc.freeRegisters.length ≤ next.freeRegisters.length +
          (if alloc.frontendRat reg = none then 1 else 0) := by
  unfold renameSrcRegister
  rw [if_pos arch]
  cases mapping : alloc.frontendRat reg with
  | some phys =>
      refine ⟨phys, alloc, rfl, renamed, ?_, KeepsVersions.refl alloc, ?_⟩
      · rw [← renamed.frontend reg]
        exact mapping
      · exact Nat.le_add_right _ _
  | none =>
      cases free : alloc.freeRegisters with
      | nil =>
          have positive := room mapping
          rw [free] at positive
          cases positive
      | cons phys others =>
          have another : ∀ other, alloc.frontendRat other ≠ none → other ≠ reg := by
            intro other mapped same
            rw [same] at mapped
            exact mapped mapping
          refine ⟨phys, adopted alloc reg phys others, ?_, renamed.adopt arch mapping free, ?_,
            ⟨?_, ?_⟩, ?_⟩
          · unfold writeFile
            dsimp only
            rw [if_pos (renamed.front_free free)]
            rfl
          · exact (renamed.adopted_latest others mapping reg).trans (if_pos rfl)
          · intro other mapped
            exact Function.update_of_ne (another other mapped) _ _
          · intro other mapped
            exact Function.update_of_ne (another other mapped) _ _
          · rw [if_pos rfl, List.length_cons]
            exact Nat.le_refl _

/-! ### Completion -/

theorem mark {front mine back : List Write} (change : Write → Write)
    (renamed : Renamed size owner (front ++ mine ++ back) alloc)
    (same : ∀ write, (change write).producer = write.producer ∧
      (change write).version = write.version)
    (done : ∀ write, (change write).completed = true) :
    Renamed size owner (front ++ mine.map change ++ back) alloc := by
  have versions : Write.versions (front ++ mine.map change ++ back) =
      Write.versions (front ++ mine ++ back) := by
    unfold Write.versions
    rw [List.map_append, List.map_append, List.map_append, List.map_append, List.map_map]
    have mapped : mine.map (Write.version ∘ change) = mine.map Write.version :=
      List.map_congr_left (fun write _member => (same write).2)
    rw [mapped]
  refine ⟨?_, renamed.sized, ?_, renamed.committed, ?_, renamed.unwritten⟩
  · unfold registers
    rw [versions]
    exact renamed.placed
  · intro reg
    unfold latest
    rw [versions]
    exact renamed.frontend reg
  · intro write member
    rcases List.mem_append.mp member with earlier | inBack
    · rcases List.mem_append.mp earlier with inFront | inMine
      · exact renamed.pending write
          (List.mem_append_left _ (List.mem_append_left _ inFront))
      · obtain ⟨older, among, isChanged⟩ := List.mem_map.mp inMine
        subst isChanged
        obtain ⟨known, entry, present, arch, producer, _valid⟩ := renamed.pending older
          (List.mem_append_left _ (List.mem_append_right _ among))
        have reg : (change older).reg = older.reg := congrArg Prod.fst (same older).2
        have phys : (change older).phys = older.phys := congrArg Prod.snd (same older).2
        rw [reg, phys, (same older).1]
        exact ⟨known, entry, present, arch, producer, fun _ => done older⟩
    · exact renamed.pending write (List.mem_append_right _ inBack)

theorem completeDestRegister_renames (renamed : Renamed size owner writes alloc) (phys : Nat)
    (held : phys ∈ (Write.versions writes).map Prod.snd)
    (complete : ∀ write ∈ writes, write.phys = phys → write.completed = true) :
    ∃ next, alloc.completeDestRegister phys = some next ∧ Renamed size owner writes next ∧
      next.backendRat = alloc.backendRat := by
  have inside := renamed.held_within (Or.inr held)
  have present : alloc.physicalRegisterFile[phys]? =
      some (alloc.physicalRegisterFile[phys]) := List.getElem?_eq_getElem inside
  generalize alloc.physicalRegisterFile[phys] = register at present
  have changed : ∀ other entry, alloc.physicalRegisterFile[other]? = some entry →
      ∃ after, (alloc.physicalRegisterFile.set phys { register with valid := true })[other]? =
        some after ∧ after.archRegIndex = entry.archRegIndex ∧
          after.producingInstructionId = entry.producingInstructionId ∧
            (phys ≠ other → after.valid = entry.valid) := by
    intro other entry there
    by_cases mine : phys = other
    · subst mine
      rw [present] at there
      cases there
      exact ⟨_, List.getElem?_set_self inside, rfl, rfl, fun different => absurd rfl different⟩
    · refine ⟨entry, ?_, rfl, rfl, fun _ => rfl⟩
      rw [List.getElem?_set_ne mine]
      exact there
  refine ⟨{ alloc with
    physicalRegisterFile := alloc.physicalRegisterFile.set phys { register with valid := true } },
    ?_, ⟨renamed.placed, ?_, renamed.frontend, ?_, ?_, renamed.unwritten⟩, rfl⟩
  · unfold completeDestRegister writeFile
    rw [present, Option.bind_some, if_pos inside]
  · rw [List.length_set]
    exact renamed.sized
  · intro reg holder holds
    obtain ⟨known, entry, there, arch, producer⟩ := renamed.committed reg holder holds
    obtain ⟨after, now, sameArch, sameProducer, _valid⟩ := changed holder entry there
    exact ⟨known, after, now, sameArch.trans arch, sameProducer.trans producer⟩
  · intro write member
    obtain ⟨known, entry, there, arch, producer, valid⟩ := renamed.pending write member
    obtain ⟨after, now, sameArch, sameProducer, sameValid⟩ := changed write.phys entry there
    refine ⟨known, after, now, sameArch.trans arch, sameProducer.trans producer, ?_⟩
    intro isValid
    by_cases mine : phys = write.phys
    · exact complete write member mine.symm
    · rw [sameValid mine] at isValid
      exact valid isValid

/-! ### Retirement -/

/-- The oldest pending version becomes the committed one; the file changes in the
version it replaces only. -/
theorem commit {write : Write} {rest : List Write}
    (renamed : Renamed size owner (write :: rest) alloc) (file : List PhysicalRegister)
    (unchanged : ∀ holder, holder ∉ (alloc.backendRat write.reg).toList →
      file[holder]? = alloc.physicalRegisterFile[holder]?)
    (sized : file.length = size) :
    Renamed size (Function.update owner write.reg (some write.producer)) rest
      { alloc with
        freeRegisters := alloc.freeRegisters ++ (alloc.backendRat write.reg).toList
        backendRat := Function.update alloc.backendRat write.reg (some write.phys)
        physicalRegisterFile := file } := by
  obtain ⟨known, entry, present, arch, producer, _valid⟩ :=
    renamed.pending write List.mem_cons_self
  have commits : ∀ reg, Versions.latest (Function.update alloc.backendRat write.reg
      (some write.phys)) (Write.versions rest) reg = alloc.latest (Write.versions (write :: rest)) reg :=
    Versions.latest_commit alloc.backendRat (Write.versions rest) write.reg write.phys
  have placed : (Versions.items archRegisters
      (alloc.freeRegisters ++ (alloc.backendRat write.reg).toList)
      (Function.update alloc.backendRat write.reg (some write.phys))
        (Write.versions rest)).Perm (List.range size) :=
    (Versions.items_commit archRegisters List.nodup_range _ _ _ write.reg
      (List.mem_range.mpr known) write.phys).trans renamed.placed
  have distinct := placed.nodup_iff.mpr List.nodup_range
  unfold Versions.items at distinct
  rw [List.append_assoc, List.nodup_append] at distinct
  have apart : ∀ holder, holder ∈ archRegisters.filterMap
      (Function.update alloc.backendRat write.reg (some write.phys)) ∨
        holder ∈ (Write.versions rest).map Prod.snd →
          file[holder]? = alloc.physicalRegisterFile[holder]? := by
    intro holder held
    apply unchanged
    intro freed
    exact distinct.2.2 holder (List.mem_append_right _ freed) holder
      (List.mem_append.mpr held) rfl
  refine ⟨placed, sized, ?_, ?_, ?_, ?_⟩
  · intro reg
    exact (renamed.frontend reg).trans (commits reg).symm
  · intro reg phys holds
    have isArch : reg < numArchRegisters := by
      by_cases mine : reg = write.reg
      · rw [mine]
        exact known
      · have old := holds
        change Function.update alloc.backendRat write.reg (some write.phys) reg = _ at old
        rw [Function.update_of_ne mine] at old
        exact (renamed.committed reg phys old).1
    have same := apart phys (Or.inl (List.mem_filterMap.mpr
      ⟨reg, List.mem_range.mpr isArch, holds⟩))
    refine ⟨isArch, ?_⟩
    by_cases mine : reg = write.reg
    · subst mine
      change Function.update alloc.backendRat write.reg (some write.phys) write.reg = _ at holds
      rw [Function.update_self] at holds
      cases holds
      refine ⟨entry, same.trans present, arch, ?_⟩
      rw [Function.update_self]
      exact producer
    · change Function.update alloc.backendRat write.reg (some write.phys) reg = _ at holds
      rw [Function.update_of_ne mine] at holds
      obtain ⟨_known, older, there, kept⟩ := renamed.committed reg phys holds
      rw [Function.update_of_ne mine]
      exact ⟨older, same.trans there, kept⟩
  · intro other member
    obtain ⟨isArch, older, there, kept⟩ :=
      renamed.pending other (List.mem_cons_of_mem write member)
    exact ⟨isArch, older, (apart other.phys (Or.inr (pending_held member))).trans there, kept⟩
  · intro reg absent
    by_cases mine : reg = write.reg
    · subst mine
      change Function.update alloc.backendRat write.reg (some write.phys) write.reg = _ at absent
      rw [Function.update_self] at absent
      cases absent
    · change Function.update alloc.backendRat write.reg (some write.phys) reg = _ at absent
      rw [Function.update_of_ne mine] at absent ⊢
      exact renamed.unwritten reg absent

/-- The oldest write is committed, and the version before it becomes free. -/
theorem retireDestRegister_renames {write : Write} {rest : List Write}
    (renamed : Renamed size owner (write :: rest) alloc) :
    ∃ next, alloc.retireDestRegister write.phys = some next ∧
      Renamed size (Function.update owner write.reg (some write.producer)) rest next ∧
      next.backendRat = Function.update alloc.backendRat write.reg (some write.phys) ∧
        next.freeRegisters = alloc.freeRegisters ++ (alloc.backendRat write.reg).toList := by
  obtain ⟨known, entry, present, arch, -⟩ := renamed.pending write List.mem_cons_self
  have committed := renamed.commit
  unfold retireDestRegister
  rw [present, Option.bind_some, arch, if_pos known]
  dsimp only
  cases old : alloc.backendRat write.reg with
  | none =>
      rw [old] at committed
      have kept := committed alloc.physicalRegisterFile (fun _ _ => rfl) renamed.sized
      have unfreed : alloc.freeRegisters ++ (none : Option Nat).toList = alloc.freeRegisters :=
        List.append_nil _
      rw [unfreed] at kept ⊢
      exact ⟨_, rfl, kept, rfl, rfl⟩
  | some older =>
      rw [old] at committed
      have inside := renamed.held_within (Or.inl (renamed.committed_held old))
      have kept := committed (alloc.physicalRegisterFile.set older
        { archRegIndex := 255, producingInstructionId := 0, valid := false, busy := false })
        (by
          intro holder apart
          have different : older ≠ holder := by
            intro same
            exact apart (Option.mem_toList.mpr (congrArg some same))
          exact List.getElem?_set_ne different)
        (by
          rw [List.length_set]
          exact renamed.sized)
      refine ⟨_, ?_, kept, rfl, rfl⟩
      unfold freeRegister writeFile
      dsimp only
      rw [if_pos inside]
      rfl

end Renamed

end RegisterAllocator

end ChampSim.Core
