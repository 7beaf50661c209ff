/-
The perceptron predictor as the core drives it: a prediction for every
instruction, and directly after it the outcome when the instruction is a
branch.

A prediction shifts the speculative history, an outcome the real one, and the
two are only brought together by an outcome that was not predicted.
-/

import ChampSim.Core.Frontend
import ChampSim.Library.CArray
import ChampSim.Library.ShiftRegister
import ChampSim.Msl.Fwcounter

set_option autoImplicit false

namespace ChampSim.Branch

open ChampSim.Core
open Msl
open ShiftRegister (push)

structure InternalPerceptron (histLen bits : Nat) where
  bias : Sfwcounter bits
  weights : CArray histLen (Sfwcounter bits)

namespace InternalPerceptron

variable {histLen bits : Nat}

instance : Inhabited (InternalPerceptron histLen bits) := ⟨⟨default, default⟩⟩

/-- The dot product of the history and the weights, from the bias on. -/
def predict (perceptron : InternalPerceptron histLen bits) (history : BitVec histLen) : Int :=
  (List.finRange histLen).foldl (fun output (index : Fin histLen) =>
    if history.getLsbD index.val then output + (perceptron.weights.cells index).value
    else output - (perceptron.weights.cells index).value) perceptron.bias.value

def update (perceptron : InternalPerceptron histLen bits) (result : Bool)
    (history : BitVec histLen) : InternalPerceptron histLen bits :=
  let updMask := if result then history else ~~~history
  { bias := perceptron.bias.addAssign (if result then 1 else -1)
    weights := ⟨fun index =>
      (perceptron.weights.cells index).addAssign (if updMask.getLsbD index.val then 1 else -1)⟩ }

end InternalPerceptron

structure PerceptronState where
  ip : Address
  prediction : Bool
  output : Int
  history : BitVec 24

structure Perceptron where
  perceptrons : CArray 163 (InternalPerceptron 24 8)
  perceptronStateBuf : List PerceptronState
  specGlobalHistory : BitVec 24
  globalHistory : BitVec 24

namespace Perceptron

def perceptronHistory : Nat := 24

def numPerceptrons : Nat := 163

def numUpdateEntries : Nat := 100

/-- `std::lround(1.93 * PERCEPTRON_HISTORY + 14)`. -/
def theta : Int := (193 * perceptronHistory + 14 * 100 + 50) / 100

def initial : Perceptron := ⟨default, [], 0, 0⟩

def index (ip : Address) : Int := (ip.toNat % numPerceptrons : Nat)

def savedState (state : Perceptron) (ip : Address) : PerceptronState where
  ip := ip
  prediction :=
    decide (0 ≤ (state.perceptrons.get (index ip)).predict state.specGlobalHistory)
  output := (state.perceptrons.get (index ip)).predict state.specGlobalHistory
  history := state.specGlobalHistory

/-- The buffer with an entry more, without its oldest when there are too many. -/
def pushState (buf : List PerceptronState) (saved : PerceptronState) : List PerceptronState :=
  if numUpdateEntries < (buf ++ [saved]).length then (buf ++ [saved]).tail else buf ++ [saved]

def predictBranch (state : Perceptron) (ip : Address) : Bool × Perceptron :=
  let saved := state.savedState ip
  (saved.prediction,
    { state with
      perceptronStateBuf := pushState state.perceptronStateBuf saved
      specGlobalHistory := push state.specGlobalHistory saved.prediction })

/-- The weights after an outcome, with the record that was saved for it. -/
def train (state : Perceptron) (saved : PerceptronState) (ip : Address) (taken : Bool) :
    CArray 163 (InternalPerceptron 24 8) :=
  if (saved.output ≤ theta ∧ -theta ≤ saved.output) ∨ saved.prediction ≠ taken then
    state.perceptrons.set (index ip)
      ((state.perceptrons.get (index ip)).update taken saved.history)
  else state.perceptrons

def lastBranchResult (state : Perceptron) (ip : Address) (taken : Bool) : Perceptron :=
  match state.perceptronStateBuf.find? (fun saved => saved.ip == ip) with
  | none => state
  | some saved =>
      let globalHistory := push state.globalHistory taken
      { perceptrons := state.train saved ip taken
        perceptronStateBuf := state.perceptronStateBuf.eraseP (fun saved => saved.ip == ip)
        specGlobalHistory :=
          if saved.prediction ≠ taken then globalHistory else state.specGlobalHistory
        globalHistory := globalHistory }

def fetch (state : Perceptron) (archInstr : OooModelInstr) : Perceptron :=
  let predicted := (state.predictBranch archInstr.ip).2
  if archInstr.isBranch then predicted.lastBranchResult archInstr.ip archInstr.branchTaken
  else predicted

def run (stream : List OooModelInstr) : Perceptron := stream.foldl fetch initial

theorem run_snoc (stream : List OooModelInstr) (last : OooModelInstr) :
    run (stream ++ [last]) = (run stream).fetch last := by
  unfold run
  rw [List.foldl_append]
  rfl

/-! ### The core as the driver -/

/-- The modules of a core among which the perceptron predicts the direction. -/
structure Drives {Module : Type} (hooks : CoreModules Module) (project : Module → Perceptron) :
    Prop where
  predicts : ∀ modules ip target alwaysTaken branch,
    project (hooks.predictBranch modules ip target alwaysTaken branch).2 =
      ((project modules).predictBranch ip).2
  learns : ∀ modules ip target taken branch,
    project (hooks.lastBranchResult modules ip target taken branch) =
      (project modules).lastBranchResult ip taken
  btb : ∀ modules ip branch, project (hooks.btbPrediction modules ip branch).2 = project modules
  btbUpdate : ∀ modules ip target taken branch,
    project (hooks.updateBtb modules ip target taken branch) = project modules
  prefetcher : ∀ modules ip branch target,
    project (hooks.prefetcherBranchOperate modules ip branch target) = project modules

theorem doPredictBranch_fetch {Module : Type} {hooks : CoreModules Module}
    {project : Module → Perceptron} (drives : Drives hooks project) (state : O3Cpu Module)
    (archInstr : OooModelInstr) :
    project (state.doPredictBranch hooks archInstr).2.2.modules =
      (project state.modules).fetch archInstr := by
  unfold O3Cpu.doPredictBranch fetch
  dsimp only
  cases archInstr.isBranch with
  | false =>
      rw [if_neg Bool.false_ne_true, if_neg Bool.false_ne_true, drives.predicts, drives.btb]
  | true =>
      rw [if_pos rfl, if_pos rfl, ← drives.btb state.modules archInstr.ip archInstr.branch]
      generalize ((hooks.predictBranch _ _ _ _ _).1 || _) = branchPrediction
      generalize (if branchPrediction = true then _ else (0 : Address)) = target
      split
      · split
        · rw [drives.learns, drives.btbUpdate, drives.prefetcher, drives.predicts]
        · rw [drives.learns, drives.btbUpdate, drives.prefetcher, drives.predicts]
      · rw [drives.learns, drives.btbUpdate, drives.prefetcher, drives.predicts]

/-! ### Saved records -/

theorem pushState_shape (buf : List PerceptronState) (saved : PerceptronState) :
    ∃ kept, pushState buf saved = kept ++ [saved] ∧ ∀ earlier ∈ kept, earlier ∈ buf := by
  unfold pushState
  split
  · rename_i full
    cases buf with
    | nil => exact absurd full (show ¬numUpdateEntries < 1 by decide)
    | cons oldest rest => exact ⟨rest, rfl, fun earlier => List.mem_cons_of_mem oldest⟩
  · exact ⟨buf, rfl, fun earlier member => member⟩

/-- No record that is saved is for this instruction pointer. -/
def Unsaved (state : Perceptron) (ip : Address) : Prop :=
  ∀ saved ∈ state.perceptronStateBuf, saved.ip ≠ ip

/-- An outcome finds the record of its own prediction when no other has its pointer. -/
theorem find_own {state : Perceptron} {ip : Address} (unsaved : Unsaved state ip) :
    ∃ kept, (pushState state.perceptronStateBuf (state.savedState ip)).find?
        (fun saved => saved.ip == ip) = some (state.savedState ip) ∧
      (pushState state.perceptronStateBuf (state.savedState ip)).eraseP
        (fun saved => saved.ip == ip) = kept ∧
      ∀ earlier ∈ kept, earlier ∈ state.perceptronStateBuf := by
  obtain ⟨kept, shape, among⟩ := pushState_shape state.perceptronStateBuf (state.savedState ip)
  have others : ∀ saved ∈ kept, ¬(saved.ip == ip) = true := by
    intro saved member same
    exact unsaved saved (among saved member) (beq_iff_eq.mp same)
  have own : ((state.savedState ip).ip == ip) = true := beq_self_eq_true ip
  refine ⟨kept, ?_, ?_, among⟩
  · rw [shape, List.find?_append, List.find?_eq_none.mpr others, Option.none_or,
      List.find?_singleton, if_pos own]
  · rw [shape, List.eraseP_append_right _ others, List.eraseP_cons, own, cond_true,
      List.append_nil]

theorem fetch_own {state : Perceptron} {archInstr : OooModelInstr}
    (isBranch : archInstr.isBranch = true) (unsaved : Unsaved state archInstr.ip) :
    let saved := state.savedState archInstr.ip
    let after := state.fetch archInstr
    after.perceptrons = state.train saved archInstr.ip archInstr.branchTaken ∧
      after.globalHistory = push state.globalHistory archInstr.branchTaken ∧
      after.specGlobalHistory =
        push (if saved.prediction ≠ archInstr.branchTaken then state.globalHistory
          else state.specGlobalHistory) archInstr.branchTaken ∧
      ∀ earlier ∈ after.perceptronStateBuf, earlier ∈ state.perceptronStateBuf := by
  obtain ⟨kept, found, erased, among⟩ := find_own unsaved
  unfold fetch lastBranchResult predictBranch
  dsimp only
  rw [if_pos isBranch, found]
  dsimp only
  refine ⟨rfl, rfl, ?_, ?_⟩
  · split
    · rfl
    · rename_i predicted
      rw [Decidable.not_not.mp predicted]
  · rw [erased]
    exact among

theorem fetch_saved (state : Perceptron) (archInstr : OooModelInstr) :
    ∀ saved ∈ (state.fetch archInstr).perceptronStateBuf,
      saved ∈ state.perceptronStateBuf ∨ saved = state.savedState archInstr.ip := by
  obtain ⟨kept, shape, among⟩ :=
    pushState_shape state.perceptronStateBuf (state.savedState archInstr.ip)
  have pushed : ∀ saved ∈ pushState state.perceptronStateBuf (state.savedState archInstr.ip),
      saved ∈ state.perceptronStateBuf ∨ saved = state.savedState archInstr.ip := by
    intro saved member
    rw [shape, List.mem_append, List.mem_singleton] at member
    exact member.imp_left (among saved)
  intro saved member
  unfold fetch lastBranchResult predictBranch at member
  dsimp only at member
  split at member
  · split at member
    · exact pushed saved member
    · exact pushed saved (List.mem_of_mem_eraseP member)
  · exact pushed saved member

/-- A record that stays was saved for an instruction pointer of a non-branch. -/
theorem run_saved (stream : List OooModelInstr) :
    ∀ saved ∈ (run stream).perceptronStateBuf,
      ∃ earlier ∈ stream, earlier.isBranch = false ∧ earlier.ip = saved.ip := by
  induction stream using List.reverseRecOn with
  | nil =>
      intro saved absent
      cases absent
  | append_singleton stream last ih =>
      intro saved member
      rw [run_snoc] at member
      have older : saved ∈ (run stream).perceptronStateBuf →
          ∃ earlier ∈ stream ++ [last], earlier.isBranch = false ∧ earlier.ip = saved.ip := by
        intro present
        obtain ⟨earlier, among, kind, same⟩ := ih saved present
        exact ⟨earlier, List.mem_append_left [last] among, kind, same⟩
      rcases fetch_saved (run stream) last saved member with present | own
      · exact older present
      · have same : last.ip = saved.ip := by rw [own]; rfl
        by_cases unsaved : Unsaved (run stream) last.ip
        · cases kind : last.isBranch with
          | false => exact ⟨last, List.mem_append_right stream List.mem_cons_self, kind, same⟩
          | true => exact older ((fetch_own kind unsaved).2.2.2 saved member)
        · unfold Unsaved at unsaved
          push Not at unsaved
          obtain ⟨other, present, sameOther⟩ := unsaved
          obtain ⟨earlier, among, kind, sameEarlier⟩ := ih other present
          exact ⟨earlier, List.mem_append_left [last] among, kind,
            sameEarlier.trans (sameOther.trans same)⟩

/-! ### Histories -/

def Agrees (state : Perceptron) : Prop := state.specGlobalHistory = state.globalHistory

instance (state : Perceptron) : Decidable (Agrees state) :=
  inferInstanceAs (Decidable (state.specGlobalHistory = state.globalHistory))

theorem agrees_after_own {state : Perceptron} {archInstr : OooModelInstr}
    (isBranch : archInstr.isBranch = true) (unsaved : Unsaved state archInstr.ip) :
    Agrees (state.fetch archInstr) ↔
      (state.savedState archInstr.ip).prediction ≠ archInstr.branchTaken ∨
        ∀ age, age + 1 < 24 →
          state.specGlobalHistory.getLsbD age = state.globalHistory.getLsbD age := by
  obtain ⟨_trained, global, spec, _saved⟩ := fetch_own isBranch unsaved
  unfold Agrees
  rw [global, spec]
  split
  · rename_i mispredicted
    exact ⟨fun _ => Or.inl mispredicted, fun _ => rfl⟩
  · rename_i predicted
    rw [ShiftRegister.push_eq_iff]
    exact ⟨Or.inr, fun either => either.resolve_left predicted⟩

/-- Where every earlier fetch of an instruction pointer was a branch, no record waits for it. -/
theorem run_unsaved {stream : List OooModelInstr} {ip : Address}
    (steady : ∀ other ∈ stream, other.isBranch = false → other.ip ≠ ip) :
    Unsaved (run stream) ip := by
  intro saved member same
  obtain ⟨earlier, among, kind, sameEarlier⟩ := run_saved stream saved member
  exact steady earlier among kind (sameEarlier.trans same)

theorem agrees_after_branches (stream since : List OooModelInstr)
    (steady : ∀ other ∈ stream ++ since, other.isBranch = false →
      ∀ branch ∈ since, branch.isBranch = true → other.ip ≠ branch.ip)
    (branches : ∀ other ∈ since, other.isBranch = true) (agrees : Agrees (run stream)) :
    Agrees (run (stream ++ since)) := by
  induction since using List.reverseRecOn with
  | nil =>
      rw [List.append_nil]
      exact agrees
  | append_singleton since last ih =>
      have isLast : last ∈ since ++ [last] := List.mem_append_right since List.mem_cons_self
      have within : ∀ other ∈ stream ++ since, other ∈ stream ++ (since ++ [last]) := by
        intro other member
        rw [← List.append_assoc]
        exact List.mem_append_left [last] member
      have before := ih
        (fun other member kind branch among =>
          steady other (within other member) kind branch (List.mem_append_left [last] among))
        (fun other member => branches other (List.mem_append_left [last] member))
      have unsaved : Unsaved (run (stream ++ since)) last.ip :=
        run_unsaved (fun other member kind =>
          steady other (within other member) kind last isLast (branches last isLast))
      rw [← List.append_assoc, run_snoc]
      apply (agrees_after_own (branches last isLast) unsaved).mpr
      apply Or.inr
      intro age _within
      rw [show (run (stream ++ since)).specGlobalHistory = _ from before]

/-- After the outcome of a branch whose instruction pointer no non-branch had: the weights learn
from the record that its own prediction saved, and the histories agree just when the branch was
mispredicted or they agreed before but for the oldest bit. So they stay together from one
agreement on while branches follow. -/
theorem run_result (stream since : List OooModelInstr) (last : OooModelInstr)
    (isBranch : last.isBranch = true)
    (steady : ∀ other ∈ stream ++ since, other.isBranch = false →
      ∀ branch ∈ since ++ [last], branch.isBranch = true → other.ip ≠ branch.ip) :
    let before := run (stream ++ since)
    let after := run (stream ++ since ++ [last])
    after.perceptrons = before.train (before.savedState last.ip) last.ip last.branchTaken ∧
      (Agrees after ↔ (before.savedState last.ip).prediction ≠ last.branchTaken ∨
        ∀ age, age + 1 < 24 →
          before.specGlobalHistory.getLsbD age = before.globalHistory.getLsbD age) ∧
      ((∀ other ∈ since, other.isBranch = true) → Agrees (run stream) → Agrees after) := by
  have isLast : last ∈ since ++ [last] := List.mem_append_right since List.mem_cons_self
  have unsaved : Unsaved (run (stream ++ since)) last.ip :=
    run_unsaved (fun other member kind => steady other member kind last isLast isBranch)
  dsimp only
  rw [run_snoc]
  refine ⟨(fetch_own isBranch unsaved).1, agrees_after_own isBranch unsaved, ?_⟩
  intro branches agrees
  rw [← run_snoc, List.append_assoc]
  have all : ∀ other ∈ since ++ [last], other.isBranch = true := by
    intro other member
    rcases List.mem_append.mp member with earlier | final
    · exact branches other earlier
    · rw [List.mem_singleton.mp final]
      exact isBranch
  apply agrees_after_branches stream (since ++ [last]) _ all agrees
  intro other member kind
  rw [← List.append_assoc] at member
  rcases List.mem_append.mp member with earlier | final
  · exact steady other earlier kind
  · rw [List.mem_singleton.mp final, isBranch] at kind
    cases kind

/-- A non-branch and a branch elsewhere, and a branch of the same instruction pointer. -/
theorem fetch_after_nonbranch :
    ¬Agrees (run [{ instrId := 0, ip := 0x400000 },
      { instrId := 1, ip := 0x400004, isBranch := true, branchTaken := true }]) ∧
    (run [{ instrId := 0, ip := 0x400000 },
      { instrId := 1, ip := 0x400000, isBranch := true, branchTaken := true }]).perceptrons ≠
      (run [{ instrId := 0, ip := 0x400000 }]).train
        ((run [{ instrId := 0, ip := 0x400000 }]).savedState 0x400000) 0x400000 true := by
  constructor
  · decide
  · intro same
    have weight := congrArg
      (fun perceptrons => (((perceptrons.get (index 0x400000)).weights.cells 0).value)) same
    revert weight
    decide

theorem run_result_branches :
    Agrees (run [{ instrId := 0, ip := 0x400000, isBranch := true, branchTaken := true },
      { instrId := 1, ip := 0x400004, isBranch := true }]) :=
  (run_result [] [{ instrId := 0, ip := 0x400000, isBranch := true, branchTaken := true }]
    { instrId := 1, ip := 0x400004, isBranch := true } rfl (by decide)).2.2 (by decide) rfl

end Perceptron

end ChampSim.Branch
