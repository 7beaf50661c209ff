/-
Decoding keeps the program order.

The three loops of decoding take the oldest instruction of the two buffers at
each turn, so what they take is a prefix of the merge.
-/

import ChampSim.Core.Order

set_option autoImplicit false

namespace ChampSim.Core

/-! ### Decoding -/

namespace Selection

/-- What is chosen of the two buffers comes before what is left of the other. -/
structure Chosen (dibHits decodes : List OooModelInstr) (inorder : Nat) (selection : Selection) :
    Prop where
  dibHits : dibHits = selection.dibHits ++ selection.dibHitsLeft
  decodes : decodes = selection.decodes ++ selection.decodesLeft
  hitFirst : ∀ hit ∈ selection.dibHits, ∀ decode ∈ selection.decodesLeft,
    hit.instrId < decode.instrId
  decodeFirst : ∀ decode ∈ selection.decodes, ∀ hit ∈ selection.dibHitsLeft,
    decode.instrId < hit.instrId
  count : selection.dibHits.length + selection.decodes.length + selection.inorder = inorder

variable {dibHits decodes : List OooModelInstr} {inorder : Nat} {selection : Selection}

theorem Chosen.takeDibHit (chosen : Chosen dibHits decodes inorder selection)
    (entry : OooModelInstr) (rest : List OooModelInstr)
    (front : selection.dibHitsLeft = entry :: rest) (bandwidth : 0 < selection.inorder)
    (first : ∀ decode ∈ selection.decodesLeft, entry.instrId < decode.instrId) :
    Chosen dibHits decodes inorder (selection.takeDibHit entry rest) := by
  refine ⟨?_, chosen.decodes, ?_, ?_, ?_⟩
  · have split := chosen.dibHits
    rw [front, List.append_cons] at split
    exact split
  · intro hit member decode among
    rcases List.mem_append.mp member with earlier | newest
    · exact chosen.hitFirst hit earlier decode among
    · rw [List.mem_singleton.mp newest]
      exact first decode among
  · intro decode member hit among
    apply chosen.decodeFirst decode member hit
    rw [front]
    exact List.mem_cons_of_mem entry among
  · have total := chosen.count
    unfold Selection.takeDibHit
    dsimp only
    rw [List.length_append, List.length_singleton]
    omega

theorem Chosen.takeDecode (chosen : Chosen dibHits decodes inorder selection)
    (entry : OooModelInstr) (rest : List OooModelInstr)
    (front : selection.decodesLeft = entry :: rest) (bandwidth : 0 < selection.inorder)
    (first : ∀ hit ∈ selection.dibHitsLeft, entry.instrId < hit.instrId) :
    Chosen dibHits decodes inorder (selection.takeDecode entry rest) := by
  refine ⟨chosen.dibHits, ?_, ?_, ?_, ?_⟩
  · have split := chosen.decodes
    rw [front, List.append_cons] at split
    exact split
  · intro hit member decode among
    apply chosen.hitFirst hit member decode
    rw [front]
    exact List.mem_cons_of_mem entry among
  · intro decode member hit among
    rcases List.mem_append.mp member with earlier | newest
    · exact chosen.decodeFirst decode earlier hit among
    · rw [List.mem_singleton.mp newest]
      exact first hit among
  · have total := chosen.count
    unfold Selection.takeDecode
    dsimp only
    rw [List.length_append, List.length_singleton]
    omega

/-- The instruction at the front of a buffer in program order is the oldest. -/
theorem before_all {instr front : OooModelInstr} {rest : List OooModelInstr}
    (sorted : (ids (front :: rest)).Pairwise (fun earlier later => earlier < later))
    (less : instr.instrId < front.instrId) :
    ∀ other ∈ front :: rest, instr.instrId < other.instrId := by
  intro other member
  rcases List.mem_cons.mp member with isFront | later
  · rw [isFront]
    exact less
  · have after := (List.pairwise_cons.mp sorted).1 other.instrId
      (List.mem_map.mpr ⟨other, later, rfl⟩)
    exact Nat.lt_trans less after

/-- Two buffers in program order that hold different instructions. -/
structure Apart (dibHits decodes : List OooModelInstr) : Prop where
  hitsSorted : (ids dibHits).Pairwise (fun earlier later => earlier < later)
  decodesSorted : (ids decodes).Pairwise (fun earlier later => earlier < later)
  differ : ∀ hit ∈ dibHits, ∀ decode ∈ decodes, hit.instrId ≠ decode.instrId

theorem Chosen.left_sorted (chosen : Chosen dibHits decodes inorder selection)
    (apart : Apart dibHits decodes) :
    (ids selection.dibHitsLeft).Pairwise (fun earlier later => earlier < later) ∧
      (ids selection.decodesLeft).Pairwise (fun earlier later => earlier < later) := by
  have hits := apart.hitsSorted
  have misses := apart.decodesSorted
  unfold ids at hits misses ⊢
  rw [chosen.dibHits, List.map_append, List.pairwise_append] at hits
  rw [chosen.decodes, List.map_append, List.pairwise_append] at misses
  exact ⟨hits.2.1, misses.2.1⟩

theorem chooseEither_chosen (time : Nat) (apart : Apart dibHits decodes) (next : Selection)
    (chosen : Chosen dibHits decodes inorder selection) (bandwidth : 0 < selection.inorder)
    (ran : selection.chooseEither time = some next) :
    Chosen dibHits decodes inorder next ∧ next.inorder + 1 = selection.inorder := by
  unfold chooseEither at ran
  split at ran
  · rename_i dibHit hits decode misses hitFront missFront
    obtain ⟨hitsSorted, missesSorted⟩ := chosen.left_sorted apart
    rw [hitFront] at hitsSorted
    rw [missFront] at missesSorted
    have differ : dibHit.instrId ≠ decode.instrId := by
      apply apart.differ
      · rw [chosen.dibHits, hitFront]
        exact List.mem_append_right _ List.mem_cons_self
      · rw [chosen.decodes, missFront]
        exact List.mem_append_right _ List.mem_cons_self
    generalize (if decode.programOrder dibHit = true then decode else dibHit) = oldest at ran
    split at ran
    · split at ran
      · rename_i older
        cases ran
        refine ⟨chosen.takeDibHit dibHit hits hitFront bandwidth ?_, Nat.sub_add_cancel bandwidth⟩
        rw [missFront]
        exact before_all missesSorted (of_decide_eq_true older)
      · rename_i younger
        cases ran
        refine ⟨chosen.takeDecode decode misses missFront bandwidth ?_,
          Nat.sub_add_cancel bandwidth⟩
        rw [hitFront]
        apply before_all hitsSorted
        have notLess : ¬dibHit.instrId < decode.instrId :=
          fun less => younger (decide_eq_true less)
        omega
    · cases ran
  · cases ran

theorem chooseDibHit_chosen (time : Nat) (apart : Apart dibHits decodes) (next : Selection)
    (chosen : Chosen dibHits decodes inorder selection) (bandwidth : 0 < selection.inorder)
    (ran : selection.chooseDibHit time = some next) :
    Chosen dibHits decodes inorder next ∧ next.inorder + 1 = selection.inorder := by
  unfold chooseDibHit at ran
  split at ran
  · rename_i dibHit hits hitFront
    split at ran
    · rename_i allowed
      cases ran
      refine ⟨chosen.takeDibHit dibHit hits hitFront bandwidth ?_, Nat.sub_add_cancel bandwidth⟩
      have older := (Bool.and_eq_true _ _ ▸ allowed).2
      have sorted := (chosen.left_sorted apart).2
      revert older sorted
      cases selection.decodesLeft with
      | nil =>
          intro _older _sorted decode member
          cases member
      | cons decode misses =>
          intro older sorted
          exact before_all sorted (of_decide_eq_true older)
    · cases ran
  · cases ran

theorem chooseDecode_chosen (time : Nat) (apart : Apart dibHits decodes) (next : Selection)
    (chosen : Chosen dibHits decodes inorder selection) (bandwidth : 0 < selection.inorder)
    (ran : selection.chooseDecode time = some next) :
    Chosen dibHits decodes inorder next ∧ next.inorder + 1 = selection.inorder := by
  unfold chooseDecode at ran
  split at ran
  · rename_i decode misses missFront
    split at ran
    · rename_i allowed
      cases ran
      refine ⟨chosen.takeDecode decode misses missFront bandwidth ?_,
        Nat.sub_add_cancel bandwidth⟩
      have older := (Bool.and_eq_true _ _ ▸ allowed).2
      have sorted := (chosen.left_sorted apart).1
      revert older sorted
      cases selection.dibHitsLeft with
      | nil =>
          intro _older _sorted hit member
          cases member
      | cons hit hits =>
          intro older sorted
          exact before_all sorted (of_decide_eq_true older)
    · cases ran
  · cases ran

theorem run_invariant (choose : Selection → Option Selection) (Invariant : Selection → Prop)
    (each : ∀ current next, Invariant current → 0 < current.inorder →
      choose current = some next → Invariant next ∧ next.inorder + 1 = current.inorder)
    (initial : Invariant selection) : Invariant (selection.run choose) := by
  have looped : ∀ remaining current, current.inorder = remaining → Invariant current →
      Invariant (loop choose remaining current) := by
    intro remaining
    induction remaining with
    | zero =>
        intro current _none kept
        exact kept
    | succ remaining ih =>
        intro current bandwidth kept
        unfold loop
        split
        · rename_i next chooses
          obtain ⟨still, fewer⟩ := each current next kept (by omega) chooses
          exact ih next (by omega) still
        · exact kept
  exact looped _ selection rfl initial

end Selection

namespace O3Cpu

variable {Module : Type} (config : Config) (hooks : CoreModules Module)

theorem decodeEach_ids (state : O3Cpu Module) (entries : List OooModelInstr) :
    ids (state.decodeEach config hooks entries).1 = ids entries ∧
      ∃ modules fetchResumeTime, (state.decodeEach config hooks entries).2 =
        { state with modules, fetchResumeTime } := by
  induction entries generalizing state with
  | nil => exact ⟨rfl, state.modules, state.fetchResumeTime, rfl⟩
  | cons entry rest ih =>
      obtain ⟨same, modules, resume, kept⟩ := ih (state.doDecode config hooks entry).2
      constructor
      · unfold ids at same ⊢
        unfold decodeEach
        dsimp only
        rw [List.map_cons, List.map_cons, same]
        rfl
      · exact ⟨modules, resume, kept⟩

theorem selectDecodes_chosen (state : O3Cpu Module)
    (apart : Selection.Apart state.dibHitBuffer state.decodeBuffer) :
    Selection.Chosen state.dibHitBuffer state.decodeBuffer
      (min config.dibInorderWidth (config.dispatchBufferSize - state.dispatchBuffer.length))
      (state.selectDecodes config) := by
  unfold selectDecodes
  dsimp only
  apply Selection.run_invariant _ _ (fun current next kept bandwidth =>
    Selection.chooseDecode_chosen _ apart next kept bandwidth)
  apply Selection.run_invariant _ _ (fun current next kept bandwidth =>
    Selection.chooseDibHit_chosen _ apart next kept bandwidth)
  apply Selection.run_invariant _ _ (fun current next kept bandwidth =>
    Selection.chooseEither_chosen _ apart next kept bandwidth)
  exact ⟨rfl, rfl, (fun _ member => by cases member), (fun _ member => by cases member),
    Nat.zero_add _⟩

theorem InOrder.apart {config : Config} {state : O3Cpu Module} {history : History}
    (inOrder : InOrder config state.order history) :
    Selection.Apart state.dibHitBuffer state.decodeBuffer := by
  refine ⟨inOrder.dibHit, inOrder.decode, ?_⟩
  intro hit member decode among same
  have all := inOrder.pipeline_increasing
  unfold Order.pipeline at all
  simp only [List.pairwise_append] at all
  have distinct : state.order.fetched.Nodup := all.1.1.2.1.imp (fun less => Nat.ne_of_lt less)
  have together : state.order.fetched.Perm (state.order.dibHit ++ state.order.decode) :=
    List.merge_perm_append idLe
  have both := together.nodup_iff.mp distinct
  rw [List.nodup_append] at both
  exact both.2.2 hit.instrId (List.mem_map.mpr ⟨hit, member, rfl⟩) decode.instrId
    (List.mem_map.mpr ⟨decode, among, rfl⟩) same

theorem decodeInstruction_inOrder {history : History} (state : O3Cpu Module)
    (inOrder : InOrder config state.order history) :
    InOrder config (state.decodeInstruction config hooks).order history := by
  have chosen := state.selectDecodes_chosen config (InOrder.apart inOrder)
  obtain ⟨decoded, modules, resume, kept⟩ :=
    state.decodeEach_ids config hooks (state.selectDecodes config).decodes
  have hits : ids ((state.selectDecodes config).dibHits.map (state.doDibHit config)) =
      ids (state.selectDecodes config).dibHits := by
    unfold ids
    rw [List.map_map]
    rfl
  have split : ∀ first second : List OooModelInstr,
      ids (first ++ second) = ids first ++ ids second := fun _ _ => List.map_append
  have moved := inOrder.decodes (ids (state.selectDecodes config).dibHits)
    (ids (state.selectDecodes config).dibHitsLeft) (ids (state.selectDecodes config).decodes)
    (ids (state.selectDecodes config).decodesLeft)
    (by rw [← split, ← chosen.dibHits]; rfl) (by rw [← split, ← chosen.decodes]; rfl)
    (by
      intro hit member decode among
      obtain ⟨first, inHits, sameHit⟩ := List.mem_map.mp member
      obtain ⟨second, inLeft, sameDecode⟩ := List.mem_map.mp among
      subst sameHit
      subst sameDecode
      exact chosen.hitFirst first inHits second inLeft)
    (by
      intro decode member hit among
      obtain ⟨first, inDecodes, sameDecode⟩ := List.mem_map.mp member
      obtain ⟨second, inLeft, sameHit⟩ := List.mem_map.mp among
      subst sameHit
      subst sameDecode
      exact chosen.decodeFirst first inDecodes second inLeft)
    (by
      have total := chosen.count
      have room := inOrder.within.dispatch
      have length : state.order.dispatch.length = state.dispatchBuffer.length := List.length_map _
      unfold ids
      rw [List.length_map, List.length_map]
      omega)
  unfold decodeInstruction order
  dsimp only
  rw [kept, split, ids_mergeInOrder, hits, decoded]
  exact moved

end O3Cpu

/-! ### The front end -/

/-- The stages that an instruction passes before it is dispatched. -/
def Stage.isFrontEnd : Stage → Bool
  | .decodeInstruction => true
  | .promoteToDecode => true
  | .fetchInstruction => true
  | .checkDib => true
  | .initializeInstruction => true
  | _ => false

namespace O3Cpu

variable {Module : Type} (config : Config) (hooks : CoreModules Module)

theorem readInstructions_shape (bandwidth : Nat) (state : O3Cpu Module) :
    ∃ inputQueue ifetchBuffer modules fetchResumeTime, readInstructions hooks bandwidth state =
      { state with inputQueue, ifetchBuffer, modules, fetchResumeTime } := by
  induction bandwidth generalizing state with
  | zero => exact ⟨_, _, _, _, rfl⟩
  | succ bandwidth ih =>
      unfold readInstructions
      split
      · exact ⟨_, _, _, _, rfl⟩
      · rename_i front others waiting
        split
        · obtain ⟨stop, sources, destinations, prediction, mispredicted, modules, resume, _fewer,
            _less, initiated⟩ := state.doInitInstruction_shape hooks front
          dsimp only
          rw [initiated]
          split
          · exact ⟨_, _, _, _, rfl⟩
          · exact ih _
        · exact ⟨_, _, _, _, rfl⟩

theorem frontEnd_shape (state next : O3Cpu Module) (stage : Stage)
    (front : stage.isFrontEnd = true) (ran : state.runStage config hooks stage = some next) :
    ∃ inputQueue ifetchBuffer dibHitBuffer decodeBuffer dispatchBuffer fetchResumeTime l1iBus modules,
      next =
        { state with
          inputQueue, ifetchBuffer, dibHitBuffer, decodeBuffer, dispatchBuffer, fetchResumeTime,
          l1iBus, modules } := by
  cases stage with
  | decodeInstruction =>
      cases ran
      obtain ⟨_ids, modules, resume, shape⟩ :=
        state.decodeEach_ids config hooks (state.selectDecodes config).decodes
      unfold decodeInstruction
      dsimp only
      rw [shape]
      exact ⟨_, _, _, _, _, _, _, _, rfl⟩
  | promoteToDecode =>
      obtain ⟨window, rest, _split, _room, same⟩ := promoteToDecode_window config state next ran
      exact ⟨_, _, _, _, _, _, _, _, same⟩
  | fetchInstruction =>
      cases ran
      exact ⟨_, _, _, _, _, _, _, _, rfl⟩
  | checkDib =>
      cases ran
      exact ⟨_, _, _, _, _, _, _, _, rfl⟩
  | initializeInstruction =>
      cases ran
      obtain ⟨input, ifetch, modules, resume, shape⟩ := readInstructions_shape hooks
        (min config.fetchWidth (config.ifetchBufferSize - state.ifetchBuffer.length)) state
      exact ⟨_, _, _, _, _, _, _, _, shape⟩
  | _ => cases front

end O3Cpu

end ChampSim.Core
