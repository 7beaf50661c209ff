/-
The reads of the instruction cache that fetching issues.

A read asks for a run of consecutive instructions of one block, from the first
that has been looked up and not asked for. An instruction that was found in the
decoded instruction buffer stays such a candidate while it waits for older ones.
-/

import ChampSim.Cache.Returns
import ChampSim.Core.ProgramOrder

set_option autoImplicit false

namespace ChampSim.Core

open Transition Cache

namespace O3Cpu

variable {Module : Type} (config : Config) (hooks : CoreModules Module)

/-- The groups of one block from the first instruction that is ready to be
fetched, with the number of groups that remain. -/
def fetchSpans : Nat → List OooModelInstr → List (List OooModelInstr)
  | 0, _ => []
  | count + 1, buffer =>
      match buffer.dropWhile (fun instr => !instr.fetchReady) with
      | [] => []
      | first :: rest =>
          (first :: rest.takeWhile (sameBlock config first)) ::
            fetchSpans count (rest.dropWhile (sameBlock config first))

/-- The reads that one `fetch_instruction` can issue. -/
def fetchRoom (state : O3Cpu Module) : Nat :=
  min config.l1iBandwidth (state.l1iBus.rqSize - state.l1iBus.rq.length)

/-- A read for a group of consecutive instructions of one block that are not
all fetched. -/
def Needed (buffer : List OooModelInstr) (read : Request) : Prop :=
  ∃ group, group <:+: buffer ∧
    (∀ instr ∈ group, config.blockNumber instr.ip = config.blockNumber read.vAddress) ∧
      read.instrDependOnMe = ids group ∧ ∃ instr ∈ group, instr.fetchCompleted = false

def NeededReads (state next : O3Cpu Module) : Prop :=
  ∀ read ∈ next.l1iBus.rq.drop state.l1iBus.rq.length, Needed config state.ifetchBuffer read

/-- The instructions of the same block right before a place. -/
def earlierOfRun (buffer : List OooModelInstr) (place : Nat) (instr : OooModelInstr) :
    List OooModelInstr :=
  (buffer.take place).reverse.takeWhile (sameBlock config instr)

/-- The instructions of the same block right after a place. -/
def laterOfRun (buffer : List OooModelInstr) (place : Nat) (instr : OooModelInstr) :
    List OooModelInstr :=
  (buffer.drop (place + 1)).takeWhile (sameBlock config instr)

/-- The first instruction of its run that is ready to be fetched. -/
def leads (buffer : List OooModelInstr) (place : Nat) : Bool :=
  buffer[place]?.any (fun instr => instr.fetchReady &&
    (earlierOfRun config buffer place instr).all (fun other => !other.fetchReady))

/-- An instruction that hit in the decoded instruction buffer and waits is behind one of its run that
is ready too, or before one of its run that is not fetched, or behind as many runs with a ready
instruction as there is room for reads. -/
def HitsAccompanied (state : O3Cpu Module) : Prop :=
  ∀ place instr, state.ifetchBuffer[place]? = some instr → instr.fetchReady = true →
    instr.fetchCompleted = true →
    (∃ other ∈ earlierOfRun config state.ifetchBuffer place instr, other.fetchReady = true) ∨
      (∃ other ∈ laterOfRun config state.ifetchBuffer place instr,
        other.fetchCompleted = false) ∨
      state.fetchRoom config ≤ (List.range place).countP (leads config state.ifetchBuffer)

/-! ### Places and groups -/

/-- Before a place of the back, a run does not reach over a change of block. -/
theorem earlierOfRun_append {front back : List OooModelInstr}
    (cut : ∀ last ∈ front.getLast?, ∀ next ∈ back.head?, sameBlock config last next = false)
    (place : Nat) (instr : OooModelInstr) (isAt : back[place]? = some instr) :
    earlierOfRun config (front ++ back) (front.length + place) instr =
      earlierOfRun config back place instr := by
  unfold earlierOfRun
  rw [List.take_length_add_append, List.reverse_append, List.takeWhile_append]
  split
  case isFalse => rfl
  case isTrue all =>
    have whole := (List.takeWhile_sublist _).eq_of_length all
    rw [whole]
    cases reversed : front.reverse with
    | nil => rw [List.takeWhile_nil, List.append_nil]
    | cons last others =>
        have isLast : last ∈ front.getLast? := by
          rw [← List.head?_reverse, reversed]
          rfl
        have next : ∃ next ∈ back.head?, config.blockNumber next.ip = config.blockNumber instr.ip := by
          cases back with
          | nil => cases isAt
          | cons next rest =>
              refine ⟨next, rfl, ?_⟩
              cases place with
              | zero =>
                  cases isAt
                  rfl
              | succ place =>
                  have member : next ∈ ((next :: rest).take (place + 1)).reverse := by
                    rw [List.mem_reverse, List.take_succ_cons]
                    exact List.mem_cons_self
                  rw [← whole] at member
                  have together : sameBlock config instr next = true :=
                    List.mem_takeWhile_imp member
                  exact of_decide_eq_true together
        obtain ⟨next, isNext, block⟩ := next
        have differs := cut last isLast next isNext
        have stops : ¬sameBlock config instr last = true := by
          intro together
          have same : config.blockNumber last.ip = config.blockNumber instr.ip :=
            of_decide_eq_true together
          unfold sameBlock at differs
          rw [decide_eq_false_iff_not, block, same] at differs
          exact differs rfl
        rw [List.takeWhile_cons_of_neg stops, List.append_nil]

theorem laterOfRun_append (front back : List OooModelInstr) (place : Nat)
    (instr : OooModelInstr) :
    laterOfRun config (front ++ back) (front.length + place) instr =
      laterOfRun config back place instr := by
  unfold laterOfRun
  rw [Nat.add_assoc, List.drop_length_add_append]

theorem leads_append {front back : List OooModelInstr}
    (cut : ∀ last ∈ front.getLast?, ∀ next ∈ back.head?, sameBlock config last next = false)
    (place : Nat) :
    leads config (front ++ back) (front.length + place) = leads config back place := by
  unfold leads
  rw [List.getElem?_append_right (Nat.le_add_right _ _), Nat.add_sub_cancel_left]
  cases isAt : back[place]? with
  | none => rfl
  | some instr =>
      rw [Option.any_some, Option.any_some, earlierOfRun_append config cut place instr isAt]

/-- The buffer up to the end of the first run with a ready instruction. -/
structure FirstRun (buffer skipped run others : List OooModelInstr) (first : OooModelInstr) :
    Prop where
  split : buffer = (skipped ++ first :: run) ++ others
  waiting : ∀ instr ∈ skipped, instr.fetchReady = false
  ready : first.fetchReady = true
  together : ∀ instr ∈ run, sameBlock config first instr = true
  cut : ∀ next ∈ others.head?, sameBlock config first next = false

theorem firstRun_of_dropWhile {buffer rest : List OooModelInstr} {first : OooModelInstr}
    (found : buffer.dropWhile (fun instr => !instr.fetchReady) = first :: rest) :
    FirstRun config buffer (buffer.takeWhile (fun instr => !instr.fetchReady))
      (rest.takeWhile (sameBlock config first)) (rest.dropWhile (sameBlock config first))
      first := by
  refine ⟨?_, ?_, ?_, ?_, ?_⟩
  · rw [List.append_assoc, List.cons_append, List.takeWhile_append_dropWhile, ← found,
      List.takeWhile_append_dropWhile]
  · intro instr member
    have waits := List.mem_takeWhile_imp member
    simpa using waits
  · have stops := List.head?_dropWhile_not (fun instr : OooModelInstr => !instr.fetchReady) buffer
    rw [found] at stops
    simpa using stops
  · intro instr member
    exact List.mem_takeWhile_imp member
  · intro next isNext
    have stops := List.head?_dropWhile_not (sameBlock config first) rest
    cases dropped : rest.dropWhile (sameBlock config first) with
    | nil =>
        rw [dropped] at isNext
        cases isNext
    | cons head tail =>
        rw [dropped] at isNext stops
        cases isNext
        simpa using stops

namespace FirstRun

variable {config}
variable {buffer skipped run others : List OooModelInstr} {first : OooModelInstr}

theorem atFirst (shape : FirstRun config buffer skipped run others first) :
    buffer[skipped.length]? = some first := by
  rw [shape.split, List.append_assoc, List.getElem?_append_right (Nat.le_refl _), Nat.sub_self]
  rfl

theorem leads_skipped (shape : FirstRun config buffer skipped run others first) (place : Nat)
    (before : place < skipped.length) : leads config buffer place = false := by
  unfold leads
  rw [shape.split, List.append_assoc, List.getElem?_append_left before,
    List.getElem?_eq_getElem before, Option.any_some,
    shape.waiting _ (List.getElem_mem before), Bool.false_and]

theorem leads_first (shape : FirstRun config buffer skipped run others first) :
    leads config buffer skipped.length = true := by
  unfold leads
  rw [shape.atFirst, Option.any_some, shape.ready, Bool.true_and, List.all_eq_true]
  intro other member
  have earlier := (List.takeWhile_sublist _).subset member
  rw [List.mem_reverse, shape.split, List.append_assoc, List.take_left] at earlier
  rw [shape.waiting other earlier]
  rfl

theorem leads_run (shape : FirstRun config buffer skipped run others first) (place : Nat)
    (within : place < run.length) :
    leads config buffer (skipped.length + 1 + place) = false := by
  have isAt : buffer[skipped.length + 1 + place]? = some run[place] := by
    rw [shape.split, List.append_assoc, Nat.add_assoc,
      List.getElem?_append_right (Nat.le_add_right _ _), Nat.add_sub_cancel_left, Nat.add_comm,
      List.cons_append, List.getElem?_cons_succ, List.getElem?_append_left within,
      List.getElem?_eq_getElem within]
  have block : ∀ instr ∈ first :: run,
      config.blockNumber instr.ip = config.blockNumber first.ip := by
    intro instr member
    rcases List.mem_cons.mp member with isFirst | later
    · rw [isFirst]
    · exact of_decide_eq_true (shape.together instr later)
  have taken : (buffer.take (skipped.length + 1 + place)).reverse =
      (first :: run.take place).reverse ++ skipped.reverse := by
    rw [shape.split, List.append_assoc, Nat.add_assoc, List.take_length_add_append, Nat.add_comm,
      List.cons_append, List.take_succ_cons, List.take_append_of_le_length within.le,
      List.reverse_append]
  have all : ∀ instr ∈ (first :: run.take place).reverse,
      sameBlock config run[place] instr = true := by
    intro instr member
    rw [List.mem_reverse] at member
    have among : instr ∈ first :: run :=
      (List.Sublist.cons_cons first (List.take_sublist _ _)).subset member
    apply decide_eq_true
    rw [block instr among, block _ (List.mem_cons_of_mem first (List.getElem_mem within))]
  have ready : ∃ other ∈ earlierOfRun config buffer (skipped.length + 1 + place) run[place],
      other.fetchReady = true := by
    refine ⟨first, ?_, shape.ready⟩
    unfold earlierOfRun
    rw [taken, List.takeWhile_append_of_pos all]
    exact List.mem_append_left _ (List.mem_reverse.mpr List.mem_cons_self)
  unfold leads
  rw [isAt, Option.any_some, Bool.and_eq_false_iff]
  right
  obtain ⟨other, member, isReady⟩ := ready
  rw [List.all_eq_false]
  exact ⟨other, member, by rw [isReady]; exact Bool.false_ne_true⟩

theorem later_first (shape : FirstRun config buffer skipped run others first) :
    laterOfRun config buffer skipped.length first = run := by
  have rest := laterOfRun_append config skipped (first :: run ++ others) 0 first
  rw [← List.append_assoc, ← shape.split, Nat.add_zero] at rest
  rw [rest]
  unfold laterOfRun
  rw [Nat.zero_add, List.cons_append, List.drop_succ_cons, List.drop_zero,
    List.takeWhile_append_of_pos shape.together]
  cases others with
  | nil => rw [List.takeWhile_nil, List.append_nil]
  | cons next more =>
      have stops := shape.cut next rfl
      rw [List.takeWhile_cons_of_neg (by rw [stops]; exact Bool.false_ne_true), List.append_nil]

theorem cut_others (shape : FirstRun config buffer skipped run others first) :
    ∀ last ∈ (skipped ++ first :: run).getLast?, ∀ next ∈ others.head?,
      sameBlock config last next = false := by
  intro last isLast next isNext
  have differs := shape.cut next isNext
  rw [List.getLast?_append, List.getLast?_cons, Option.some_or] at isLast
  have member : last = first ∨ last ∈ run := by
    cases Option.mem_some_iff.mp isLast
    cases found : run.getLast? with
    | none => exact .inl rfl
    | some final => exact .inr (List.mem_of_getLast? found)
  rcases member with isFirst | later
  · rw [isFirst]
    exact differs
  · have block : config.blockNumber last.ip = config.blockNumber first.ip :=
      of_decide_eq_true (shape.together last later)
    unfold sameBlock at differs ⊢
    rw [block]
    exact differs

theorem atOthers (shape : FirstRun config buffer skipped run others first) (place : Nat) :
    buffer[(skipped ++ first :: run).length + place]? = others[place]? := by
  rw [shape.split, List.getElem?_append_right (Nat.le_add_right _ _), Nat.add_sub_cancel_left]

theorem leads_others (shape : FirstRun config buffer skipped run others first) (place : Nat) :
    leads config buffer ((skipped ++ first :: run).length + place) = leads config others place := by
  rw [shape.split, leads_append config shape.cut_others]

theorem later_others (shape : FirstRun config buffer skipped run others first) (place : Nat)
    (instr : OooModelInstr) :
    laterOfRun config buffer ((skipped ++ first :: run).length + place) instr =
      laterOfRun config others place instr := by
  rw [shape.split, laterOfRun_append]

theorem count_skipped (shape : FirstRun config buffer skipped run others first) :
    (List.range skipped.length).countP (leads config buffer) = 0 := by
  rw [List.countP_eq_zero]
  intro place within
  rw [shape.leads_skipped place (List.mem_range.mp within)]
  exact Bool.false_ne_true

theorem count_others (shape : FirstRun config buffer skipped run others first) (place : Nat) :
    (List.range ((skipped ++ first :: run).length + place)).countP (leads config buffer) =
      (List.range place).countP (leads config others) + 1 := by
  have sized : (skipped ++ first :: run).length = skipped.length + 1 + run.length := by
    rw [List.length_append, List.length_cons]
    omega
  have behind : (List.range place).countP
      (leads config buffer ∘ ((skipped ++ first :: run).length + ·)) =
      (List.range place).countP (leads config others) := by
    apply List.countP_congr
    intro other _member
    change leads config buffer ((skipped ++ first :: run).length + other) = true ↔ _
    rw [shape.leads_others]
  have within : (List.range run.length).countP
      (leads config buffer ∘ (skipped.length + 1 + ·)) = 0 := by
    rw [List.countP_eq_zero]
    intro other member
    change ¬leads config buffer (skipped.length + 1 + other) = true
    rw [shape.leads_run other (List.mem_range.mp member)]
    exact Bool.false_ne_true
  rw [List.range_add, List.countP_append, List.countP_map, behind, sized, List.range_add,
    List.countP_append, List.countP_map, within, List.range_succ, List.countP_append,
    shape.count_skipped, List.countP_singleton, if_pos shape.leads_first]
  omega

end FirstRun

/-- A place is before the first ready instruction, at it, in its run or behind it. -/
theorem place_cases (skipped run : List OooModelInstr) (first : OooModelInstr) (place : Nat) :
    place < skipped.length ∨ place = skipped.length ∨
      (∃ distance < run.length, place = skipped.length + 1 + distance) ∨
        ∃ distance, place = (skipped ++ first :: run).length + distance := by
  rw [List.length_append, List.length_cons]
  rcases Nat.lt_trichotomy place skipped.length with before | here | after
  · exact .inl before
  · exact .inr (.inl here)
  · obtain ⟨distance, isPlace⟩ := Nat.exists_eq_add_of_le (Nat.succ_le_of_lt after)
    rcases Nat.lt_or_ge distance run.length with within | beyond
    · exact .inr (.inr (.inl ⟨distance, within, isPlace⟩))
    · exact .inr (.inr (.inr ⟨distance - run.length, by omega⟩))

theorem mem_fetchSpans_iff (count : Nat) (buffer group : List OooModelInstr) :
    group ∈ fetchSpans config count buffer ↔
      ∃ place instr, buffer[place]? = some instr ∧ leads config buffer place = true ∧
        (List.range place).countP (leads config buffer) < count ∧
        group = instr :: laterOfRun config buffer place instr := by
  induction count generalizing buffer with
  | zero =>
      constructor
      · intro member
        cases member
      · rintro ⟨place, instr, _isAt, _leads, few, _same⟩
        cases few
  | succ count ih =>
      unfold fetchSpans
      split
      · rename_i none
        constructor
        · intro member
          cases member
        · rintro ⟨place, instr, isAt, isLeader, _few, _same⟩
          have waits := List.dropWhile_eq_nil_iff.mp none instr (List.mem_of_getElem? isAt)
          unfold leads at isLeader
          rw [isAt, Option.any_some, Bool.and_eq_true] at isLeader
          rw [isLeader.1] at waits
          cases waits
      · rename_i first rest found
        have shape := firstRun_of_dropWhile config found
        generalize buffer.takeWhile (fun instr => !instr.fetchReady) = skipped at shape
        generalize rest.takeWhile (sameBlock config first) = run at shape ⊢
        generalize rest.dropWhile (sameBlock config first) = others at shape ⊢
        rw [List.mem_cons, ih]
        constructor
        · rintro (isFirst | ⟨place, instr, isAt, isLeader, few, same⟩)
          · refine ⟨skipped.length, first, shape.atFirst, shape.leads_first, ?_, ?_⟩
            · rw [shape.count_skipped]
              exact Nat.succ_pos count
            · rw [shape.later_first]
              exact isFirst
          · refine ⟨(skipped ++ first :: run).length + place, instr, ?_, ?_, ?_, ?_⟩
            · rw [shape.atOthers]
              exact isAt
            · rw [shape.leads_others]
              exact isLeader
            · rw [shape.count_others]
              exact Nat.succ_lt_succ few
            · rw [shape.later_others]
              exact same
        · rintro ⟨place, instr, isAt, isLeader, few, same⟩
          rcases place_cases skipped run first place with
            before | isFirst | ⟨distance, within, isPlace⟩ | ⟨distance, isPlace⟩
          · rw [shape.leads_skipped place before] at isLeader
            cases isLeader
          · left
            rw [isFirst, shape.atFirst] at isAt
            cases isAt
            rw [same, isFirst, shape.later_first]
          · rw [isPlace, shape.leads_run distance within] at isLeader
            cases isLeader
          · right
            subst isPlace
            rw [shape.atOthers] at isAt
            rw [shape.leads_others] at isLeader
            rw [shape.count_others] at few
            rw [shape.later_others] at same
            exact ⟨distance, instr, isAt, isLeader, Nat.lt_of_succ_lt_succ few, same⟩

/-! ### Groups -/

theorem fetchSpans_shape (count : Nat) (buffer group : List OooModelInstr)
    (member : group ∈ fetchSpans config count buffer) :
    group <:+: buffer ∧ ∃ first others, group = first :: others ∧
      ∀ instr ∈ group, config.blockNumber instr.ip = config.blockNumber first.ip := by
  induction count generalizing buffer with
  | zero => cases member
  | succ count ih =>
      unfold fetchSpans at member
      split at member
      · cases member
      · rename_i first rest found
        have suffix : first :: rest <:+ buffer := by
          rw [← found]
          exact List.dropWhile_suffix _
        rcases List.mem_cons.mp member with isFirst | later
        · rw [isFirst]
          constructor
          · have front : first :: rest.takeWhile (sameBlock config first) <+: first :: rest :=
              List.prefix_cons_inj first |>.mpr (List.takeWhile_prefix _)
            exact front.isInfix.trans suffix.isInfix
          · refine ⟨first, _, rfl, ?_⟩
            intro instr among
            rcases List.mem_cons.mp among with same | other
            · rw [same]
            · have together : sameBlock config first instr = true := List.mem_takeWhile_imp other
              exact of_decide_eq_true together
        · obtain ⟨within, shape⟩ := ih _ later
          have back : rest.dropWhile (sameBlock config first) <:+ buffer :=
            (List.dropWhile_suffix _).trans ((List.suffix_cons first rest).trans suffix)
          exact ⟨within.trans back.isInfix, shape⟩

/-- A read that asks for a group by its first instruction. -/
def AsksFor (read : Request) (group : List OooModelInstr) : Prop :=
  group.head?.map (fun instr => instr.ip) = some read.vAddress ∧ read.instrDependOnMe = ids group

theorem doFetchInstruction_asks {bus issued : Channel} {first : OooModelInstr}
    {group : List OooModelInstr} (fetched : doFetchInstruction config bus first group = some issued) :
    ∃ read : Request, issued = { bus with rq := bus.rq ++ [read] } ∧ read.vAddress = first.ip ∧
      read.instrDependOnMe = ids group ∧ bus.rq.length < bus.rqSize := by
  have same := addRq_appends fetched
  refine ⟨_, same, rfl, rfl, ?_⟩
  obtain ⟨queue, added, _isIssued⟩ := Option.map_eq_some_iff.mp fetched
  unfold doAddQueue at added
  split at added
  · cases added
  · omega

theorem doFetchInstruction_refused {bus : Channel} {first : OooModelInstr}
    {group : List OooModelInstr} (refused : doFetchInstruction config bus first group = none) :
    bus.rqSize ≤ bus.rq.length := by
  have full := Option.map_eq_none_iff.mp refused
  unfold doAddQueue at full
  split at full
  · assumption
  · cases full

/-- The reads of the loop over the groups are for the first of them, as many
as the bandwidth and the read queue allow. -/
theorem fetchGroups_reads (bandwidth : Nat) (bus : Channel) (buffer : List OooModelInstr) :
    ∃ reads, (fetchGroups config bandwidth bus buffer).2 = { bus with rq := bus.rq ++ reads } ∧
      List.Forall₂ AsksFor reads
        (fetchSpans config (min bandwidth (bus.rqSize - bus.rq.length)) buffer) := by
  induction bandwidth generalizing bus buffer with
  | zero =>
      refine ⟨[], ?_, ?_⟩
      · rw [List.append_nil]
        rfl
      · rw [Nat.zero_min]
        exact List.Forall₂.nil
  | succ bandwidth ih =>
      unfold fetchGroups
      dsimp only
      split
      · rename_i none
        refine ⟨[], by rw [List.append_nil], ?_⟩
        cases count : min (bandwidth + 1) (bus.rqSize - bus.rq.length) with
        | zero => exact List.Forall₂.nil
        | succ remaining =>
            unfold fetchSpans
            rw [none]
            exact List.Forall₂.nil
      · rename_i first rest found
        cases issue : doFetchInstruction config bus first
            (first :: rest.takeWhile (sameBlock config first)) with
        | none =>
            have full := doFetchInstruction_refused config issue
            obtain ⟨reads, same, asked⟩ := ih bus (rest.dropWhile (sameBlock config first))
            rw [Nat.sub_eq_zero_of_le full, Nat.min_zero] at asked ⊢
            exact ⟨reads, same, asked⟩
        | some issued =>
            obtain ⟨read, isIssued, block, group, room⟩ := doFetchInstruction_asks config issue
            obtain ⟨reads, same, asked⟩ := ih issued (rest.dropWhile (sameBlock config first))
            rw [Option.getD_some]
            refine ⟨read :: reads, ?_, ?_⟩
            · rw [same, isIssued]
              dsimp only
              rw [List.append_assoc, List.singleton_append]
            · have fewer : min bandwidth (issued.rqSize - issued.rq.length) + 1 =
                  min (bandwidth + 1) (bus.rqSize - bus.rq.length) := by
                rw [isIssued]
                dsimp only
                rw [List.length_append, List.length_singleton]
                omega
              rw [← fewer]
              unfold fetchSpans
              rw [found]
              refine List.Forall₂.cons ⟨?_, group⟩ asked
              rw [List.head?_cons, Option.map_some, block]

/-! ### Needed reads -/

theorem AsksFor.of_spans {reads : List Request} {spans : List (List OooModelInstr)}
    (asked : List.Forall₂ AsksFor reads spans) :
    (∀ read ∈ reads, ∃ group ∈ spans, AsksFor read group) ∧
      ∀ group ∈ spans, ∃ read ∈ reads, AsksFor read group := by
  induction asked with
  | nil => exact ⟨(fun _ member => by cases member), (fun _ member => by cases member)⟩
  | @cons read group reads spans asks _others ih =>
      constructor
      · intro other member
        rcases List.mem_cons.mp member with isFirst | later
        · exact ⟨group, List.mem_cons_self, by rw [isFirst]; exact asks⟩
        · obtain ⟨found, among, asksLater⟩ := ih.1 other later
          exact ⟨found, List.mem_cons_of_mem group among, asksLater⟩
      · intro other member
        rcases List.mem_cons.mp member with isFirst | later
        · exact ⟨read, List.mem_cons_self, by rw [isFirst]; exact asks⟩
        · obtain ⟨found, among, asksLater⟩ := ih.2 other later
          exact ⟨found, List.mem_cons_of_mem read among, asksLater⟩

/-- The instructions of a buffer in program order are told apart by their ids. -/
theorem InOrder.ifetch_unique {config : Config} {state : O3Cpu Module} {history : History}
    (inOrder : InOrder config state.order history) {instr other : OooModelInstr}
    (member : instr ∈ state.ifetchBuffer) (among : other ∈ state.ifetchBuffer)
    (same : instr.instrId = other.instrId) : instr = other := by
  have distinct : (ids state.ifetchBuffer).Nodup :=
    inOrder.sorted.ifetch.imp (fun less => Nat.ne_of_lt less)
  exact List.inj_on_of_nodup_map distinct member among same

/-- Of the groups that are read, each one that begins with a complete instruction goes on with one
that is not. -/
theorem hitsAccompanied_iff (state : O3Cpu Module) :
    state.HitsAccompanied config ↔ ∀ first others,
      first :: others ∈ fetchSpans config (state.fetchRoom config) state.ifetchBuffer →
        first.fetchCompleted = true → ∃ instr ∈ others, instr.fetchCompleted = false := by
  constructor
  · intro accompanied first others member complete
    obtain ⟨place, instr, isAt, isLeader, few, same⟩ :=
      (mem_fetchSpans_iff config _ _ _).mp member
    cases same
    unfold leads at isLeader
    rw [isAt, Option.any_some, Bool.and_eq_true, List.all_eq_true] at isLeader
    rcases accompanied place first isAt isLeader.1 complete with
      ⟨other, earlier, ready⟩ | later | many
    · have waits := isLeader.2 other earlier
      rw [ready] at waits
      cases waits
    · exact later
    · exact absurd few (Nat.not_lt.mpr many)
  · intro groups place instr isAt ready complete
    by_cases behind : ∃ other ∈ earlierOfRun config state.ifetchBuffer place instr,
        other.fetchReady = true
    · exact .inl behind
    · right
      rcases Nat.lt_or_ge ((List.range place).countP (leads config state.ifetchBuffer))
        (state.fetchRoom config) with few | many
      · left
        refine groups instr _ ((mem_fetchSpans_iff config _ _ _).mpr
          ⟨place, instr, isAt, ?_, few, rfl⟩) complete
        unfold leads
        rw [isAt, Option.any_some, ready, Bool.true_and, List.all_eq_true]
        intro other earlier
        cases isReady : other.fetchReady with
        | false => rfl
        | true => exact absurd ⟨other, earlier, isReady⟩ behind
      · exact .inr many

theorem fetchInstruction_needed_iff {history : History} (state : O3Cpu Module)
    (inOrder : InOrder config state.order history) :
    NeededReads config state (state.fetchInstruction config) ↔ state.HitsAccompanied config := by
  obtain ⟨reads, same, asked⟩ :=
    fetchGroups_reads config config.l1iBandwidth state.l1iBus state.ifetchBuffer
  have issued : (state.fetchInstruction config).l1iBus.rq.drop state.l1iBus.rq.length = reads := by
    unfold fetchInstruction
    dsimp only
    rw [same, List.drop_left]
  change List.Forall₂ AsksFor reads
    (fetchSpans config (state.fetchRoom config) state.ifetchBuffer) at asked
  unfold NeededReads
  rw [issued, hitsAccompanied_iff]
  constructor
  · intro needed first others member complete
    obtain ⟨within, _shape⟩ := fetchSpans_shape config _ _ _ member
    obtain ⟨read, isRead, _first, asksGroup⟩ := (AsksFor.of_spans asked).2 _ member
    obtain ⟨group, isInfix, _block, asksOther, instr, among, waits⟩ := needed read isRead
    have seen : instr.instrId ∈ ids (first :: others) := by
      rw [← asksGroup, asksOther]
      exact List.mem_map.mpr ⟨instr, among, rfl⟩
    obtain ⟨found, inGroup, sameId⟩ := List.mem_map.mp seen
    have isFound : found = instr :=
      InOrder.ifetch_unique inOrder (within.subset inGroup) (isInfix.subset among) sameId
    rw [isFound] at inGroup
    rcases List.mem_cons.mp inGroup with isFirst | isOther
    · rw [isFirst, complete] at waits
      cases waits
    · exact ⟨instr, isOther, waits⟩
  · intro accompanied read isRead
    obtain ⟨group, member, asksFirst, asksGroup⟩ := (AsksFor.of_spans asked).1 read isRead
    obtain ⟨within, first, others, isGroup, block⟩ := fetchSpans_shape config _ _ _ member
    rw [isGroup, List.head?_cons, Option.map_some, Option.some.injEq] at asksFirst
    refine ⟨group, within, ?_, asksGroup, ?_⟩
    · rw [← asksFirst]
      exact block
    · rw [isGroup] at member ⊢
      cases complete : first.fetchCompleted with
      | false => exact ⟨first, List.mem_cons_self, complete⟩
      | true =>
          obtain ⟨instr, among, waits⟩ := accompanied first others member complete
          exact ⟨instr, List.mem_cons_of_mem first among, waits⟩

/-! ### Runs -/

/-- Every read that a run issues for instructions is needed exactly when each instruction that waits
after a hit in the decoded instruction buffer is accompanied. -/
theorem histories_neededReads_iff (l1iBus l1dBus : Channel) (modules : Module)
    (labels : List Step) :
    (∀ front rest before next, labels = front ++ .stage .fetchInstruction :: rest →
        (histories config hooks).run (O3Cpu.init config l1iBus l1dBus modules, {}) front =
          some before →
        (histories config hooks).step before (.stage .fetchInstruction) = some next →
        NeededReads config before.1 next.1) ↔
      ∀ front rest before, labels = front ++ .stage .fetchInstruction :: rest →
        (histories config hooks).run (O3Cpu.init config l1iBus l1dBus modules, {}) front =
          some before →
        before.1.HitsAccompanied config := by
  have each : ∀ front before,
      (histories config hooks).run (O3Cpu.init config l1iBus l1dBus modules, {}) front =
        some before →
      (NeededReads config before.1 (before.1.fetchInstruction config) ↔
        before.1.HitsAccompanied config) := by
    intro front before reached
    have inOrder := histories_inOrder config hooks l1iBus l1dBus modules front before reached
    exact fetchInstruction_needed_iff config before.1 inOrder
  constructor
  · intro needed front rest before split reached
    exact (each front before reached).mp (needed front rest before _ split reached rfl)
  · intro accompanied front rest before next split reached stepped
    have isNext : next.1 = before.1.fetchInstruction config := by
      cases stepped
      rfl
    rw [isNext]
    exact (each front before reached).mpr (accompanied front rest before split reached)

end O3Cpu

/-- A decoded instruction buffer that holds one instruction. -/
def oneHitModules : CoreModules Unit where
  btbPrediction _ _ _ := ((0, false), ())
  predictBranch _ _ _ _ _ := (false, ())
  updateBtb _ _ _ _ _ := ()
  lastBranchResult _ _ _ _ _ := ()
  prefetcherBranchOperate _ _ _ _ := ()
  dibCheckHit _ ip := (decide (ip = 0x1000), ())
  dibFill _ _ := ()

/-- An instruction that misses, and a younger one that hits. -/
def missAndHit : List Step :=
  [.event (.beginPhase false), .event (.read 3 {}), .event (.read 7 { ip := 0x1000 })]

def beforeFetch : List Step := (operate (fun _ _ => false)).take 10

/-- The instruction that hits is read for while it waits for the older one. -/
theorem histories_neededReads_missAndHit :
    ∃ before next,
      (histories smallCore oneHitModules).run (smallInit, {})
          (missAndHit ++ smallCycles 3 ++ beforeFetch) = some before ∧
        (histories smallCore oneHitModules).step before (.stage .fetchInstruction) = some next ∧
          ¬O3Cpu.NeededReads smallCore before.1 next.1 := by
  have waits : ((histories smallCore oneHitModules).run (smallInit, {})
      (missAndHit ++ smallCycles 3 ++ beforeFetch)).any (fun before =>
        (O3Cpu.fetchSpans smallCore (before.1.fetchRoom smallCore) before.1.ifetchBuffer).any
          (fun group => group.all (fun instr => instr.fetchCompleted))) = true := by
    decide +kernel
  obtain ⟨before, ran, hit⟩ := (Option.any_eq_true _ _).mp waits
  refine ⟨before, _, ran, rfl, ?_⟩
  have inOrder := O3Cpu.histories_inOrder smallCore oneHitModules smallBus smallBus () _ before ran
  intro needed
  have accompanied := (O3Cpu.hitsAccompanied_iff smallCore before.1).mp
    ((O3Cpu.fetchInstruction_needed_iff smallCore before.1 inOrder).mp needed)
  obtain ⟨group, member, complete⟩ := List.any_eq_true.mp hit
  obtain ⟨_within, first, others, isGroup, _block⟩ := O3Cpu.fetchSpans_shape smallCore _ _ _ member
  rw [isGroup] at member complete
  rw [List.all_eq_true] at complete
  obtain ⟨instr, among, incomplete⟩ :=
    accompanied first others member (complete first List.mem_cons_self)
  rw [complete instr (List.mem_cons_of_mem first among)] at incomplete
  cases incomplete

end ChampSim.Core
