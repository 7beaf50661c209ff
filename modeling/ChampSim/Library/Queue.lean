/-
Queues that are served from the front.

Items are taken while a condition holds and a bandwidth lasts, and a partition
may ask a predicate that changes a state: each item is asked once, in order.
-/

import Mathlib.Algebra.Ring.Nat
import Mathlib.Data.List.Perm.Basic
import Mathlib.Data.List.TakeWhile
import Mathlib.Order.Lattice

set_option autoImplicit false

namespace ChampSim.Queue

variable {State Item Other : Type}

/-! ### Spans -/

/-- The items at the front that satisfy a condition, as many as a bandwidth
allows. -/
def span (bandwidth : Nat) (condition : Item → Bool) (queue : List Item) : List Item :=
  (queue.take bandwidth).takeWhile condition

def beyond (bandwidth : Nat) (condition : Item → Bool) (queue : List Item) : List Item :=
  queue.drop (span bandwidth condition queue).length

theorem span_isPrefix (bandwidth : Nat) (condition : Item → Bool) (queue : List Item) :
    span bandwidth condition queue <+: queue :=
  (List.takeWhile_prefix condition).trans (List.take_prefix bandwidth queue)

theorem span_append_beyond (bandwidth : Nat) (condition : Item → Bool) (queue : List Item) :
    span bandwidth condition queue ++ beyond bandwidth condition queue = queue :=
  List.prefix_iff_eq_append.mp (span_isPrefix bandwidth condition queue)

theorem span_length_le (bandwidth : Nat) (condition : Item → Bool) (queue : List Item) :
    (span bandwidth condition queue).length ≤ bandwidth := by
  have within := (List.takeWhile_prefix (l := queue.take bandwidth) condition).length_le
  have taken : (queue.take bandwidth).length ≤ bandwidth := List.length_take_le bandwidth queue
  unfold span
  omega

theorem span_length (bandwidth : Nat) (condition : Item → Bool) (queue : List Item) :
    (span bandwidth condition queue).length =
      min bandwidth (queue.takeWhile condition).length := by
  unfold span
  rw [← List.take_takeWhile, List.length_take]

/-- Behind a queue, items can only be added to those at the front that satisfy a condition. -/
theorem front_le_append (condition : Item → Bool) (queue more : List Item) :
    (queue.takeWhile condition).length ≤ ((queue ++ more).takeWhile condition).length := by
  rw [List.takeWhile_append]
  split
  case isTrue => exact (List.takeWhile_sublist _).length_le.trans (List.length_append ▸ by omega)
  case isFalse => exact Nat.le_refl _

theorem front_append_of_fails (condition : Item → Bool) (queue more : List Item)
    (fails : ∀ item ∈ more, condition item = false) :
    (queue ++ more).takeWhile condition = queue.takeWhile condition := by
  rw [List.takeWhile_append]
  split
  case isTrue all =>
    have none : more.takeWhile condition = [] := by
      cases more with
      | nil => rfl
      | cons item rest =>
          rw [List.takeWhile_cons_of_neg]
          rw [fails item List.mem_cons_self]
          exact Bool.false_ne_true
    rw [none, List.append_nil]
    exact ((List.takeWhile_sublist _).eq_of_length all).symm
  case isFalse => rfl

theorem span_holds (bandwidth : Nat) (condition : Item → Bool) (queue : List Item) (item : Item)
    (member : item ∈ span bandwidth condition queue) : condition item = true :=
  List.mem_takeWhile_imp member

theorem span_length_le_front (bandwidth : Nat) (condition : Item → Bool)
    (front back : List Item) (fails : ∀ item ∈ back, condition item = false) :
    (span bandwidth condition (front ++ back)).length ≤ front.length := by
  have isPrefix := span_isPrefix bandwidth condition (front ++ back)
  by_contra longer
  have beyondFront : front.length < (span bandwidth condition (front ++ back)).length := by omega
  have read := isPrefix.getElem beyondFront
  have inside : front.length < (front ++ back).length :=
    Nat.lt_of_lt_of_le beyondFront isPrefix.length_le
  have inBack : (front ++ back)[front.length] ∈ back := by
    rw [List.getElem_append_right (Nat.le_refl _)]
    exact List.getElem_mem _
  have holds := span_holds bandwidth condition _ _ (List.getElem_mem beyondFront)
  rw [read, fails _ inBack] at holds
  cases holds

/-- A span takes all items with a property that no item has after one without it. -/
theorem span_eq_take_filter (bandwidth : Nat) (condition : Item → Bool) (queue : List Item)
    (descends : queue.Pairwise (fun earlier later =>
      condition later = true → condition earlier = true)) :
    span bandwidth condition queue = (queue.filter condition).take bandwidth := by
  have whole : queue.takeWhile condition = queue.filter condition := by
    induction queue with
    | nil => rfl
    | cons item rest ih =>
        obtain ⟨after, others⟩ := List.pairwise_cons.mp descends
        by_cases holds : condition item = true
        · rw [List.takeWhile_cons_of_pos holds, List.filter_cons_of_pos holds, ih others]
        · rw [List.takeWhile_cons_of_neg holds, List.filter_cons_of_neg holds]
          have none := List.filter_eq_nil_iff.mpr
            (fun later member => fun laterHolds => holds (after later member laterHolds))
          exact none.symm
  unfold span
  rw [← List.take_takeWhile, whole]

theorem span_map (bandwidth : Nat) (condition : Other → Bool) (view : Item → Other)
    (queue : List Item) :
    span bandwidth condition (queue.map view) =
      (span bandwidth (fun item => condition (view item)) queue).map view := by
  unfold span
  rw [← List.map_take, List.takeWhile_map]
  rfl

theorem beyond_map (bandwidth : Nat) (condition : Other → Bool) (view : Item → Other)
    (queue : List Item) :
    beyond bandwidth condition (queue.map view) =
      (beyond bandwidth (fun item => condition (view item)) queue).map view := by
  unfold beyond
  rw [span_map, List.length_map, List.map_drop]

/-! ### Partitions -/

/-- A partition by a test that is the same for all selected items keeps their order. -/
theorem filter_split (selected test : Item → Bool) (value : Bool) {items : List Item}
    (constant : ∀ item ∈ items, selected item = true → test item = value) :
    (items.filter test).filter selected ++
        (items.filter (fun item => !test item)).filter selected = items.filter selected := by
  have all : ∀ flag : Item → Bool,
      (∀ item ∈ items, selected item = true → flag item = true) →
      (items.filter flag).filter selected = items.filter selected := by
    intro flag passes
    rw [List.filter_filter]
    apply List.filter_congr
    intro item member
    cases chosen : selected item with
    | false => rfl
    | true => exact passes item member chosen
  have none : ∀ flag : Item → Bool,
      (∀ item ∈ items, selected item = true → flag item = false) →
      (items.filter flag).filter selected = [] := by
    intro flag fails
    apply List.filter_eq_nil_iff.mpr
    intro item member chosen
    obtain ⟨among, passed⟩ := List.mem_filter.mp member
    rw [fails item among chosen] at passed
    cases passed
  cases value with
  | false =>
      rw [none test constant, all _ (fun item member chosen => by
        rw [constant item member chosen]; rfl)]
      rfl
  | true =>
      rw [all test constant, none _ (fun item member chosen => by
        rw [constant item member chosen]; rfl)]
      exact List.append_nil _

/-- `std::stable_partition` with a predicate that changes a state. -/
def partition (ask : State → Item → Bool × State) :
    State → List Item → (List Item × List Item) × State
  | state, [] => (([], []), state)
  | state, item :: rest =>
      let asked := ask state item
      let others := partition ask asked.2 rest
      (if asked.1 then (item :: others.1.1, others.1.2) else (others.1.1, item :: others.1.2),
        others.2)

theorem partition_perm (ask : State → Item → Bool × State) (state : State) (items : List Item) :
    ((partition ask state items).1.1 ++ (partition ask state items).1.2).Perm items := by
  induction items generalizing state with
  | nil => exact List.Perm.refl []
  | cons item rest ih =>
      have others := ih (ask state item).2
      unfold partition
      dsimp only
      split
      · exact others.cons item
      · exact List.perm_middle.trans (others.cons item)

theorem partition_map (ask : State → Other → Bool × State) (view : Item → Other) (state : State)
    (items : List Item) :
    partition ask state (items.map view) =
      (((partition (fun reached item => ask reached (view item)) state items).1.1.map view,
        (partition (fun reached item => ask reached (view item)) state items).1.2.map view),
        (partition (fun reached item => ask reached (view item)) state items).2) := by
  induction items generalizing state with
  | nil => rfl
  | cons item rest ih =>
      rw [List.map_cons, partition, ih, partition]
      dsimp only
      split <;> rfl

theorem partition_invariant (ask : State → Item → Bool × State) (Invariant : State → Prop)
    (items : List Item)
    (preserved : ∀ state, ∀ item ∈ items, Invariant state → Invariant (ask state item).2)
    (state : State) (initial : Invariant state) :
    Invariant (partition ask state items).2 := by
  induction items generalizing state with
  | nil => exact initial
  | cons item rest ih =>
      apply ih
      · intro other next member
        exact preserved other next (List.mem_cons_of_mem item member)
      · exact preserved state item List.mem_cons_self initial

/-- What a refusal says of an item still holds of it after the partition. -/
theorem partition_refused (ask : State → Item → Bool × State) (Refused : State → Item → Prop)
    (refuses : ∀ state item, (ask state item).1 = false → Refused (ask state item).2 item)
    (kept : ∀ state item other, Refused state item → Refused (ask state other).2 item)
    (state : State) (items : List Item) :
    ∀ item ∈ (partition ask state items).1.2, Refused (partition ask state items).2 item := by
  induction items generalizing state with
  | nil =>
      intro item member
      cases member
  | cons first rest ih =>
      have others := ih (ask state first).2
      intro item member
      unfold partition at member
      dsimp only at member
      by_cases accepted : (ask state first).1 = true
      · rw [if_pos accepted] at member
        exact others item member
      · rw [if_neg accepted] at member
        rcases List.mem_cons.mp member with isFirst | later
        · subst isFirst
          apply partition_invariant ask (fun reached => Refused reached item) rest
          · intro reached other _member refused
            exact kept reached item other refused
          · exact refuses state item (Bool.eq_false_iff.mpr accepted)
        · exact others item later

/-- When a question lowers a value only by the cost of the item it accepts, a
partition lowers it only by the cost of all the items it accepts. -/
theorem partition_spends (ask : State → Item → Bool × State) (value : State → Int)
    (costs : Item → Bool)
    (each : ∀ state item, value state ≤ value (ask state item).2 +
      ((ask state item).1 && costs item).toNat)
    (state : State) (items : List Item) :
    value state ≤ value (partition ask state items).2 +
      (partition ask state items).1.1.countP costs := by
  induction items generalizing state with
  | nil =>
      change value state ≤ value state + 0
      omega
  | cons item rest ih =>
      have first := each state item
      have others := ih (ask state item).2
      unfold partition
      dsimp only
      cases accepted : (ask state item).1 with
      | false =>
          rw [accepted, Bool.false_and, Bool.toNat_false] at first
          rw [if_neg Bool.false_ne_true]
          dsimp only
          omega
      | true =>
          rw [accepted, Bool.true_and] at first
          rw [if_pos rfl]
          dsimp only
          cases costly : costs item with
          | false =>
              rw [costly, Bool.toNat_false] at first
              rw [List.countP_cons_of_neg (Bool.eq_false_iff.mp costly)]
              omega
          | true =>
              rw [costly, Bool.toNat_true] at first
              rw [List.countP_cons_of_pos costly]
              omega

def answers (ask : State → Item → Bool × State) : State → List Item → List Bool
  | _, [] => []
  | state, item :: rest => (ask state item).1 :: answers ask (ask state item).2 rest

/-- When each question gives the weight of the item that it accepts to a value,
and of no other, a partition keeps the value with the weight of what is left. -/
theorem partition_conserves (ask : State → Item → Bool × State) (value : State → Nat)
    (weight : Item → Nat) (bound : Nat) (items : List Item)
    (each : ∀ state, ∀ item ∈ items, value state + weight item ≤ bound →
      value (ask state item).2 + (if (ask state item).1 then 0 else weight item) =
        value state + weight item)
    (state : State) (few : value state + (items.map weight).sum ≤ bound) :
    value (partition ask state items).2 + ((partition ask state items).1.2.map weight).sum =
      value state + (items.map weight).sum := by
  induction items generalizing state with
  | nil => rfl
  | cons item rest ih =>
      rw [List.map_cons, List.sum_cons] at few ⊢
      have first := each state item List.mem_cons_self (by omega)
      have keeps := ih (fun other next member => each other next (List.mem_cons_of_mem item member))
      have others := keeps (ask state item).2
      unfold partition
      dsimp only
      cases accepted : (ask state item).1 with
      | false =>
          rw [accepted, if_neg Bool.false_ne_true] at first
          rw [if_neg Bool.false_ne_true]
          dsimp only
          rw [List.map_cons, List.sum_cons]
          have later := others (by omega)
          omega
      | true =>
          rw [accepted, if_pos rfl] at first
          rw [if_pos rfl]
          have later := others (by omega)
          dsimp only
          omega

theorem partition_logs {Note : Type} (ask : State → Item → Bool × State)
    (note : Bool → Note) (Logged : List Note → State → Prop)
    (logs : ∀ log state item, Logged log state →
      Logged (log ++ [note (ask state item).1]) (ask state item).2)
    (log : List Note) (state : State) (items : List Item) (initial : Logged log state) :
    Logged (log ++ (answers ask state items).map note) (partition ask state items).2 := by
  induction items generalizing log state with
  | nil =>
      rw [answers, List.map_nil, List.append_nil]
      exact initial
  | cons item rest ih =>
      have later := ih _ _ (logs log state item initial)
      rw [List.append_assoc] at later
      exact later

/-! ### Loops over a queue -/

theorem foldlM_invariant (turn : State → Item → Option State) (Invariant : State → Prop)
    (items : List Item)
    (preserved : ∀ state, ∀ item ∈ items, ∀ next, Invariant state → turn state item = some next →
      Invariant next)
    (state last : State) (initial : Invariant state)
    (ran : items.foldlM turn state = some last) : Invariant last := by
  induction items generalizing state with
  | nil =>
      cases ran
      exact initial
  | cons item rest ih =>
      obtain ⟨next, first, remaining⟩ := Option.bind_eq_some_iff.mp ran
      exact ih (fun other later member => preserved other later (List.mem_cons_of_mem item member))
        next (preserved state item List.mem_cons_self next initial first) remaining

/-- A loop succeeds when every turn does and keeps what the next one needs. -/
theorem foldlM_succeeds (turn : State → Item → Option State) (Invariant : State → Prop)
    (items : List Item)
    (each : ∀ state, ∀ item ∈ items, Invariant state →
      ∃ next, turn state item = some next ∧ Invariant next)
    (state : State) (initial : Invariant state) :
    ∃ last, items.foldlM turn state = some last ∧ Invariant last := by
  induction items generalizing state with
  | nil => exact ⟨state, rfl, initial⟩
  | cons item rest ih =>
      obtain ⟨next, first, kept⟩ := each state item List.mem_cons_self initial
      obtain ⟨last, remaining, done⟩ := ih
        (fun other later member => each other later (List.mem_cons_of_mem item member)) next kept
      refine ⟨last, ?_, done⟩
      rw [List.foldlM_cons, first]
      exact remaining

/-- A loop that visits the items in order and may change each of them, a state
and nothing else. -/
def sweep (visit : State → Item → Option (Item × State)) :
    State → List Item → Option (List Item × State)
  | state, [] => some ([], state)
  | state, item :: rest =>
      (visit state item).bind fun (visited, next) =>
        (sweep visit next rest).map fun (others, last) => (visited :: others, last)

theorem sweep_cons (visit : State → Item → Option (Item × State)) (state : State) (item : Item)
    (rest : List Item) :
    sweep visit state (item :: rest) =
      (visit state item).bind (fun visited =>
        (sweep visit visited.2 rest).map (fun others => (visited.1 :: others.1, others.2))) := rfl

theorem sweep_append (visit : State → Item → Option (Item × State)) (state : State)
    (front rest : List Item) :
    sweep visit state (front ++ rest) =
      (sweep visit state front).bind (fun visited =>
        (sweep visit visited.2 rest).map (fun others => (visited.1 ++ others.1, others.2))) := by
  induction front generalizing state with
  | nil => exact Option.map_id'.symm
  | cons item front ih =>
      rw [List.cons_append, sweep_cons, sweep_cons, Option.bind_assoc]
      apply congrArg
      funext visited
      rw [ih, Option.map_bind, Option.bind_map]
      apply congrArg
      funext others
      rw [Function.comp_apply, Function.comp_apply, Option.map_map]
      rfl

/-- What every visit keeps of the whole queue and the state, a loop keeps. -/
theorem sweep_invariant (visit : State → Item → Option (Item × State))
    (Invariant : List Item → State → Prop)
    (each : ∀ front item rest state visited next, Invariant (front ++ item :: rest) state →
      visit state item = some (visited, next) → Invariant (front ++ visited :: rest) next)
    (front items : List Item) (state : State) (result : List Item × State)
    (initial : Invariant (front ++ items) state) (ran : sweep visit state items = some result) :
    Invariant (front ++ result.1) result.2 := by
  induction items generalizing front state result with
  | nil =>
      cases ran
      exact initial
  | cons item rest ih =>
      obtain ⟨⟨visited, next⟩, first, others⟩ := Option.bind_eq_some_iff.mp ran
      obtain ⟨⟨later, last⟩, remaining, same⟩ := Option.map_eq_some_iff.mp others
      subst same
      have kept := each front item rest state visited next initial first
      rw [List.append_cons] at kept
      have done := ih (front ++ [visited]) next (later, last) kept remaining
      rw [← List.append_cons] at done
      exact done

/-- A loop whose every visit gets on, or leaves its item and what matters of the
state, gets on or leaves all of them. -/
theorem sweep_idle {Kept : Type} (visit : State → Item → Option (Item × State))
    (progress : State → Int) (keep : State → Kept)
    (each : ∀ state item visited next, visit state item = some (visited, next) →
      (visited = item ∧ keep next = keep state ∧ progress next = progress state) ∨
        progress state < progress next)
    (items : List Item) (state : State) (result : List Item × State)
    (ran : sweep visit state items = some result) :
    (result.1 = items ∧ keep result.2 = keep state ∧ progress result.2 = progress state) ∨
      progress state < progress result.2 := by
  induction items generalizing state result with
  | nil =>
      cases ran
      exact Or.inl ⟨rfl, rfl, rfl⟩
  | cons item rest ih =>
      obtain ⟨⟨visited, next⟩, first, others⟩ := Option.bind_eq_some_iff.mp ran
      obtain ⟨⟨later, last⟩, remaining, same⟩ := Option.map_eq_some_iff.mp others
      subst same
      rcases each state item visited next first with ⟨left, kept, still⟩ | further
      · rcases ih next (later, last) remaining with ⟨leftRest, keptRest, stillRest⟩ | furtherRest
        · refine Or.inl ⟨?_, keptRest.trans kept, stillRest.trans still⟩
          change visited :: later = item :: rest
          change later = rest at leftRest
          rw [left, leftRest]
        · rw [still] at furtherRest
          exact Or.inr furtherRest
      · rcases ih next (later, last) remaining with ⟨_, _, stillRest⟩ | furtherRest
        · exact Or.inr (by rw [stillRest]; exact further)
        · exact Or.inr (further.trans furtherRest)

/-- A loop succeeds when every visit does and keeps what the next one needs of
the items that are visited and of those that are not. -/
theorem sweep_passes (visit : State → Item → Option (Item × State))
    (Invariant : List Item → List Item → State → Prop)
    (each : ∀ front item rest state, Invariant front (item :: rest) state →
      ∃ visited next, visit state item = some (visited, next) ∧
        Invariant (front ++ [visited]) rest next)
    (front items : List Item) (state : State) (initial : Invariant front items state) :
    ∃ result, sweep visit state items = some result ∧
      Invariant (front ++ result.1) [] result.2 := by
  induction items generalizing front state with
  | nil =>
      refine ⟨([], state), rfl, ?_⟩
      rw [List.append_nil]
      exact initial
  | cons item rest ih =>
      obtain ⟨visited, next, first, kept⟩ := each front item rest state initial
      obtain ⟨later, remaining, done⟩ := ih (front ++ [visited]) next kept
      rw [← List.append_cons] at done
      refine ⟨(visited :: later.1, later.2), ?_, done⟩
      unfold sweep
      rw [first]
      change (sweep visit next rest).map _ = _
      rw [remaining]
      rfl

theorem sweep_succeeds (visit : State → Item → Option (Item × State))
    (Invariant : List Item → State → Prop)
    (each : ∀ front item rest state, Invariant (front ++ item :: rest) state →
      ∃ visited next, visit state item = some (visited, next) ∧
        Invariant (front ++ visited :: rest) next)
    (front items : List Item) (state : State) (initial : Invariant (front ++ items) state) :
    ∃ result, sweep visit state items = some result ∧ Invariant (front ++ result.1) result.2 := by
  obtain ⟨result, swept, kept⟩ := sweep_passes visit
    (fun before rest reached => Invariant (before ++ rest) reached) (by
      intro before item rest reached holds
      obtain ⟨visited, next, step, kept⟩ := each before item rest reached holds
      rw [List.append_cons] at kept
      exact ⟨visited, next, step, kept⟩) front items state initial
  rw [List.append_nil] at kept
  exact ⟨result, swept, kept⟩

/-- Every item of a queue is visited, and what the visit returns takes its place. -/
theorem sweep_at (visit : State → Item → Option (Item × State)) (state : State)
    (items : List Item) (result : List Item × State)
    (ran : sweep visit state items = some result) (index : Nat) (item : Item)
    (before : items[index]? = some item) :
    ∃ reached visited next, visit reached item = some (visited, next) ∧
      result.1[index]? = some visited := by
  induction items generalizing state index result with
  | nil => cases before
  | cons first rest ih =>
      obtain ⟨⟨visited, next⟩, visits, others⟩ := Option.bind_eq_some_iff.mp ran
      obtain ⟨later, remaining, same⟩ := Option.map_eq_some_iff.mp others
      subst same
      cases index with
      | zero =>
          cases before
          exact ⟨state, visited, next, visits, rfl⟩
      | succ index => exact ih next later remaining index before

theorem sweep_length (visit : State → Item → Option (Item × State)) (state : State)
    (items : List Item) (result : List Item × State)
    (ran : sweep visit state items = some result) : result.1.length = items.length := by
  apply sweep_invariant visit (fun visited _ => visited.length = items.length) ?_ [] items state
    result rfl ran
  intro front item rest reached visited next kept _step
  rw [List.length_append, List.length_cons] at kept ⊢
  exact kept

/-- Every item after a loop comes from the visit of the item before it. -/
theorem sweep_visits (visit : State → Item → Option (Item × State)) (state : State)
    (items : List Item) (result : List Item × State)
    (ran : sweep visit state items = some result) (index : Nat) (item after : Item)
    (before : items[index]? = some item) (present : result.1[index]? = some after) :
    ∃ reached next, visit reached item = some (after, next) := by
  obtain ⟨reached, visited, next, visits, there⟩ :=
    sweep_at visit state items result ran index item before
  rw [there] at present
  cases present
  exact ⟨reached, next, visits⟩

/-! ### The largest item -/

/-- `std::max_element`: the index of the last item that a scan prefers. -/
def maxElement (less : Item → Item → Bool) : List Item → Option Nat
  | [] => none
  | first :: rest => some (scan first 0 1 rest)
where
  scan (best : Item) (index position : Nat) : List Item → Nat
    | [] => index
    | item :: rest =>
        if less best item then scan item position (position + 1) rest
        else scan best index (position + 1) rest

/-- The first item with the largest key among those that match, or any item
when none matches. -/
structure Preferred (isMatch : Item → Bool) (key : Item → Nat) (items : List Item) (index : Nat)
    (best : Item) : Prop where
  present : items[index]? = some best
  absent : isMatch best = false → ∀ item ∈ items, isMatch item = false
  largest : ∀ item ∈ items, isMatch item = true → key item ≤ key best
  first : ∀ earlier item, earlier < index → items[earlier]? = some item → isMatch item = true →
    key item < key best

/-- The comparison that prefers every item to one that does not match. -/
def preferLess (isMatch : Item → Bool) (key : Item → Nat) (lhs rhs : Item) : Bool :=
  !isMatch lhs || (isMatch rhs && decide (key lhs < key rhs))

theorem scan_preferred (isMatch : Item → Bool) (key : Item → Nat) (front rest : List Item)
    (index : Nat) (best : Item) (found : Preferred isMatch key front index best) :
    ∃ last, Preferred isMatch key (front ++ rest)
      (maxElement.scan (preferLess isMatch key) best index front.length rest) last := by
  induction rest generalizing front index best with
  | nil =>
      rw [List.append_nil]
      exact ⟨best, found⟩
  | cons item rest ih =>
      have within := (List.getElem?_eq_some_iff.mp found.present).1
      have grown : (front ++ [item]).length = front.length + 1 := List.length_append
      have read : ∀ {position : Nat} {other : Item}, (front ++ [item])[position]? = some other →
          front[position]? = some other ∨ (position = front.length ∧ other = item) := by
        intro position other present
        rcases Nat.lt_or_ge position front.length with inside | beyondFront
        · rw [List.getElem?_append_left inside] at present
          exact Or.inl present
        · rw [List.getElem?_append_right beyondFront] at present
          obtain ⟨inSingle, same⟩ := List.getElem?_eq_some_iff.mp present
          rw [List.length_singleton] at inSingle
          have isLast : position = front.length := by omega
          subst isLast
          simp only [Nat.sub_self, List.getElem_cons_zero] at same
          exact Or.inr ⟨rfl, same.symm⟩
      rw [List.append_cons]
      unfold maxElement.scan
      rw [← grown]
      cases preferred : preferLess isMatch key best item with
      | true =>
          rw [if_pos rfl]
          apply ih
          unfold preferLess at preferred
          rw [Bool.or_eq_true, Bool.and_eq_true, decide_eq_true_eq, Bool.not_eq_true'] at preferred
          constructor
          · exact List.getElem?_concat_length
          · intro unmatched other member
            rcases List.mem_append.mp member with older | isItem
            · rcases preferred with noMatch | ⟨isMatched, _larger⟩
              · exact found.absent noMatch other older
              · rw [isMatched] at unmatched
                cases unmatched
            · rw [List.mem_singleton.mp isItem]
              exact unmatched
          · intro other member matched
            rcases List.mem_append.mp member with older | isItem
            · rcases preferred with noMatch | ⟨_isMatched, larger⟩
              · rw [found.absent noMatch other older] at matched
                cases matched
              · exact Nat.le_of_lt (Nat.lt_of_le_of_lt (found.largest other older matched) larger)
            · rw [List.mem_singleton.mp isItem]
          · intro earlier other before present matched
            rcases read present with inFront | ⟨isLast, _isItem⟩
            · have older := List.mem_of_getElem? inFront
              rcases preferred with noMatch | ⟨_isMatched, larger⟩
              · rw [found.absent noMatch other older] at matched
                cases matched
              · exact Nat.lt_of_le_of_lt (found.largest other older matched) larger
            · omega
      | false =>
          rw [if_neg Bool.false_ne_true]
          apply ih
          unfold preferLess at preferred
          rw [Bool.or_eq_false_iff, Bool.not_eq_false', Bool.and_eq_false_iff,
            decide_eq_false_iff_not, Nat.not_lt] at preferred
          constructor
          · rw [List.getElem?_append_left within]
            exact found.present
          · intro unmatched
            rw [preferred.1] at unmatched
            cases unmatched
          · intro other member matched
            rcases List.mem_append.mp member with older | isItem
            · exact found.largest other older matched
            · rw [List.mem_singleton.mp isItem] at matched ⊢
              rcases preferred.2 with unmatched | smaller
              · rw [unmatched] at matched
                cases matched
              · exact smaller
          · intro earlier other before present matched
            rcases read present with inFront | ⟨isLast, _isItem⟩
            · exact found.first earlier other before inFront matched
            · omega

theorem maxElement_preferred (isMatch : Item → Bool) (key : Item → Nat) (items : List Item)
    (index : Nat) (ran : maxElement (preferLess isMatch key) items = some index) :
    ∃ best, Preferred isMatch key items index best := by
  cases items with
  | nil => cases ran
  | cons item rest =>
      cases ran
      apply scan_preferred isMatch key [item] rest 0 item
      constructor
      · rfl
      · intro unmatched other member
        rw [List.mem_singleton.mp member]
        exact unmatched
      · intro other member _matched
        rw [List.mem_singleton.mp member]
      · intro earlier other before
        exact absurd before (Nat.not_lt_zero earlier)

/-- `std::min_element`. -/
def minElement (less : Item → Item → Bool) (items : List Item) : Option Nat :=
  maxElement (fun lhs rhs => less rhs lhs) items

structure Greatest {Key : Type} [LinearOrder Key] (key : Item → Key) (items : List Item)
    (index : Nat) (best : Item) : Prop where
  present : items[index]? = some best
  greatest : ∀ item ∈ items, key item ≤ key best

theorem scan_greatest {Key : Type} [LinearOrder Key] {less : Item → Item → Bool}
    {key : Item → Key} (compares : ∀ lhs rhs, less lhs rhs = decide (key lhs < key rhs))
    (front rest : List Item) (index : Nat) (best : Item)
    (found : Greatest key front index best) :
    ∃ last, Greatest key (front ++ rest) (maxElement.scan less best index front.length rest)
      last := by
  induction rest generalizing front index best with
  | nil =>
      rw [List.append_nil]
      exact ⟨best, found⟩
  | cons item rest ih =>
      have grown : (front ++ [item]).length = front.length + 1 := List.length_append
      rw [List.append_cons]
      unfold maxElement.scan
      rw [← grown, compares]
      by_cases larger : key best < key item
      · rw [decide_eq_true larger, if_pos rfl]
        apply ih
        refine ⟨List.getElem?_concat_length, ?_⟩
        intro other member
        rcases List.mem_append.mp member with older | isItem
        · exact (found.greatest other older).trans (le_of_lt larger)
        · rw [List.mem_singleton.mp isItem]
      · rw [decide_eq_false larger, if_neg Bool.false_ne_true]
        apply ih
        refine ⟨?_, ?_⟩
        · rw [List.getElem?_append_left (List.getElem?_eq_some_iff.mp found.present).1]
          exact found.present
        · intro other member
          rcases List.mem_append.mp member with older | isItem
          · exact found.greatest other older
          · rw [List.mem_singleton.mp isItem]
            exact not_lt.mp larger

theorem maxElement_greatest {Key : Type} [LinearOrder Key] {less : Item → Item → Bool}
    (key : Item → Key) (compares : ∀ lhs rhs, less lhs rhs = decide (key lhs < key rhs))
    (items : List Item) (nonempty : items ≠ []) :
    ∃ index best, maxElement less items = some index ∧ Greatest key items index best := by
  cases items with
  | nil => exact absurd rfl nonempty
  | cons first rest =>
      have alone : Greatest key [first] 0 first := by
        refine ⟨rfl, ?_⟩
        intro item member
        rw [List.mem_singleton.mp member]
      obtain ⟨best, greatest⟩ := scan_greatest compares [first] rest 0 first alone
      exact ⟨_, best, rfl, greatest⟩

theorem minElement_least {Key : Type} [LinearOrder Key] {less : Item → Item → Bool}
    (key : Item → Key) (compares : ∀ lhs rhs, less lhs rhs = decide (key lhs < key rhs))
    (items : List Item) (nonempty : items ≠ []) :
    ∃ index best, minElement less items = some index ∧ items[index]? = some best ∧
      ∀ item ∈ items, key best ≤ key item := by
  obtain ⟨index, best, ran, greatest⟩ :=
    maxElement_greatest (fun item => OrderDual.toDual (key item))
      (fun lhs rhs => compares rhs lhs) items nonempty
  exact ⟨index, best, ran, greatest.present, greatest.greatest⟩

end ChampSim.Queue
