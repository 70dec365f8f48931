/-
This file is a small library about lists ranked by a key: an item of a better key
stands before an item of a worse one, and among items of one key the position is
the order of arrival. A new item goes behind the items of its own key.

A ranked list is determined by its queues, the sublists of one key; so an
operation on the queues determines the operation on the list. The weights of the
items that stand ahead of a key, and up to the end of its queue, say how far a
greedy visit gets.
-/

import Mathlib.Data.List.Sort
import Mathlib.Order.Defs.Unbundled
import OrderForge.Greedy

namespace Ranked

variable {Item Key : Type}

/-- No item stands behind one of a worse key. -/
def Sorted (before : Key → Key → Prop) (key : Item → Key) (items : List Item) : Prop :=
  items.Pairwise fun first second => ¬ before (key second) (key first)

/-- The items of one key. -/
def queue [DecidableEq Key] (key : Item → Key) (items : List Item) (rank : Key) : List Item :=
  items.filter fun item => key item = rank

/-- Put an item behind the items of its own key. -/
def insert (before : Key → Key → Prop) [DecidableRel before] (key : Item → Key) (item : Item)
    (items : List Item) : List Item :=
  items.orderedInsert (fun first second => before (key first) (key second)) item

variable {before : Key → Key → Prop} {key : Item → Key}

theorem Sorted.sublist {first second : List Item} (sorted : Sorted before key second)
    (sublist : first.Sublist second) : Sorted before key first :=
  List.Pairwise.sublist sublist sorted

/-- A key that is not worse than a better one is better. -/
theorem before_of_not_before [IsStrictTotalOrder Key before] {first second third : Key}
    (notWorse : ¬ before second first) (better : before second third) : before first third := by
  rcases Std.Trichotomous.rel_or_eq_or_rel_swap (r := before) (a := first) (b := second)
    with earlier | same | later
  · exact IsTrans.trans _ _ _ earlier better
  · exact same ▸ better
  · exact absurd later notWorse

/-- What stands behind an item has no better key. -/
theorem Sorted.behind {front back : List Item} {item other : Item}
    (sorted : Sorted before key (front ++ item :: back)) (member : other ∈ back) :
    ¬ before (key other) (key item) :=
  (List.pairwise_cons.mp (List.pairwise_append.mp sorted).2.1).1 other member

/-- What stands in front of an item has no worse key. -/
theorem Sorted.front {front back : List Item} {item other : Item}
    (sorted : Sorted before key (front ++ item :: back)) (member : other ∈ front) :
    ¬ before (key item) (key other) :=
  (List.pairwise_append.mp sorted).2.2 other member item List.mem_cons_self

/-- A rank better than the key of the head of a ranked list is the key of no item. -/
theorem ne_of_before_head [IsStrictTotalOrder Key before] {head : Item} {rest : List Item}
    {rank : Key} (headFirst : ∀ item ∈ rest, ¬ before (key item) (key head))
    (early : before rank (key head)) : ∀ item ∈ head :: rest, key item ≠ rank := by
  intro item member equal
  rcases List.mem_cons.mp member with same | inRest
  · exact Std.Irrefl.irrefl _ (same ▸ equal ▸ early)
  · exact headFirst item inRest (equal ▸ early)

/-- What a condition that spreads to the front holds of comes first. -/
theorem filter_append_filter_not {within : Item → Prop} [DecidablePred within]
    {items : List Item} (closed : items.Pairwise fun first second => within second → within first) :
    (items.filter fun item => within item) ++ (items.filter fun item => ¬ within item) = items := by
  induction items with
  | nil => rfl
  | cons head rest inductionHypothesis =>
    obtain ⟨headFirst, restClosed⟩ := List.pairwise_cons.mp closed
    by_cases inside : within head
    · rw [List.filter_cons_of_pos (by simpa), List.filter_cons_of_neg (by simpa),
        List.cons_append, inductionHypothesis restClosed]
    · have outside : ∀ item ∈ head :: rest, ¬ within item := by
        intro item member
        rcases List.mem_cons.mp member with same | behind
        · exact same ▸ inside
        · exact fun within_ => inside (headFirst item behind within_)
      rw [List.filter_eq_nil_iff.mpr fun item member => by simpa using outside item member,
        List.filter_eq_self.mpr fun item member => decide_eq_true (outside item member),
        List.nil_append]

section Queue

variable [DecidableEq Key]

@[simp]
theorem mem_queue {items : List Item} {rank : Key} {item : Item} :
    item ∈ queue key items rank ↔ item ∈ items ∧ key item = rank := by
  simp [queue]

theorem queue_cons_self (item : Item) (items : List Item) :
    queue key (item :: items) (key item) = item :: queue key items (key item) := by
  simp [queue]

theorem queue_cons_of_ne {item : Item} {rank : Key} (other : key item ≠ rank)
    (items : List Item) : queue key (item :: items) rank = queue key items rank := by
  simp [queue, other]

theorem queue_of_none {items : List Item} {rank : Key} (none : ∀ item ∈ items, key item ≠ rank) :
    queue key items rank = [] :=
  List.filter_eq_nil_iff.mpr fun item member => by simpa using none item member

variable [IsStrictTotalOrder Key before]

/-- The heads of two ranked lists with the same queues have the same key. -/
theorem key_head_eq {first second : Item} {firstRest secondRest : List Item}
    (firstSorted : Sorted before key (first :: firstRest))
    (secondSorted : Sorted before key (second :: secondRest))
    (same : ∀ rank, queue key (first :: firstRest) rank = queue key (second :: secondRest) rank) :
    key first = key second := by
  have least : ∀ {head other : Item} {rest : List Item}, Sorted before key (head :: rest) →
      other ∈ head :: rest → ¬ before (key other) (key head) := by
    intro head other rest sorted member
    rcases List.mem_cons.mp member with equal | behind
    · rw [equal]
      exact Std.Irrefl.irrefl _
    · exact (List.pairwise_cons.mp sorted).1 other behind
  have shared : ∀ item, item ∈ first :: firstRest ↔ item ∈ second :: secondRest := by
    intro item
    have inQueue : item ∈ queue key (first :: firstRest) (key item) ↔ _ := mem_queue
    rw [same, mem_queue] at inQueue
    simpa using inQueue.symm
  exact Std.Trichotomous.trichotomous _ _
    (least secondSorted ((shared first).mp List.mem_cons_self))
    (least firstSorted ((shared second).mpr List.mem_cons_self))

/-- A ranked list is determined by its queues. -/
theorem eq_of_queue {first second : List Item} (firstSorted : Sorted before key first)
    (secondSorted : Sorted before key second)
    (same : ∀ rank, queue key first rank = queue key second rank) : first = second := by
  induction first generalizing second with
  | nil =>
    cases second with
    | nil => rfl
    | cons item rest =>
      have absent := same (key item)
      rw [queue_cons_self] at absent
      cases absent
  | cons item rest inductionHypothesis =>
    cases second with
    | nil =>
      have absent := same (key item)
      rw [queue_cons_self] at absent
      cases absent
    | cons other others =>
      have keys := key_head_eq firstSorted secondSorted same
      have heads := same (key item)
      rw [queue_cons_self, keys, queue_cons_self] at heads
      obtain ⟨equal, -⟩ := List.cons.inj heads
      subst equal
      rw [inductionHypothesis (List.pairwise_cons.mp firstSorted).2
        (List.pairwise_cons.mp secondSorted).2 fun rank => ?_]
      by_cases own : key item = rank
      · have tails := same rank
        rw [← own, queue_cons_self, queue_cons_self] at tails
        rw [← own]
        exact (List.cons.inj tails).2
      · have tails := same rank
        rwa [queue_cons_of_ne own, queue_cons_of_ne own] at tails

end Queue

/-! ### Insertion -/

section Insert

variable [DecidableRel before]

theorem insert_perm (item : Item) (items : List Item) :
    (insert before key item items).Perm (item :: items) := List.perm_orderedInsert _ _ _

@[simp]
theorem mem_insert {item other : Item} {items : List Item} :
    other ∈ insert before key item items ↔ other = item ∨ other ∈ items := by
  rw [(insert_perm item items).mem_iff, List.mem_cons]

variable [IsStrictTotalOrder Key before]

theorem insert_sorted {items : List Item} (sorted : Sorted before key items) (item : Item) :
    Sorted before key (insert before key item items) := by
  induction items with
  | nil => exact List.pairwise_singleton _ _
  | cons head rest inductionHypothesis =>
    obtain ⟨headFirst, restSorted⟩ := List.pairwise_cons.mp sorted
    rw [insert, List.orderedInsert_cons]
    split_ifs with early
    · refine List.pairwise_cons.mpr ⟨fun other member worse => ?_, sorted⟩
      rcases List.mem_cons.mp member with equal | behind
      · exact Std.Irrefl.irrefl _ (IsTrans.trans _ _ _ early (equal ▸ worse))
      · exact headFirst other behind (IsTrans.trans _ _ _ worse early)
    · refine List.pairwise_cons.mpr ⟨fun other member => ?_, inductionHypothesis restSorted⟩
      rcases mem_insert.mp member with equal | behind
      · exact equal ▸ early
      · exact headFirst other behind

/-- The new item is the last of its queue; the other queues stay. -/
theorem queue_insert [DecidableEq Key] {items : List Item} (sorted : Sorted before key items)
    (item : Item) (rank : Key) :
    queue key (insert before key item items) rank =
      queue key items rank ++ if key item = rank then [item] else [] := by
  induction items with
  | nil => simp [insert, queue, List.filter_cons]
  | cons head rest inductionHypothesis =>
    obtain ⟨headFirst, restSorted⟩ := List.pairwise_cons.mp sorted
    have tail := inductionHypothesis restSorted
    rw [insert, List.orderedInsert_cons]
    by_cases early : before (key item) (key head)
    · rw [if_pos early]
      by_cases own : key item = rank
      · have worse : queue key (head :: rest) rank = [] :=
          queue_of_none (ne_of_before_head headFirst (own ▸ early))
        rw [if_pos own, worse, ← own, queue_cons_self, own, worse, List.nil_append]
      · rw [if_neg own, queue_cons_of_ne own, List.append_nil]
    · rw [if_neg early]
      by_cases same : key head = rank
      · subst same
        rw [queue_cons_self, queue_cons_self, List.cons_append, ← tail]
        rfl
      · rw [queue_cons_of_ne same, queue_cons_of_ne same, ← tail]
        rfl

end Insert

/-! ### What stands ahead of a key -/

/-- The weight of the items whose key is better. -/
def ahead (before : Key → Key → Prop) [DecidableRel before] (key : Item → Key)
    (weight : Item → Nat) (items : List Item) (rank : Key) : Nat :=
  Greedy.total weight (items.filter fun item => before (key item) rank)

/-- The weight of the items whose key is not worse. -/
def upTo (before : Key → Key → Prop) [DecidableRel before] (key : Item → Key)
    (weight : Item → Nat) (items : List Item) (rank : Key) : Nat :=
  Greedy.total weight (items.filter fun item => ¬ before rank (key item))

section Ahead

variable [DecidableRel before] (weight : Item → Nat)

theorem ahead_append (first second : List Item) (rank : Key) :
    ahead before key weight (first ++ second) rank =
      ahead before key weight first rank + ahead before key weight second rank := by
  rw [ahead, List.filter_append, Greedy.total_append]
  rfl

theorem upTo_append (first second : List Item) (rank : Key) :
    upTo before key weight (first ++ second) rank =
      upTo before key weight first rank + upTo before key weight second rank := by
  rw [upTo, List.filter_append, Greedy.total_append]
  rfl

theorem ahead_of_all {items : List Item} {rank : Key}
    (all : ∀ item ∈ items, before (key item) rank) :
    ahead before key weight items rank = Greedy.total weight items := by
  rw [ahead, List.filter_eq_self.mpr fun item member => decide_eq_true (all item member)]

theorem ahead_of_none {items : List Item} {rank : Key}
    (none : ∀ item ∈ items, ¬ before (key item) rank) :
    ahead before key weight items rank = 0 := by
  rw [ahead, List.filter_eq_nil_iff.mpr fun item member => by simpa using none item member,
    Greedy.total_nil]

theorem upTo_of_all {items : List Item} {rank : Key}
    (all : ∀ item ∈ items, ¬ before rank (key item)) :
    upTo before key weight items rank = Greedy.total weight items := by
  rw [upTo, List.filter_eq_self.mpr fun item member => decide_eq_true (all item member)]

theorem upTo_of_none {items : List Item} {rank : Key}
    (none : ∀ item ∈ items, before rank (key item)) :
    upTo before key weight items rank = 0 := by
  rw [upTo, List.filter_eq_nil_iff.mpr fun item member => by simpa using none item member,
    Greedy.total_nil]

variable [DecidableEq Key] [IsStrictTotalOrder Key before]

/-- What stands up to the end of a queue is what stands ahead of it and the queue. -/
theorem upTo_eq (items : List Item) (rank : Key) :
    upTo before key weight items rank =
      ahead before key weight items rank + Greedy.total weight (queue key items rank) := by
  induction items with
  | nil => rfl
  | cons item rest inductionHypothesis =>
    have both : ¬ (before (key item) rank ∧ before rank (key item)) := fun both =>
      Std.Irrefl.irrefl rank (IsTrans.trans _ _ _ both.2 both.1)
    unfold upTo ahead queue at inductionHypothesis ⊢
    rcases Std.Trichotomous.rel_or_eq_or_rel_swap (r := before) (a := key item) (b := rank)
      with better | same | worse
    · have notWorse : ¬ before rank (key item) := fun worse => both ⟨better, worse⟩
      have other : key item ≠ rank := fun same => notWorse (same ▸ same ▸ better)
      simp only [List.filter_cons, better, notWorse, other, not_false_eq_true, decide_true,
        decide_false, if_true, Bool.false_eq_true, if_false, Greedy.total_cons,
        inductionHypothesis]
      omega
    · have irrefl : ¬ before rank rank := Std.Irrefl.irrefl rank
      simp only [List.filter_cons, same, irrefl, not_false_eq_true, decide_true,
        decide_false, if_true, Bool.false_eq_true, if_false, Greedy.total_cons,
        inductionHypothesis]
      omega
    · have notBetter : ¬ before (key item) rank := fun better => both ⟨better, worse⟩
      have other : key item ≠ rank := fun same => notBetter (same ▸ same ▸ worse)
      simp only [List.filter_cons, worse, notBetter, other, not_true_eq_false, decide_false,
        Bool.false_eq_true, if_false, inductionHypothesis]

/-- A greedy visit reaches a queue with what the items ahead of it leave wanted. -/
theorem queue_left (cut : Item → Nat → Item) (keeps : ∀ item amount, key (cut item amount) =
    key item) {items : List Item} (sorted : Sorted before key items) (quota : Nat) (rank : Key) :
    queue key (Greedy.left weight cut quota items) rank =
      Greedy.left weight cut (quota - ahead before key weight items rank)
        (queue key items rank) := by
  induction items generalizing quota with
  | nil => rfl
  | cons head rest inductionHypothesis =>
    obtain ⟨headFirst, restSorted⟩ := List.pairwise_cons.mp sorted
    have tail := inductionHypothesis restSorted
    rcases Nat.eq_zero_or_pos quota with zero | wanted
    · rw [zero, Greedy.left_zero, Nat.zero_sub, Greedy.left_zero]
    rcases Std.Trichotomous.rel_or_eq_or_rel_swap (r := before) (a := key head) (b := rank)
      with better | same | worse
    · have other : key head ≠ rank := fun equal => Std.Irrefl.irrefl _ (equal ▸ better)
      have split : ahead before key weight (head :: rest) rank =
          weight head + ahead before key weight rest rank := by
        rw [ahead, List.filter_cons_of_pos (by simpa using better), Greedy.total_cons]
        rfl
      rw [split, queue_cons_of_ne other]
      rcases Nat.lt_or_ge quota (weight head) with stops | used
      · rw [Greedy.left_cons_of_lt weight cut wanted rest stops,
          queue_cons_of_ne (by rwa [keeps]), Nat.sub_eq_zero_of_le (by omega), Greedy.left_zero]
      · rw [Greedy.left_cons_of_le weight cut wanted rest used, tail, Nat.sub_add_eq]
    · subst same
      have behind : ahead before key weight rest (key head) = 0 :=
        ahead_of_none weight fun item member => headFirst item member
      have all : ahead before key weight (head :: rest) (key head) = 0 := by
        refine ahead_of_none weight fun item member => ?_
        rcases List.mem_cons.mp member with equal | inRest
        · rw [equal]
          exact Std.Irrefl.irrefl _
        · exact headFirst item inRest
      rw [all, queue_cons_self, Nat.sub_zero]
      rcases Nat.lt_or_ge quota (weight head) with stops | used
      · rw [Greedy.left_cons_of_lt weight cut wanted _ stops,
          Greedy.left_cons_of_lt weight cut wanted _ stops, ← keeps head quota,
          queue_cons_self, keeps]
      · rw [Greedy.left_cons_of_le weight cut wanted _ used,
          Greedy.left_cons_of_le weight cut wanted _ used, tail, behind, Nat.sub_zero]
    · have absent := ne_of_before_head headFirst worse
      rw [queue_of_none absent, Greedy.left_nil]
      refine queue_of_none fun item member equal => ?_
      rcases Greedy.mem_left weight cut member with old | ⟨origin, inItems, amount, -, -, rfl⟩
      · exact absent item old equal
      · exact absent origin inItems ((keeps _ _).symm.trans equal)

end Ahead

end Ranked
