/-
This file is a small library about serving a quota greedily from a list of
weighted items: the items are visited from the front, each gives the smaller of
its weight and what is still wanted, and the visit stops when nothing is wanted
any more. `taken` lists what each visited item gave, `left` is what remains of
the list: fully used items are gone, the one used in part is replaced by its cut
and everything behind it is untouched.

`shape` says once what a greedy visit can look like: the list ran out, or the
quota ended exactly behind some item, or it ended inside one.
-/

import Mathlib.Algebra.BigOperators.Group.List.Basic
import Mathlib.Algebra.Order.BigOperators.Group.List
import Mathlib.Algebra.Order.Group.Nat
import Mathlib.Algebra.Ring.Nat
import Mathlib.Data.List.Nodup

namespace Greedy

variable {Item Other : Type}

/-- The weight of a list of items. -/
def total (weight : Item → Nat) (items : List Item) : Nat := (items.map weight).sum

/-- What each visited item gives. -/
def taken (weight : Item → Nat) : Nat → List Item → List (Item × Nat)
  | _, [] => []
  | quota, item :: rest =>
    if quota = 0 then []
    else (item, min (weight item) quota) :: taken weight (quota - weight item) rest

/-- What remains of the items. -/
def left (weight : Item → Nat) (cut : Item → Nat → Item) : Nat → List Item → List Item
  | _, [] => []
  | quota, item :: rest =>
    if quota = 0 then item :: rest
    else if weight item ≤ quota then left weight cut (quota - weight item) rest
    else cut item quota :: rest

/-- Every item of the list giving its whole weight. -/
def full (weight : Item → Nat) (items : List Item) : List (Item × Nat) :=
  items.map fun item => (item, weight item)

/-- Under distinct keys, the key of an item is not that of another one. -/
theorem absent_of_nodup {Key : Type} {key : Item → Key} {front back : List Item} {item : Item}
    (distinct : ((front ++ item :: back).map key).Nodup) :
    key item ∉ front.map key ∧ key item ∉ back.map key := by
  rw [List.map_append, List.map_cons, List.nodup_middle, List.nodup_cons] at distinct
  exact ⟨fun inFront => distinct.1 (List.mem_append_left _ inFront),
    fun inBack => distinct.1 (List.mem_append_right _ inBack)⟩

section Total

variable (weight : Item → Nat)

@[simp]
theorem total_nil : total weight [] = 0 := rfl

@[simp]
theorem total_cons (item : Item) (rest : List Item) :
    total weight (item :: rest) = weight item + total weight rest := by
  simp [total]

@[simp]
theorem total_append (first second : List Item) :
    total weight (first ++ second) = total weight first + total weight second := by
  simp [total]

theorem weight_le_total {item : Item} {items : List Item} (member : item ∈ items) :
    weight item ≤ total weight items :=
  List.single_le_sum (fun _ _ => Nat.zero_le _) _ (List.mem_map_of_mem member)

theorem total_le_of_sublist {first second : List Item} (sublist : first.Sublist second) :
    total weight first ≤ total weight second :=
  (sublist.map weight).sum_le_sum fun _ _ => Nat.zero_le _

/-- Taking one item out of a list with distinct keys takes its weight away. -/
theorem total_filter_key {Key : Type} [DecidableEq Key] (key : Item → Key) {items : List Item}
    (distinct : (items.map key).Nodup) {item : Item} (member : item ∈ items) :
    total weight (items.filter fun other => key other ≠ key item) + weight item =
      total weight items := by
  obtain ⟨front, back, rfl⟩ := List.append_of_mem member
  obtain ⟨inFront, inBack⟩ := absent_of_nodup distinct
  have others : ∀ part : List Item, key item ∉ part.map key →
      part.filter (fun other => key other ≠ key item) = part := by
    intro part absent
    refine List.filter_eq_self.mpr fun other inPart => ?_
    simpa using fun same : key other = key item => absent (same ▸ List.mem_map_of_mem inPart)
  rw [List.filter_append, List.filter_cons_of_neg (by simp), others front inFront,
    others back inBack, total_append, total_append, total_cons]
  omega

end Total

/-! ### The three shapes of a greedy visit -/

/-- How a greedy visit with the given quota ends: the items, what they gave and what remains
of them. -/
inductive Shape (weight : Item → Nat) (cut : Item → Nat → Item) (quota : Nat) :
    List Item → List (Item × Nat) → List Item → Prop
  /-- The items run out before the quota does. -/
  | exhausted (items : List Item) (short : total weight items < quota) :
      Shape weight cut quota items (full weight items) []
  /-- The quota ends exactly behind an item. -/
  | boundary (done rest : List Item) (exact : total weight done = quota) :
      Shape weight cut quota (done ++ rest) (full weight done) rest
  /-- The quota ends inside an item. -/
  | inside (done : List Item) (item : Item) (rest : List Item)
      (reached : total weight done < quota) (stops : quota < total weight done + weight item) :
      Shape weight cut quota (done ++ item :: rest)
        (full weight done ++ [(item, quota - total weight done)])
        (cut item (quota - total weight done) :: rest)

section Visit

variable (weight : Item → Nat) (cut : Item → Nat → Item)

@[simp]
theorem taken_nil (quota : Nat) : taken weight quota [] = [] := rfl

@[simp]
theorem left_nil (quota : Nat) : left weight cut quota [] = [] := rfl

@[simp]
theorem taken_zero (items : List Item) : taken weight 0 items = [] := by
  cases items <;> rfl

@[simp]
theorem left_zero (items : List Item) : left weight cut 0 items = items := by
  cases items <;> rfl

theorem taken_cons {quota : Nat} (wanted : 0 < quota) (item : Item) (rest : List Item) :
    taken weight quota (item :: rest) =
      (item, min (weight item) quota) :: taken weight (quota - weight item) rest := by
  rw [taken, if_neg wanted.ne']

theorem left_cons_of_le {quota : Nat} (wanted : 0 < quota) {item : Item} (rest : List Item)
    (used : weight item ≤ quota) :
    left weight cut quota (item :: rest) = left weight cut (quota - weight item) rest := by
  rw [left, if_neg wanted.ne', if_pos used]

theorem left_cons_of_lt {quota : Nat} (wanted : 0 < quota) {item : Item} (rest : List Item)
    (stops : quota < weight item) :
    left weight cut quota (item :: rest) = cut item quota :: rest := by
  rw [left, if_neg wanted.ne', if_neg (Nat.not_le.mpr stops)]

/-- A visit with nothing wanted, or of nothing, takes nothing. -/
theorem taken_eq_nil {quota : Nat} {items : List Item} :
    taken weight quota items = [] ↔ quota = 0 ∨ items = [] := by
  cases items with
  | nil => simp
  | cons item rest =>
    rcases Nat.eq_zero_or_pos quota with zero | wanted
    · simp [zero]
    · simp [taken_cons weight wanted, wanted.ne']

/-- Only items of the list give anything. -/
theorem mem_of_taken {quota : Nat} {items : List Item} {gave : Item × Nat}
    (member : gave ∈ taken weight quota items) : gave.1 ∈ items := by
  induction items generalizing quota with
  | nil => cases member
  | cons item rest inductionHypothesis =>
    rcases Nat.eq_zero_or_pos quota with zero | wanted
    · rw [zero, taken_zero] at member
      cases member
    · rw [taken_cons weight wanted] at member
      rcases List.mem_cons.mp member with same | behind
      · exact same ▸ List.mem_cons_self
      · exact List.mem_cons_of_mem _ (inductionHypothesis behind)

/-- Every greedy visit has one of the three shapes. -/
theorem shape (quota : Nat) (items : List Item) :
    Shape weight cut quota items (taken weight quota items) (left weight cut quota items) := by
  induction items generalizing quota with
  | nil =>
    rcases Nat.eq_zero_or_pos quota with zero | wanted
    · exact Shape.boundary [] [] zero.symm
    · exact Shape.exhausted [] wanted
  | cons item rest inductionHypothesis =>
    rcases Nat.eq_zero_or_pos quota with zero | wanted
    · subst zero
      exact Shape.boundary [] (item :: rest) rfl
    rw [taken_cons weight wanted]
    rcases Nat.lt_or_ge quota (weight item) with stops | used
    · rw [left_cons_of_lt weight cut wanted rest stops, Nat.min_eq_right stops.le,
        Nat.sub_eq_zero_of_le stops.le, taken_zero]
      exact Shape.inside [] item rest wanted (by simpa using stops)
    · rw [left_cons_of_le weight cut wanted rest used, Nat.min_eq_left used]
      generalize given : taken weight (quota - weight item) rest = gave
      generalize kept : left weight cut (quota - weight item) rest = remains
      have tail := inductionHypothesis (quota - weight item)
      rw [given, kept] at tail
      cases tail with
      | exhausted _ short =>
        exact Shape.exhausted (item :: rest) (by rw [total_cons]; omega)
      | boundary done rest exact =>
        exact Shape.boundary (item :: done) remains (by rw [total_cons]; omega)
      | inside done last rest reached stops =>
        have shifted : quota - weight item - total weight done =
            quota - total weight (item :: done) := by rw [total_cons]; omega
        rw [shifted]
        exact Shape.inside (item :: done) last rest (by rw [total_cons]; omega)
          (by rw [total_cons]; omega)

/-- A quota beyond the weight of the list leaves nothing. -/
theorem left_eq_nil {quota : Nat} {items : List Item} (short : total weight items < quota) :
    left weight cut quota items = [] := by
  induction items generalizing quota with
  | nil => rfl
  | cons item rest inductionHypothesis =>
    rw [total_cons] at short
    rw [left_cons_of_le weight cut (by omega) rest (by omega)]
    exact inductionHypothesis (by omega)

/-- A remaining item was there before, or is the one item the quota ended in. -/
theorem mem_left {quota : Nat} {items : List Item} {item : Item}
    (member : item ∈ left weight cut quota items) :
    item ∈ items ∨ ∃ origin ∈ items, ∃ amount, 0 < amount ∧ amount < weight origin ∧
      item = cut origin amount := by
  generalize given : taken weight quota items = gave
  generalize kept : left weight cut quota items = remains at member
  have cases := shape weight cut quota items
  rw [given, kept] at cases
  cases cases with
  | exhausted _ _ => cases member
  | boundary done _ _ => exact Or.inl (List.mem_append_right _ member)
  | inside done origin rest reached stops =>
    rcases List.mem_cons.mp member with same | member
    · exact Or.inr ⟨origin, List.mem_append_right _ List.mem_cons_self, _, by omega, by omega,
        same⟩
    · exact Or.inl (List.mem_append_right _ (List.mem_cons_of_mem _ member))

/-- A greedy visit of two lists in a row visits the second one with what the first leaves
wanted. -/
theorem taken_append (quota : Nat) (first second : List Item) :
    taken weight quota (first ++ second) =
      taken weight quota first ++ taken weight (quota - total weight first) second := by
  induction first generalizing quota with
  | nil => simp
  | cons item rest inductionHypothesis =>
    rcases Nat.eq_zero_or_pos quota with zero | wanted
    · simp [zero]
    · rw [List.cons_append, taken_cons weight wanted, taken_cons weight wanted,
        inductionHypothesis, total_cons, Nat.sub_add_eq, List.cons_append]

theorem left_append (quota : Nat) (first second : List Item) :
    left weight cut quota (first ++ second) =
      left weight cut quota first ++ left weight cut (quota - total weight first) second := by
  induction first generalizing quota with
  | nil => simp
  | cons item rest inductionHypothesis =>
    rcases Nat.eq_zero_or_pos quota with zero | wanted
    · simp [zero]
    rw [List.cons_append, total_cons]
    rcases Nat.lt_or_ge quota (weight item) with stops | used
    · rw [left_cons_of_lt weight cut wanted _ stops, left_cons_of_lt weight cut wanted _ stops,
        Nat.sub_eq_zero_of_le (by omega), left_zero, List.cons_append]
    · rw [left_cons_of_le weight cut wanted _ used, left_cons_of_le weight cut wanted _ used,
        inductionHypothesis, Nat.sub_add_eq]

/-- The items together give the smaller of the quota and their weight. -/
theorem sum_taken (quota : Nat) (items : List Item) :
    ((taken weight quota items).map Prod.snd).sum = min quota (total weight items) := by
  induction items generalizing quota with
  | nil => simp
  | cons item rest inductionHypothesis =>
    rcases Nat.eq_zero_or_pos quota with zero | wanted
    · simp [zero]
    · rw [taken_cons weight wanted, List.map_cons, List.sum_cons, inductionHypothesis,
        total_cons]
      omega

/-- What remains weighs what the quota did not take. -/
theorem total_left (cutWeight : ∀ item amount, amount ≤ weight item →
    weight (cut item amount) = weight item - amount) (quota : Nat) (items : List Item) :
    total weight (left weight cut quota items) = total weight items - quota := by
  induction items generalizing quota with
  | nil => simp
  | cons item rest inductionHypothesis =>
    rcases Nat.eq_zero_or_pos quota with zero | wanted
    · simp [zero]
    rcases Nat.lt_or_ge quota (weight item) with stops | used
    · rw [left_cons_of_lt weight cut wanted _ stops, total_cons, total_cons,
        cutWeight item quota stops.le]
      omega
    · rw [left_cons_of_le weight cut wanted _ used, inductionHypothesis, total_cons]
      omega

/-- A greedy visit commutes with a translation of the items that keeps weights and cuts. -/
theorem left_map (transform : Other → Item) (otherCut : Other → Nat → Other)
    (commutes : ∀ item amount, transform (otherCut item amount) = cut (transform item) amount)
    (quota : Nat) (items : List Other) :
    (left (fun item => weight (transform item)) otherCut quota items).map transform =
      left weight cut quota (items.map transform) := by
  induction items generalizing quota with
  | nil => rfl
  | cons item rest inductionHypothesis =>
    simp only [left, List.map_cons]
    split_ifs
    · rfl
    · exact inductionHypothesis _
    · rw [List.map_cons, commutes]

/-- A visit makes no part of the items heavier. -/
theorem total_filter_left_le {within : Item → Bool} (keeps : ∀ item amount,
    within (cut item amount) = within item) (cutWeight : ∀ item amount, amount ≤ weight item →
    weight (cut item amount) = weight item - amount) (quota : Nat) (items : List Item) :
    total weight ((left weight cut quota items).filter within) ≤
      total weight (items.filter within) := by
  induction items generalizing quota with
  | nil => exact le_refl _
  | cons item rest inductionHypothesis =>
    rcases Nat.eq_zero_or_pos quota with zero | wanted
    · rw [zero, left_zero]
    rcases Nat.lt_or_ge quota (weight item) with stops | used
    · rw [left_cons_of_lt weight cut wanted _ stops]
      by_cases inside : within item = true
      · rw [List.filter_cons_of_pos inside, List.filter_cons_of_pos ((keeps _ _).trans inside),
          total_cons, total_cons, cutWeight item quota stops.le]
        omega
      · rw [List.filter_cons_of_neg inside,
          List.filter_cons_of_neg fun other => inside ((keeps _ _).symm.trans other)]
    · rw [left_cons_of_le weight cut wanted _ used]
      exact (inductionHypothesis _).trans
        (total_le_of_sublist weight ((List.sublist_cons_self item rest).filter within))

/-- Whatever a cut keeps, the remaining items keep in order. -/
theorem left_sublist (label : Item → Other) (keeps : ∀ item amount, label (cut item amount) =
    label item) (quota : Nat) (items : List Item) :
    ((left weight cut quota items).map label).Sublist (items.map label) := by
  induction items generalizing quota with
  | nil => exact List.Sublist.refl _
  | cons item rest inductionHypothesis =>
    simp only [left, List.map_cons]
    split_ifs
    · exact List.Sublist.refl _
    · exact (inductionHypothesis _).cons _
    · rw [List.map_cons, keeps]

/-- The visited items stand in the list in the order of the visit. -/
theorem taken_sublist (quota : Nat) (items : List Item) :
    ((taken weight quota items).map Prod.fst).Sublist items := by
  induction items generalizing quota with
  | nil => exact List.Sublist.refl _
  | cons item rest inductionHypothesis =>
    rw [taken]
    split_ifs
    · exact List.nil_sublist _
    · exact (inductionHypothesis _).cons_cons item

/-- Every item gives at most what it weighs. -/
theorem taken_le {quota : Nat} {items : List Item} {gave : Item × Nat}
    (member : gave ∈ taken weight quota items) : gave.2 ≤ weight gave.1 := by
  induction items generalizing quota with
  | nil => cases member
  | cons item rest inductionHypothesis =>
    rcases Nat.eq_zero_or_pos quota with zero | wanted
    · rw [zero, taken_zero] at member
      cases member
    · rw [taken_cons weight wanted] at member
      rcases List.mem_cons.mp member with same | behind
      · rw [same]
        exact Nat.min_le_left _ _
      · exact inductionHypothesis behind

/-- Every visited item gives something exactly when no item weighs nothing, or those in front of
the first such item have enough. -/
theorem taken_pos_iff {quota : Nat} {items : List Item} :
    (∀ gave ∈ taken weight quota items, 0 < gave.2) ↔
      (∀ item ∈ items, 0 < weight item) ∨
        quota ≤ total weight (items.takeWhile fun item => 0 < weight item) := by
  induction items generalizing quota with
  | nil => simp
  | cons item rest inductionHypothesis =>
    rcases Nat.eq_zero_or_pos quota with zero | wanted
    · simp [zero]
    rw [taken_cons weight wanted, List.forall_mem_cons, List.forall_mem_cons]
    rcases Nat.eq_zero_or_pos (weight item) with nothing | some
    · rw [List.takeWhile_cons_of_neg (by simp [nothing]), total_nil, nothing, Nat.zero_min]
      omega
    · rw [List.takeWhile_cons_of_pos (by simp [some]), total_cons, inductionHypothesis,
        Nat.sub_le_iff_le_add']
      simp only [some, true_and, and_iff_right (Nat.lt_min.mpr ⟨some, wanted⟩)]

/-- When an item gives, the items in front of it have given all they weigh. -/
theorem taken_split {quota : Nat} {items : List Item} {done todo : List (Item × Nat)}
    {gave : Item × Nat} (split : taken weight quota items = done ++ gave :: todo) :
    ∃ front back, items = front ++ gave.1 :: back ∧ done = full weight front ∧
      total weight front < quota := by
  induction items generalizing quota done with
  | nil => cases done <;> cases split
  | cons item rest inductionHypothesis =>
    rcases Nat.eq_zero_or_pos quota with zero | wanted
    · rw [zero, taken_zero] at split
      cases done <;> cases split
    rw [taken_cons weight wanted] at split
    cases done with
    | nil =>
      obtain ⟨same, -⟩ := List.cons.inj split
      exact ⟨[], rest, by rw [← same, List.nil_append], rfl, wanted⟩
    | cons first done =>
      obtain ⟨same, others⟩ := List.cons.inj split
      obtain ⟨front, back, itemsEq, doneEq, less⟩ := inductionHypothesis others
      have used : weight item ≤ quota := by omega
      refine ⟨item :: front, back, by rw [itemsEq, List.cons_append], ?_, ?_⟩
      · rw [← same, doneEq, Nat.min_eq_left used]
        rfl
      · rw [total_cons]
        omega

/-- A quota smaller than the whole weight ends inside an item, or just in front of it. -/
theorem exists_end {quota : Nat} {items : List Item} (less : quota < total weight items) :
    ∃ front item back, items = front ++ item :: back ∧ total weight front ≤ quota ∧
      quota < total weight front + weight item := by
  induction items generalizing quota with
  | nil => cases less
  | cons head rest inductionHypothesis =>
    rw [total_cons] at less
    rcases Nat.lt_or_ge quota (weight head) with stops | used
    · exact ⟨[], head, rest, rfl, Nat.zero_le _, by simpa using stops⟩
    · obtain ⟨front, item, back, split, reached, stops⟩ :=
        @inductionHypothesis (quota - weight head) (by omega)
      refine ⟨head :: front, item, back, by rw [split, List.cons_append], ?_, ?_⟩
      · rw [total_cons]
        omega
      · rw [total_cons]
        omega

end Visit

/-! ### One item of a greedy visit -/

section Single

variable (weight : Item → Nat) (cut : Item → Nat → Item) {Key : Type} [DecidableEq Key]
  (key : Item → Key) {front back : List Item} {item : Item}

theorem filter_key_eq_nil {part : List Item} (absent : key item ∉ part.map key) :
    part.filter (fun other => key other = key item) = [] := by
  refine List.filter_eq_nil_iff.mpr fun other inPart => ?_
  simpa using fun same : key other = key item => absent (same ▸ List.mem_map_of_mem inPart)

theorem filter_key_eq_singleton (distinct : ((front ++ item :: back).map key).Nodup) :
    (front ++ item :: back).filter (fun other => key other = key item) = [item] := by
  obtain ⟨inFront, inBack⟩ := absent_of_nodup distinct
  rw [List.filter_append, filter_key_eq_nil key inFront, List.filter_cons_of_pos (by simp),
    filter_key_eq_nil key inBack, List.nil_append]

/-- An item that gives its whole weight gives its weight. -/
theorem sum_full_key {items : List Item} (distinct : (items.map key).Nodup) {item : Item}
    (member : item ∈ items) :
    (((full weight items).filter fun gave => key gave.1 = key item).map Prod.snd).sum =
      weight item := by
  obtain ⟨front, back, rfl⟩ := List.append_of_mem member
  have single := filter_key_eq_singleton key distinct
  rw [full, List.filter_map, List.map_map]
  refine (congrArg (fun part : List Item => (part.map weight).sum) single).trans ?_
  simp

/-- What an item gives is what the items in front of it leave wanted, up to its weight. -/
theorem taken_key (quota : Nat) (distinct : ((front ++ item :: back).map key).Nodup) :
    (taken weight quota (front ++ item :: back)).filter (fun gave => key gave.1 = key item) =
      if quota ≤ total weight front then []
      else [(item, min (weight item) (quota - total weight front))] := by
  obtain ⟨inFront, inBack⟩ := absent_of_nodup distinct
  have others : ∀ {part : List Item} {amount : Nat}, key item ∉ part.map key →
      (taken weight amount part).filter (fun gave => key gave.1 = key item) = [] := by
    intro part amount absent
    refine List.filter_eq_nil_iff.mpr fun gave inTaken => ?_
    simpa using fun same : key gave.1 = key item =>
      absent (same ▸ List.mem_map_of_mem (mem_of_taken weight inTaken))
  rw [taken_append, List.filter_append, others inFront, List.nil_append]
  split_ifs with done
  · rw [Nat.sub_eq_zero_of_le done, taken_zero]
    rfl
  · rw [taken_cons weight (by omega), List.filter_cons_of_pos (by simp), others inBack]

theorem sum_taken_key (quota : Nat) (distinct : ((front ++ item :: back).map key).Nodup) :
    (((taken weight quota (front ++ item :: back)).filter fun gave =>
        key gave.1 = key item).map Prod.snd).sum =
      min (weight item) (quota - total weight front) := by
  rw [taken_key weight key quota distinct]
  split_ifs with done
  · rw [Nat.sub_eq_zero_of_le done, Nat.min_zero]
    rfl
  · simp

/-- What remains of an item: all of it, a cut, or nothing. -/
theorem left_key (quota : Nat) (distinct : ((front ++ item :: back).map key).Nodup)
    (keeps : ∀ other amount, key (cut other amount) = key other) (positive : 0 < weight item) :
    (left weight cut quota (front ++ item :: back)).filter (fun other => key other = key item) =
      if total weight front + weight item ≤ quota then []
      else if quota ≤ total weight front then [item]
      else [cut item (quota - total weight front)] := by
  obtain ⟨inFront, inBack⟩ := absent_of_nodup distinct
  have others : ∀ {part : List Item} {amount : Nat}, key item ∉ part.map key →
      (left weight cut amount part).filter (fun other => key other = key item) = [] := by
    intro part amount absent
    exact filter_key_eq_nil key fun member =>
      absent ((left_sublist weight cut key keeps amount part).subset member)
  rw [left_append, List.filter_append, others inFront, List.nil_append]
  rcases Nat.eq_zero_or_pos (quota - total weight front) with done | wanted
  · rw [done, left_zero, List.filter_cons_of_pos (by simp), filter_key_eq_nil key inBack,
      if_neg (by omega), if_pos (by omega)]
  · rcases Nat.lt_or_ge (quota - total weight front) (weight item) with stops | used
    · rw [left_cons_of_lt weight cut wanted back stops,
        List.filter_cons_of_pos (by simpa using keeps _ _), filter_key_eq_nil key inBack,
        if_neg (by omega), if_neg (by omega)]
    · rw [left_cons_of_le weight cut wanted back used, others inBack, if_pos (by omega)]

end Single

/-! ### Two visits in a row -/

section Twice

variable (weight : Item → Nat) (cut : Item → Nat → Item)

/-- Two visits leave what one visit with both quotas leaves. -/
theorem left_add (cutWeight : ∀ item amount, amount ≤ weight item →
    weight (cut item amount) = weight item - amount)
    (cutCut : ∀ item first second, cut (cut item first) second = cut item (first + second))
    (first second : Nat) (items : List Item) :
    left weight cut second (left weight cut first items) =
      left weight cut (first + second) items := by
  induction items generalizing first with
  | nil => rfl
  | cons item rest inductionHypothesis =>
    rcases Nat.eq_zero_or_pos first with zero | wanted
    · rw [zero, left_zero, Nat.zero_add]
    rcases Nat.lt_or_ge first (weight item) with stops | used
    · rw [left_cons_of_lt weight cut wanted rest stops]
      have weightLeft := cutWeight item first stops.le
      rcases Nat.eq_zero_or_pos second with zero | again
      · rw [zero, left_zero, Nat.add_zero, left_cons_of_lt weight cut wanted rest stops]
      rcases Nat.lt_or_ge second (weight item - first) with less | enough
      · rw [left_cons_of_lt weight cut again rest (weightLeft ▸ less), cutCut,
          left_cons_of_lt weight cut (by omega) rest (by omega)]
      · rw [left_cons_of_le weight cut again rest (weightLeft ▸ enough), weightLeft,
          left_cons_of_le weight cut (by omega) rest (by omega)]
        congr 1
        omega
    · rw [left_cons_of_le weight cut wanted rest used, inductionHypothesis,
        left_cons_of_le weight cut (by omega) rest (by omega)]
      congr 1
      omega

variable {Key : Type} (key : Item → Key)

/-- What the items give, by their keys. -/
def keyed (gave : Item × Nat) : Key × Nat := (key gave.1, gave.2)

theorem absent_of_taken {item : Item} {items : List Item} (absent : key item ∉ items.map key)
    (quota : Nat) : key item ∉ ((taken weight quota items).map (keyed key)).map Prod.fst := by
  intro member
  rw [List.map_map, List.mem_map] at member
  obtain ⟨gave, inTaken, same⟩ := member
  exact absent (same ▸ List.mem_map_of_mem (mem_of_taken weight inTaken))

theorem nodup_taken {items : List Item} (distinct : (items.map key).Nodup) (quota : Nat) :
    (((taken weight quota items).map (keyed key)).map Prod.fst).Nodup := by
  have visited := distinct.sublist ((taken_sublist weight quota items).map key)
  rwa [List.map_map] at visited ⊢

variable [DecidableEq Key]

/-- Put an entry in front of a list whose first entry takes it in when it has the same key. -/
def push (entry : Key × Nat) : List (Key × Nat) → List (Key × Nat)
  | [] => [entry]
  | head :: rest =>
    if entry.1 = head.1 then (head.1, entry.2 + head.2) :: rest else entry :: head :: rest

/-- Consecutive entries of one key as one entry. -/
def merged (entries : List (Key × Nat)) : List (Key × Nat) := entries.foldr push []

@[simp]
theorem merged_cons (entry : Key × Nat) (rest : List (Key × Nat)) :
    merged (entry :: rest) = push entry (merged rest) := rfl

theorem push_of_absent {entry : Key × Nat} {entries : List (Key × Nat)}
    (absent : entry.1 ∉ entries.map Prod.fst) : push entry entries = entry :: entries := by
  cases entries with
  | nil => rfl
  | cons head rest => exact if_neg fun same : entry.1 = head.1 => absent (same ▸ List.mem_cons_self)

/-- There is nothing to merge when the keys are distinct. -/
theorem merged_of_nodup {entries : List (Key × Nat)} (distinct : (entries.map Prod.fst).Nodup) :
    merged entries = entries := by
  induction entries with
  | nil => rfl
  | cons entry rest inductionHypothesis =>
    obtain ⟨absent, restDistinct⟩ := List.nodup_cons.mp distinct
    rw [merged_cons, inductionHypothesis restDistinct, push_of_absent absent]

/-- What two visits take, an item they both take from counted once, is what one visit with both
quotas takes. -/
theorem merged_taken_add (cutWeight : ∀ item amount, amount ≤ weight item →
    weight (cut item amount) = weight item - amount)
    (keeps : ∀ item amount, key (cut item amount) = key item) {items : List Item}
    (distinct : (items.map key).Nodup) (first second : Nat) :
    merged ((taken weight first items ++
        taken weight second (left weight cut first items)).map (keyed key)) =
      (taken weight (first + second) items).map (keyed key) := by
  induction items generalizing first with
  | nil => rfl
  | cons item rest inductionHypothesis =>
    obtain ⟨absent, restDistinct⟩ := List.nodup_cons.mp distinct
    rcases Nat.eq_zero_or_pos first with zero | wanted
    · rw [zero, taken_zero, left_zero, List.nil_append, Nat.zero_add]
      exact merged_of_nodup (nodup_taken weight key distinct second)
    rw [taken_cons weight wanted, taken_cons weight (Nat.add_pos_left wanted second)]
    rcases Nat.lt_or_ge first (weight item) with stops | used
    · rw [left_cons_of_lt weight cut wanted rest stops, Nat.sub_eq_zero_of_le stops.le, taken_zero,
        Nat.min_eq_right stops.le]
      rcases Nat.eq_zero_or_pos second with zero | again
      · rw [zero, taken_zero, Nat.add_zero, Nat.sub_eq_zero_of_le stops.le, taken_zero,
          Nat.min_eq_right stops.le]
        rfl
      have quota : second - (weight item - first) = first + second - weight item := by omega
      have amount : first + min (weight item - first) second =
          min (weight item) (first + second) := by omega
      rw [taken_cons weight again, cutWeight item first stops.le, quota, ← amount]
      have tail := merged_of_nodup
        (nodup_taken weight key restDistinct (first + second - weight item))
      have rest_ := absent_of_taken weight key absent (first + second - weight item)
      have inner : keyed key (cut item first, min (weight item - first) second) =
          keyed key (item, min (weight item - first) second) := by rw [keyed, keeps]; rfl
      have pushed : push (keyed key (item, min (weight item - first) second))
          ((taken weight (first + second - weight item) rest).map (keyed key)) = _ :=
        push_of_absent rest_
      simp only [List.cons_append, List.nil_append, List.map_cons, merged_cons, tail, inner,
        pushed]
      exact if_pos rfl
    · have quota : first - weight item + second = first + second - weight item := by omega
      rw [left_cons_of_le weight cut wanted rest used, List.cons_append, List.map_cons,
        merged_cons, inductionHypothesis restDistinct, quota, Nat.min_eq_left used,
        Nat.min_eq_left (by omega)]
      exact push_of_absent (absent_of_taken weight key absent _)

end Twice

end Greedy
