/-
This file is a small library about following a list from reports on its items. A
report is an item as it is now, under the key it always had. It takes the place of the
item, or takes it off when it is not to be kept; a report under a new key goes to the
end. So whoever has the list and hears the reports has the list afterwards.

A greedy visit is followed in this way from what it leaves of the items that gave
something.
-/

import OrderForge.Greedy

namespace Roster

variable {Item Key : Type} [DecidableEq Key] (key : Item → Key) (Keeps : Item → Prop)
  [DecidablePred Keeps]

/-- What a report stands for. -/
def kept (report : Item) : List Item := if Keeps report then [report] else []

/-- What some reports make of an item. -/
def resolve (reports : List Item) (item : Item) : List Item :=
  ((reports.find? fun report => key report = key item).map (kept Keeps)).getD [item]

/-- The list after one more report. -/
def hear (items : List Item) (report : Item) : List Item :=
  if key report ∈ items.map key then items.flatMap (resolve key Keeps [report])
  else items ++ kept Keeps report

variable {key Keeps} {items reports : List Item} {item report : Item}

theorem mem_kept {other : Item} : other ∈ kept Keeps report ↔ Keeps report ∧ other = report := by
  unfold kept
  split_ifs with keeps
  · simp [keeps]
  · simp [keeps]

/-! ### What some reports make of one item -/

theorem resolve_of_absent (absent : key item ∉ reports.map key) :
    resolve key Keeps reports item = [item] := by
  have none : reports.find? (fun report => key report = key item) = none := by
    refine List.find?_eq_none.mpr fun report member => ?_
    simpa using fun same : key report = key item => absent (same ▸ List.mem_map_of_mem member)
  rw [resolve, none]
  rfl

@[simp]
theorem resolve_nil : resolve key Keeps [] = fun item => [item] := by
  funext item
  exact resolve_of_absent (by simp)

theorem resolve_cons_of_eq (same : key report = key item) :
    resolve key Keeps (report :: reports) item = kept Keeps report := by
  rw [resolve, List.find?_cons_of_pos (by simpa using same)]
  rfl

theorem resolve_cons_of_ne (other : key report ≠ key item) :
    resolve key Keeps (report :: reports) item = resolve key Keeps reports item := by
  rw [resolve, List.find?_cons_of_neg (by simpa using other), resolve]

theorem resolve_append_of_absent {others : List Item} (absent : key item ∉ others.map key) :
    resolve key Keeps (reports ++ others) item = resolve key Keeps reports item := by
  induction reports with
  | nil => rw [List.nil_append, resolve_of_absent absent, resolve_nil]
  | cons report rest inductionHypothesis =>
    by_cases same : key report = key item
    · rw [List.cons_append, resolve_cons_of_eq same, resolve_cons_of_eq same]
    · rw [List.cons_append, resolve_cons_of_ne same, resolve_cons_of_ne same, inductionHypothesis]

/-- What is left of an item is the item, or the report about it. -/
theorem mem_resolve {other : Item} (member : other ∈ resolve key Keeps reports item) :
    other = item ∨ other ∈ reports ∧ key other = key item := by
  unfold resolve at member
  cases found : reports.find? fun report => key report = key item with
  | none =>
    rw [found] at member
    exact Or.inl (List.mem_singleton.mp member)
  | some report =>
    rw [found] at member
    obtain ⟨-, rfl⟩ := mem_kept.mp member
    exact Or.inr ⟨List.mem_of_find?_eq_some found, by simpa using List.find?_some found⟩

/-- Two rounds of reports under different keys are one. -/
theorem flatMap_resolve_resolve (new : key report ∉ reports.map key) (items : List Item) :
    (items.flatMap (resolve key Keeps [report])).flatMap (resolve key Keeps reports) =
      items.flatMap (resolve key Keeps (report :: reports)) := by
  rw [List.flatMap_assoc]
  refine List.flatMap_congr fun item _ => ?_
  by_cases same : key report = key item
  · rw [resolve_cons_of_eq same, resolve_cons_of_eq same]
    unfold kept
    split_ifs
    · rw [List.flatMap_singleton, resolve_of_absent new]
    · rfl
  · rw [resolve_cons_of_ne same, resolve_cons_of_ne same, resolve_nil, List.flatMap_singleton]

/-! ### What some reports make of a list -/

/-- The keys of the others are the same after a report. -/
theorem mem_keys_hear {other : Key} (different : other ≠ key report) :
    other ∈ (hear key Keeps items report).map key ↔ other ∈ items.map key := by
  unfold hear
  split_ifs
  · rw [List.map_flatMap, List.mem_flatMap, List.mem_map]
    refine exists_congr fun item => and_congr_right fun _ => ?_
    by_cases same : key report = key item
    · rw [resolve_cons_of_eq same, ← same, List.mem_map]
      refine iff_of_false ?_ different.symm
      rintro ⟨left, member, rfl⟩
      exact different (congrArg key (mem_kept.mp member).2)
    · rw [resolve_cons_of_ne same, resolve_nil]
      simp [eq_comm]
  · rw [List.map_append, List.mem_append, or_iff_left]
    intro member
    obtain ⟨left, new, rfl⟩ := List.mem_map.mp member
    exact different (congrArg key (mem_kept.mp new).2)

/-- Under distinct keys, each item becomes what the reports make of it, and the reports under new
keys go to the end. -/
theorem foldl_hear (distinct : (reports.map key).Nodup) (items : List Item) :
    reports.foldl (hear key Keeps) items =
      items.flatMap (resolve key Keeps reports) ++
        (reports.filter fun report => key report ∉ items.map key).flatMap (kept Keeps) := by
  induction reports generalizing items with
  | nil => simp
  | cons report rest inductionHypothesis =>
    rw [List.map_cons, List.nodup_cons] at distinct
    have others : (rest.filter fun other => key other ∉ (hear key Keeps items report).map key) =
        rest.filter fun other => key other ∉ items.map key := by
      refine List.filter_congr fun other member => decide_eq_decide.mpr (not_congr ?_)
      exact mem_keys_hear fun same => distinct.1 (same ▸ List.mem_map_of_mem member)
    rw [List.foldl_cons, inductionHypothesis distinct.2, others, hear]
    by_cases known : key report ∈ items.map key
    · rw [if_pos known, flatMap_resolve_resolve distinct.1,
        List.filter_cons_of_neg (by simpa using known)]
    · have own : items.flatMap (resolve key Keeps (report :: rest)) =
          items.flatMap (resolve key Keeps rest) := by
        refine List.flatMap_congr fun item member => resolve_cons_of_ne fun same => known ?_
        exact same ▸ List.mem_map_of_mem member
      have last : (kept Keeps report).flatMap (resolve key Keeps rest) = kept Keeps report := by
        unfold kept
        split_ifs
        · rw [List.flatMap_singleton, resolve_of_absent distinct.1]
        · rfl
      rw [if_neg known, List.filter_cons_of_pos (by simpa using known), List.flatMap_append, own,
        last, List.flatMap_cons, List.append_assoc]

/-- A part of the list is followed from what becomes of the part. -/
theorem filter_flatMap_resolve {within : Item → Bool}
    (stays : ∀ item ∈ items, ∀ other ∈ resolve key Keeps reports item, within other = within item) :
    (items.flatMap (resolve key Keeps reports)).filter within =
      (items.filter within).flatMap (resolve key Keeps reports) := by
  induction items with
  | nil => rfl
  | cons item rest inductionHypothesis =>
    rw [List.forall_mem_cons] at stays
    rw [List.flatMap_cons, List.filter_append, inductionHypothesis stays.2, List.filter_cons]
    split_ifs with inside
    · rw [List.flatMap_cons, List.filter_eq_self.mpr fun other member => ?_]
      exact (stays.1 other member).trans inside
    · rw [List.filter_eq_nil_iff.mpr fun other member => ?_, List.nil_append]
      rw [stays.1 other member]
      exact inside

/-! ### Following a greedy visit -/

/-- What a greedy visit leaves is what the reports about the items that gave something make of the
list. -/
theorem left_eq_flatMap {weight : Item → Nat} {cut : Item → Nat → Item}
    (sameKey : ∀ item amount, key (cut item amount) = key item) {quota : Nat}
    (distinct : (items.map key).Nodup)
    (keeps : ∀ item ∈ items, ∀ amount ≤ weight item,
      Keeps (cut item amount) ↔ amount < weight item) :
    Greedy.left weight cut quota items =
      items.flatMap (resolve key Keeps ((Greedy.taken weight quota items).map fun gave =>
        cut gave.1 gave.2)) := by
  induction items generalizing quota with
  | nil => rfl
  | cons item rest inductionHypothesis =>
    rw [List.map_cons, List.nodup_cons] at distinct
    rw [List.forall_mem_cons] at keeps
    rcases Nat.eq_zero_or_pos quota with zero | wanted
    · rw [zero, Greedy.left_zero, Greedy.taken_zero, List.map_nil, resolve_nil,
        List.flatMap_singleton']
    have others : rest.flatMap (resolve key Keeps (cut item (min (weight item) quota) ::
        (Greedy.taken weight (quota - weight item) rest).map fun gave => cut gave.1 gave.2)) =
        Greedy.left weight cut (quota - weight item) rest := by
      rw [inductionHypothesis distinct.2 keeps.2]
      refine List.flatMap_congr fun other member => resolve_cons_of_ne fun same => distinct.1 ?_
      rw [← sameKey item, same]
      exact List.mem_map_of_mem member
    have own := keeps.1 (min (weight item) quota) (Nat.min_le_left _ _)
    rw [Greedy.taken_cons weight wanted, List.map_cons, List.flatMap_cons, others,
      resolve_cons_of_eq (sameKey item _), kept]
    rcases Nat.lt_or_ge quota (weight item) with stops | used
    · rw [Nat.min_eq_right stops.le] at own ⊢
      rw [Greedy.left_cons_of_lt weight cut wanted rest stops, if_pos (own.mpr stops),
        Nat.sub_eq_zero_of_le stops.le, Greedy.left_zero, List.singleton_append]
    · rw [Nat.min_eq_left used] at own ⊢
      rw [Greedy.left_cons_of_le weight cut wanted rest used,
        if_neg fun keeps => Nat.lt_irrefl _ (own.mp keeps), List.nil_append]

end Roster
