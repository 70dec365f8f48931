/-
This file is a small library about histories of keyed items: the latest item of a
key, and histories in which every item stands in a given relation to the later items
of its key. For a transitive relation it is enough that every new item stands in it
to the latest one.
-/

import Mathlib.Data.List.Nodup
import Mathlib.Order.Defs.Unbundled

namespace History

variable {Item Key : Type} [DecidableEq Key] {key : Item → Key}

/-- The latest item of a key. -/
def latest (key : Item → Key) (items : List Item) (rank : Key) : Option Item :=
  (items.filter fun item => key item = rank).getLast?

theorem latest_append (first second : List Item) (rank : Key) :
    latest key (first ++ second) rank = (latest key second rank).or (latest key first rank) := by
  rw [latest, List.filter_append, List.getLast?_append]
  rfl

theorem latest_of_filter_nil {items : List Item} {rank : Key}
    (absent : (items.filter fun item => key item = rank) = []) : latest key items rank = none := by
  rw [latest, absent]
  rfl

theorem mem_of_latest {items : List Item} {rank : Key} {item : Item}
    (found : latest key items rank = some item) : item ∈ items ∧ key item = rank := by
  obtain ⟨inItems, same⟩ := List.mem_filter.mp (List.mem_of_getLast? found)
  exact ⟨inItems, of_decide_eq_true same⟩

/-- Every item stands in a relation to the later items of its key. -/
def Linked (key : Item → Key) (rel : Item → Item → Prop) (items : List Item) : Prop :=
  items.Pairwise fun first second => key first = key second → rel first second

variable {rel : Item → Item → Prop} {items : List Item}

/-- An item of a linked history is the latest of its key or stands in the relation to it. -/
theorem Linked.rel_latest (linked : Linked key rel items) {item last : Item}
    (member : item ∈ items) (found : latest key items (key item) = some last) :
    item = last ∨ rel item last := by
  have sameKey := (mem_of_latest found).2
  obtain ⟨front, split⟩ := List.getLast?_eq_some_iff.mp found
  have own : Linked key rel (front ++ [last]) :=
    split ▸ List.Pairwise.sublist List.filter_sublist linked
  have inFilter : item ∈ front ++ [last] :=
    split ▸ List.mem_filter.mpr ⟨member, decide_eq_true rfl⟩
  rcases List.mem_append.mp inFilter with inFront | atEnd
  · refine Or.inr ((List.pairwise_append.mp own).2.2 item inFront last List.mem_cons_self ?_)
    exact sameKey.symm
  · exact Or.inl (List.mem_singleton.mp atEnd)

/-- New items of distinct keys keep a history linked when each stands behind the latest of its
key. -/
theorem Linked.append [IsTrans Item rel] (linked : Linked key rel items) {new : List Item}
    (distinct : (new.map key).Nodup)
    (behind : ∀ item ∈ new, ∀ last, latest key items (key item) = some last → rel last item) :
    Linked key rel (items ++ new) := by
  refine List.pairwise_append.mpr ⟨linked, ?_, fun old inItems item inNew same => ?_⟩
  · exact (List.pairwise_map.mp distinct).imp fun different same => absurd same different
  · cases found : latest key items (key item) with
    | none =>
      have absent := List.filter_eq_nil_iff.mp (List.getLast?_eq_none_iff.mp found) old inItems
      exact absurd (decide_eq_true same) absent
    | some last =>
      have step := behind item inNew last found
      rcases linked.rel_latest inItems (same ▸ found) with equal | earlier
      · exact equal ▸ step
      · exact IsTrans.trans _ _ _ earlier step

end History
