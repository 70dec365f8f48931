/-
This file is a small library of maps kept as a list of entries sorted by a strict
total order on the keys. The order is a parameter, so one development serves an
ascending and a descending map. The sortedness of the entries is a field of the
structure: no operation can build an unsorted map, and a key has at most one
entry.

The operations are lookup, insertion that keeps an existing entry, a change of the
value under a key, erasure, and one pass over all values in key order that may
replace each value and threads a state. Each is characterised by the lookups of
its result.
-/

import Mathlib.Data.List.Pairwise
import Mathlib.Order.Defs.Unbundled
import OrderForge.Keyed

/-- A map whose entries are listed in the order of their keys. -/
structure FlatMap {Key : Type} (before : Key → Key → Prop) (Value : Type) where
  entries : List (Key × Value)
  sorted : entries.Pairwise fun first second => before first.1 second.1

namespace FlatMap

variable {Key Value State : Type} {before : Key → Key → Prop}

@[ext]
theorem ext {first second : FlatMap before Value} (same : first.entries = second.entries) :
    first = second := by
  cases first
  cases second
  cases same
  rfl

/-- The map without entries. -/
def empty : FlatMap before Value := ⟨[], List.Pairwise.nil⟩

/-- Whether the map has no entry. -/
def isEmpty (map : FlatMap before Value) : Bool := map.entries.isEmpty

/-- The first entry in key order. -/
def begin? (map : FlatMap before Value) : Option (Key × Value) := map.entries.head?

/-- The strict order gives every key at most one entry. -/
theorem nodup_keys [Std.Irrefl before] (map : FlatMap before Value) :
    (map.entries.map Prod.fst).Nodup := by
  refine List.pairwise_map.mpr (map.sorted.imp fun {first second} ordered same => ?_)
  rw [same] at ordered
  exact Std.Irrefl.irrefl _ ordered

/-! ### Lookup -/

section Lookup

variable [DecidableEq Key]

/-- The value under a key. -/
def find? (map : FlatMap before Value) (key : Key) : Option Value := map.entries.lookup key

theorem find?_eq_some [Std.Irrefl before] (map : FlatMap before Value) {key : Key}
    {value : Value} : map.find? key = some value ↔ (key, value) ∈ map.entries :=
  Keyed.lookup_eq_some map.nodup_keys

theorem find?_eq_none (map : FlatMap before Value) {key : Key} :
    map.find? key = none ↔ ∀ value, (key, value) ∉ map.entries := by
  rw [find?, Keyed.lookup_eq_none, List.mem_map]
  constructor
  · exact fun absent value member => absent ⟨(key, value), member, rfl⟩
  · rintro absent ⟨⟨other, value⟩, member, rfl⟩
    exact absent value member

/-- A lookup is determined by the entries under its key. -/
theorem find?_congr [Std.Irrefl before] {first second : FlatMap before Value} {key : Key}
    (same : ∀ value, (key, value) ∈ first.entries ↔ (key, value) ∈ second.entries) :
    first.find? key = second.find? key := by
  cases found : second.find? key with
  | none =>
    rw [find?_eq_none] at found ⊢
    exact fun value member => found value ((same value).mp member)
  | some value =>
    rw [find?_eq_some] at found ⊢
    exact (same value).mpr found

/-- A map is determined by its lookups. -/
theorem eq_of_find? [IsStrictOrder Key before] {first second : FlatMap before Value}
    (same : ∀ key, first.find? key = second.find? key) : first = second := by
  have distinct : ∀ map : FlatMap before Value, map.entries.Nodup := fun map =>
    List.Nodup.of_map Prod.fst map.nodup_keys
  have perm : first.entries.Perm second.entries := by
    refine (List.perm_ext_iff_of_nodup (distinct first) (distinct second)).mpr fun entry => ?_
    rw [← find?_eq_some, ← find?_eq_some, same]
  refine ext (perm.eq_of_pairwise (fun earlier later _ _ forth back => ?_) first.sorted
    second.sorted)
  exact absurd (IsTrans.trans _ _ _ forth back) (Std.Irrefl.irrefl (r := before) earlier.1)

end Lookup

/-! ### Insertion -/

section Insertion

variable [DecidableRel before]

/-- Put an entry at its place; an entry already under the key stays. -/
def insertEntry (before : Key → Key → Prop) [DecidableRel before] (entry : Key × Value) :
    List (Key × Value) → List (Key × Value)
  | [] => [entry]
  | head :: rest =>
    if before entry.1 head.1 then entry :: head :: rest
    else if before head.1 entry.1 then head :: insertEntry before entry rest
    else head :: rest

theorem mem_insertEntry_of {entry other : Key × Value} {entries : List (Key × Value)}
    (member : other ∈ insertEntry before entry entries) : other = entry ∨ other ∈ entries := by
  induction entries with
  | nil => exact Or.inl (List.mem_singleton.mp member)
  | cons head rest inductionHypothesis =>
    rw [insertEntry] at member
    split_ifs at member with early late
    · exact List.mem_cons.mp member
    · rcases List.mem_cons.mp member with same | member
      · exact Or.inr (same ▸ List.mem_cons_self)
      · exact (inductionHypothesis member).imp_right (List.mem_cons_of_mem _)
    · exact Or.inr member

theorem mem_insertEntry_of_mem {entry other : Key × Value} {entries : List (Key × Value)}
    (member : other ∈ entries) : other ∈ insertEntry before entry entries := by
  induction entries with
  | nil => cases member
  | cons head rest inductionHypothesis =>
    rw [insertEntry]
    split_ifs with early late
    · exact List.mem_cons_of_mem _ member
    · rcases List.mem_cons.mp member with same | member
      · exact same ▸ List.mem_cons_self
      · exact List.mem_cons_of_mem _ (inductionHypothesis member)
    · exact member

/-- An insertion adds the entry at some place, or changes nothing. -/
theorem insertEntry_perm (entry : Key × Value) (entries : List (Key × Value)) :
    (insertEntry before entry entries).Perm (entry :: entries) ∨
      insertEntry before entry entries = entries := by
  induction entries with
  | nil => exact Or.inl (List.Perm.refl _)
  | cons head rest inductionHypothesis =>
    rw [insertEntry]
    split_ifs with early late
    · exact Or.inl (List.Perm.refl _)
    · exact inductionHypothesis.imp (fun perm => (perm.cons head).trans (List.Perm.swap ..))
        (congrArg (List.cons head))
    · exact Or.inr rfl

theorem insertEntry_sorted [IsTrans Key before] {entry : Key × Value}
    {entries : List (Key × Value)}
    (sorted : entries.Pairwise fun first second => before first.1 second.1) :
    (insertEntry before entry entries).Pairwise fun first second => before first.1 second.1 := by
  induction entries with
  | nil => exact List.pairwise_singleton _ _
  | cons head rest inductionHypothesis =>
    obtain ⟨headFirst, restSorted⟩ := List.pairwise_cons.mp sorted
    rw [insertEntry]
    split_ifs with early late
    · refine List.pairwise_cons.mpr ⟨fun other member => ?_, sorted⟩
      rcases List.mem_cons.mp member with same | member
      · exact same ▸ early
      · exact IsTrans.trans _ _ _ early (headFirst other member)
    · refine List.pairwise_cons.mpr ⟨fun other member => ?_, inductionHypothesis restSorted⟩
      rcases mem_insertEntry_of member with same | member
      · exact same ▸ late
      · exact headFirst other member
    · exact sorted

/-- The key of an inserted entry is present afterwards, by the entry itself when it was
absent before. -/
theorem mem_insertEntry_self [Std.Trichotomous before] {entry : Key × Value}
    {entries : List (Key × Value)} (absent : ∀ value, (entry.1, value) ∉ entries) :
    entry ∈ insertEntry before entry entries := by
  induction entries with
  | nil => exact List.mem_singleton_self _
  | cons head rest inductionHypothesis =>
    rw [insertEntry]
    split_ifs with early late
    · exact List.mem_cons_self
    · exact List.mem_cons_of_mem _
        (inductionHypothesis fun value member => absent value (List.mem_cons_of_mem _ member))
    · have same : entry.1 = head.1 := Std.Trichotomous.trichotomous _ _ early late
      exact absurd List.mem_cons_self (same ▸ absent head.2)

variable [IsStrictTotalOrder Key before]

/-- Insert an entry unless the key already has one. -/
def emplace (map : FlatMap before Value) (key : Key) (value : Value) : FlatMap before Value :=
  ⟨insertEntry before (key, value) map.entries, insertEntry_sorted map.sorted⟩

theorem find?_emplace [DecidableEq Key] (map : FlatMap before Value) (key other : Key)
    (value : Value) :
    (map.emplace key value).find? other =
      if other = key then some ((map.find? key).getD value) else map.find? other := by
  by_cases same : other = key
  · subst same
    rw [if_pos rfl, find?_eq_some]
    cases found : map.find? other with
    | none => exact mem_insertEntry_self ((find?_eq_none map).mp found)
    | some held => exact mem_insertEntry_of_mem ((find?_eq_some map).mp found)
  · rw [if_neg same]
    refine find?_congr fun held => ⟨fun member => ?_, mem_insertEntry_of_mem⟩
    rcases mem_insertEntry_of member with equal | member
    · exact absurd (congrArg Prod.fst equal) same
    · exact member

/-- A lookup after several insertions finds what was there, or else what was inserted first. -/
theorem find?_foldl_emplace {Source : Type} [DecidableEq Key] (key : Source → Key)
    (value : Source → Value) (map : FlatMap before Value) (sources : List Source) (other : Key) :
    (sources.foldl (fun map source => map.emplace (key source) (value source)) map).find? other =
      (map.find? other).or ((sources.find? fun source => key source = other).map value) := by
  induction sources generalizing map with
  | nil => exact (Option.or_none).symm
  | cons source rest inductionHypothesis =>
    rw [List.foldl_cons, inductionHypothesis, find?_emplace]
    by_cases same : other = key source
    · subst same
      rw [if_pos rfl, List.find?_cons_of_pos (by simp)]
      cases map.find? (key source) <;> rfl
    · rw [if_neg same, List.find?_cons_of_neg (by simpa using Ne.symm same)]

end Insertion

/-! ### Change and erasure -/

section Change

variable [DecidableEq Key]

/-- Replace the value under a key, if the key has one. -/
def modify (map : FlatMap before Value) (key : Key) (change : Value → Value) :
    FlatMap before Value where
  entries := map.entries.map fun entry =>
    if entry.1 = key then (entry.1, change entry.2) else entry
  sorted := by
    refine List.pairwise_map.mpr (map.sorted.imp fun ordered => ?_)
    split_ifs <;> exact ordered

theorem find?_modify [Std.Irrefl before] (map : FlatMap before Value) (key other : Key)
    (change : Value → Value) :
    (map.modify key change).find? other =
      if other = key then (map.find? key).map change else map.find? other := by
  have shape : ∀ value, (other, value) ∈ (map.modify key change).entries ↔
      ∃ held, (other, held) ∈ map.entries ∧
        (if other = key then change held else held) = value := by
    intro value
    simp only [modify, List.mem_map, Prod.exists]
    constructor
    · rintro ⟨entryKey, held, member, equal⟩
      split_ifs at equal with same <;> cases equal
      · exact ⟨held, member, if_pos same⟩
      · exact ⟨value, member, if_neg same⟩
    · rintro ⟨held, member, equal⟩
      refine ⟨other, held, member, ?_⟩
      split_ifs at equal ⊢ <;> rw [equal]
  cases found : (map.modify key change).find? other with
  | none =>
    rw [find?_eq_none] at found
    have absent : map.find? other = none :=
      (find?_eq_none map).mpr fun held member => found _ ((shape _).mpr ⟨held, member, rfl⟩)
    split_ifs with same
    · rw [← same, absent, Option.map_none]
    · exact absent.symm
  | some value =>
    obtain ⟨held, member, equal⟩ := (shape value).mp ((find?_eq_some _).mp found)
    rw [← find?_eq_some] at member
    split_ifs at equal ⊢ with same
    · rw [← same, member, Option.map_some, equal]
    · rw [member, equal]

/-- Replacing the values under several keys by a change that does nothing the second time. -/
theorem entries_foldl_modify (map : FlatMap before Value) (keys : List Key)
    {change : Value → Value} (idempotent : ∀ value, change (change value) = change value) :
    (keys.foldl (fun map key => map.modify key change) map).entries =
      map.entries.map fun entry =>
        if entry.1 ∈ keys then (entry.1, change entry.2) else entry := by
  induction keys generalizing map with
  | nil => simp
  | cons key rest inductionHypothesis =>
    rw [List.foldl_cons, inductionHypothesis, modify, List.map_map]
    refine List.map_congr_left fun entry _ => ?_
    by_cases same : entry.1 = key
    · by_cases again : key ∈ rest <;> simp [same, again, idempotent]
    · simp [same]

/-- Remove the entry under a key. -/
def erase (map : FlatMap before Value) (key : Key) : FlatMap before Value where
  entries := map.entries.filter fun entry => entry.1 ≠ key
  sorted := map.sorted.filter _

theorem find?_erase [Std.Irrefl before] (map : FlatMap before Value) (key other : Key) :
    (map.erase key).find? other = if other = key then none else map.find? other := by
  by_cases same : other = key
  · rw [if_pos same, find?_eq_none]
    intro value member
    simp [erase, same] at member
  · rw [if_neg same]
    refine find?_congr fun value => ?_
    simp [erase, same]

/-- A new entry that is removed again. -/
theorem erase_emplace [DecidableRel before] [IsStrictTotalOrder Key before]
    {map : FlatMap before Value} {key : Key} (absent : map.find? key = none) (value : Value) :
    (map.emplace key value).erase key = map := by
  refine eq_of_find? fun other => ?_
  rw [find?_erase, find?_emplace]
  split_ifs with same
  · rw [same, absent]
  · rfl

end Change

/-! ### One pass over all values -/

theorem mapAccum_sorted (visit : State → Key × Value → Value × State) (state : State)
    (map : FlatMap before Value) :
    (Keyed.mapAccum visit state map.entries).1.Pairwise fun first second =>
      before first.1 second.1 := by
  have keys : ((Keyed.mapAccum visit state map.entries).1.map Prod.fst).Pairwise before := by
    rw [Keyed.mapAccum_keys]
    exact List.pairwise_map.mpr map.sorted
  exact List.pairwise_map.mp keys

/-- Visit the entries in key order, replacing each value and threading a state. -/
def mapAccum (map : FlatMap before Value) (visit : State → Key × Value → Value × State)
    (state : State) : FlatMap before Value × State :=
  (⟨(Keyed.mapAccum visit state map.entries).1, mapAccum_sorted visit state map⟩,
    (Keyed.mapAccum visit state map.entries).2)

theorem mapAccum_congr {View : Type} {visit : State → Key × Value → Value × State}
    (view : State → View) (same : ∀ first second entry, view first = view second →
      (visit first entry).1 = (visit second entry).1 ∧
        view (visit first entry).2 = view (visit second entry).2)
    {first second : State} (alike : view first = view second) (map : FlatMap before Value) :
    (map.mapAccum visit first).1 = (map.mapAccum visit second).1 ∧
      view (map.mapAccum visit first).2 = view (map.mapAccum visit second).2 := by
  obtain ⟨entries, states⟩ := Keyed.mapAccum_congr view same alike map.entries
  exact ⟨ext entries, states⟩

/-! ### Images -/

section Image

variable {Key' Value' State' : Type} {before' : Key' → Key' → Prop} {first : FlatMap before Value}
  {second : FlatMap before' Value'}

/-- Whether a map lists the entries of another one with other keys, other values and in its own
order of keys. -/
def Image (key : Key → Key') (value : Value → Value') (first : FlatMap before Value)
    (second : FlatMap before' Value') : Prop :=
  second.entries = first.entries.map (Prod.map key value)

variable {key : Key → Key'} {value : Value → Value'}

theorem Image.isEmpty (image : Image key value first second) :
    second.isEmpty = first.isEmpty := by
  rw [FlatMap.isEmpty, image, List.isEmpty_map]
  rfl

theorem Image.begin? (image : Image key value first second) :
    second.begin? = first.begin?.map (Prod.map key value) := by
  rw [FlatMap.begin?, image, List.head?_map]
  rfl

theorem Image.mapAccum (image : Image key value first second)
    {visit : State → Key × Value → Value × State}
    {other : State' → Key' × Value' → Value' × State'} (change : State → State')
    (commutes : ∀ state entry,
      other (change state) (Prod.map key value entry) = Prod.map value change (visit state entry))
    (state : State) :
    Image key value (first.mapAccum visit state).1 (second.mapAccum other (change state)).1 ∧
      (second.mapAccum other (change state)).2 = change (first.mapAccum visit state).2 := by
  have passed := Keyed.mapAccum_map key value change commutes state first.entries
  rw [← image] at passed
  exact ⟨congrArg Prod.fst passed, congrArg Prod.snd passed⟩

/-- The image depends on what the values stand for that the map holds. -/
theorem Image.congr {other : Value → Value'} (image : Image key value first second)
    (same : ∀ entry ∈ first.entries, other entry.2 = value entry.2) :
    Image key other first second := by
  refine Eq.trans image (List.map_congr_left fun entry member => ?_)
  rw [Prod.map, Prod.map, same entry member]

variable [DecidableEq Key] [DecidableEq Key']

theorem Image.find? (image : Image key value first second) (injective : Function.Injective key)
    (found : Key) : second.find? (key found) = (first.find? found).map value := by
  rw [FlatMap.find?, image]
  exact Keyed.lookup_map injective value first.entries found

theorem Image.erase (image : Image key value first second) (injective : Function.Injective key)
    (gone : Key) : Image key value (first.erase gone) (second.erase (key gone)) := by
  change second.entries.filter _ = (first.entries.filter _).map _
  rw [image, List.filter_map]
  refine congrArg (List.map (Prod.map key value)) (List.filter_congr fun entry _ => ?_)
  exact decide_eq_decide.mpr (not_congr injective.eq_iff)

theorem Image.modify (image : Image key value first second) (injective : Function.Injective key)
    (change : Value → Value) (other : Value' → Value')
    (commutes : ∀ held, other (value held) = value (change held)) (changed : Key) :
    Image key value (first.modify changed change) (second.modify (key changed) other) := by
  change second.entries.map _ = (first.entries.map _).map _
  rw [image, List.map_map, List.map_map]
  refine List.map_congr_left fun entry _ => ?_
  by_cases same : entry.1 = changed
  · simp [Prod.map, same, commutes]
  · have different : key entry.1 ≠ key changed := fun equal => same (injective equal)
    simp [Prod.map, same, different]

omit [DecidableEq Key] [DecidableEq Key'] in
theorem Image.emplace [DecidableRel before] [DecidableRel before'] [IsStrictTotalOrder Key before]
    [IsStrictTotalOrder Key' before'] (image : Image key value first second) (added : Key)
    (keeps : ∀ entry ∈ first.entries, (before' (key added) (key entry.1) ↔ before added entry.1) ∧
      (before' (key entry.1) (key added) ↔ before entry.1 added)) (held : Value) :
    Image key value (first.emplace added held) (second.emplace (key added) (value held)) := by
  change insertEntry before' _ second.entries = (insertEntry before _ first.entries).map _
  rw [image]
  generalize first.entries = entries at keeps ⊢
  induction entries with
  | nil => rfl
  | cons entry rest inductionHypothesis =>
    obtain ⟨own, others⟩ := List.forall_mem_cons.mp keeps
    rw [List.map_cons, insertEntry, insertEntry]
    simp only [Prod.map_fst, own.1, own.2]
    split_ifs
    · rfl
    · exact congrArg (List.cons _) (inductionHypothesis others)
    · rfl

end Image

section Addresses

variable {Address : Type} {before' : Key → Key → Prop} [DecidableEq Key] [DecidableEq Address]
  {first : FlatMap before Address} {second : FlatMap before' Value} {content : Address → Value}
  {base : List (Key × Address)}

/-- When the values of a map are addresses, each under one key only, changing what is at an
address changes what is under its key. -/
theorem Image.update (image : Image id content first second) (keys : (base.map Prod.fst).Nodup)
    (addresses : (base.map Prod.snd).Nodup) (subset : ∀ entry ∈ first.entries, entry ∈ base)
    {key : Key} {address : Address} (member : (key, address) ∈ base) (change : Value → Value) :
    Image id (Function.update content address (change (content address))) first
      (second.modify key change) := by
  change second.entries.map _ = _
  rw [image, List.map_map]
  refine List.map_congr_left fun entry inFirst => ?_
  have inBase := subset entry inFirst
  by_cases same : entry.1 = key
  · have own := List.inj_on_of_nodup_map keys inBase member same
    simp [Prod.map, own]
  · have away : entry.2 ≠ address := fun equal =>
      same (congrArg Prod.fst (List.inj_on_of_nodup_map addresses inBase member equal))
    simp [Prod.map, same, away]

end Addresses

end FlatMap
