/-
This file collects what the two map libraries share: lookup in a list of entries
whose keys are pairwise distinct, and one pass over the entries of such a list
that may replace each value and threads a state. The pass never touches a key.
-/

import Mathlib.Data.List.Basic
import Mathlib.Data.List.Nodup

namespace Keyed

variable {Key Value State Key' Value' State' : Type}

section Lookup

variable [DecidableEq Key]

/-- With distinct keys a lookup finds exactly the entry that is there. -/
theorem lookup_eq_some {entries : List (Key × Value)} (distinct : (entries.map Prod.fst).Nodup)
    {key : Key} {value : Value} : entries.lookup key = some value ↔ (key, value) ∈ entries := by
  rw [List.lookup_eq_some_iff]
  constructor
  · rintro ⟨front, back, rfl, _⟩
    exact List.mem_append_right _ List.mem_cons_self
  · intro member
    obtain ⟨front, back, rfl⟩ := List.append_of_mem member
    refine ⟨front, back, rfl, fun entry inFront => ?_⟩
    rw [List.map_append, List.nodup_append] at distinct
    simpa using (distinct.2.2 entry.1 (List.mem_map_of_mem inFront) key
      (List.mem_map.mpr ⟨_, List.mem_cons_self, rfl⟩)).symm

theorem lookup_eq_none {entries : List (Key × Value)} {key : Key} :
    entries.lookup key = none ↔ key ∉ entries.map Prod.fst := by
  rw [List.lookup_eq_none_iff, List.mem_map]
  constructor
  · rintro absent ⟨entry, member, same⟩
    simpa [same] using absent entry member
  · intro absent entry member
    simpa using fun same : key = entry.1 => absent ⟨entry, member, same.symm⟩

/-- A search by key is determined by the items when their keys are distinct. -/
theorem find?_congr {Item : Type} {identify : Item → Key} {first second : List Item}
    (distinct : (second.map identify).Nodup) (same : ∀ item, item ∈ first ↔ item ∈ second)
    (key : Key) :
    first.find? (fun item => identify item = key) =
      second.find? fun item => identify item = key := by
  cases found : first.find? fun item => identify item = key with
  | none =>
    refine (List.find?_eq_none.mpr fun item member => ?_).symm
    exact List.find?_eq_none.mp found item ((same item).mpr member)
  | some item =>
    have member := (same item).mp (List.mem_of_find?_eq_some found)
    have own : identify item = key := by simpa using List.find?_some found
    cases other : second.find? fun item => identify item = key with
    | none => exact absurd (decide_eq_true own) (List.find?_eq_none.mp other item member)
    | some held =>
      have heldOwn : identify held = key := by simpa using List.find?_some other
      exact congrArg some (List.inj_on_of_nodup_map distinct member
        (List.mem_of_find?_eq_some other) (own.trans heldOwn.symm))

/-- A lookup commutes with an injective renaming of the keys and a change of all values. -/
theorem lookup_map [DecidableEq Key'] {key : Key → Key'} (injective : Function.Injective key)
    (value : Value → Value') (entries : List (Key × Value)) (found : Key) :
    (entries.map (Prod.map key value)).lookup (key found) = (entries.lookup found).map value := by
  induction entries with
  | nil => rfl
  | cons entry rest inductionHypothesis =>
    rw [List.map_cons, List.lookup_cons, List.lookup_cons, inductionHypothesis]
    by_cases same : found = entry.1
    · simp [same]
    · have other : key found ≠ key entry.1 := fun equal => same (injective equal)
      simp only [Prod.map_fst, beq_false_of_ne same, beq_false_of_ne other]

end Lookup

/-- Visit the entries of a list from the front, replacing each value and threading a
state. -/
def mapAccum (visit : State → Key × Value → Value × State) (state : State) :
    List (Key × Value) → List (Key × Value) × State
  | [] => ([], state)
  | entry :: rest =>
    let visited := visit state entry
    let others := mapAccum visit visited.2 rest
    ((entry.1, visited.1) :: others.1, others.2)

theorem mapAccum_cons (visit : State → Key × Value → Value × State) (state : State)
    (entry : Key × Value) (rest : List (Key × Value)) :
    mapAccum visit state (entry :: rest) =
      ((entry.1, (visit state entry).1) :: (mapAccum visit (visit state entry).2 rest).1,
        (mapAccum visit (visit state entry).2 rest).2) := rfl

/-- A pass leaves the keys where they are. -/
theorem mapAccum_keys (visit : State → Key × Value → Value × State) (state : State)
    (entries : List (Key × Value)) :
    (mapAccum visit state entries).1.map Prod.fst = entries.map Prod.fst := by
  induction entries generalizing state with
  | nil => rfl
  | cons entry rest inductionHypothesis =>
    rw [mapAccum_cons, List.map_cons, List.map_cons, inductionHypothesis]

/-- A pass whose visits leave the values and the state alone changes nothing. -/
theorem mapAccum_idle (visit : State → Key × Value → Value × State) (state : State)
    (idle : ∀ entry, visit state entry = (entry.2, state)) (entries : List (Key × Value)) :
    mapAccum visit state entries = (entries, state) := by
  induction entries with
  | nil => rfl
  | cons entry rest inductionHypothesis =>
    rw [mapAccum_cons, idle, inductionHypothesis]

/-- Passes from two states do the same when the visits see no difference between the states. -/
theorem mapAccum_congr {visit : State → Key × Value → Value × State} (view : State → State')
    (same : ∀ first second entry, view first = view second →
      (visit first entry).1 = (visit second entry).1 ∧
        view (visit first entry).2 = view (visit second entry).2)
    {first second : State} (alike : view first = view second) (entries : List (Key × Value)) :
    (mapAccum visit first entries).1 = (mapAccum visit second entries).1 ∧
      view (mapAccum visit first entries).2 = view (mapAccum visit second entries).2 := by
  induction entries generalizing first second with
  | nil => exact ⟨rfl, alike⟩
  | cons entry rest inductionHypothesis =>
    obtain ⟨value, next⟩ := same first second entry alike
    obtain ⟨values, last⟩ := inductionHypothesis next
    rw [mapAccum_cons, mapAccum_cons, value, values]
    exact ⟨rfl, last⟩

/-- A pass commutes with a renaming of the keys, a change of all values and one of the state. -/
theorem mapAccum_map {visit : State → Key × Value → Value × State}
    {other : State' → Key' × Value' → Value' × State'} (key : Key → Key') (value : Value → Value')
    (change : State → State') (commutes : ∀ state entry,
      other (change state) (Prod.map key value entry) = Prod.map value change (visit state entry))
    (state : State) (entries : List (Key × Value)) :
    mapAccum other (change state) (entries.map (Prod.map key value)) =
      Prod.map (List.map (Prod.map key value)) change (mapAccum visit state entries) := by
  induction entries generalizing state with
  | nil => rfl
  | cons entry rest inductionHypothesis =>
    rw [List.map_cons, mapAccum_cons, mapAccum_cons, commutes, Prod.map_snd, inductionHypothesis]
    rfl

end Keyed
