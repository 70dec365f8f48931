/-
This file is a small library about the blanks around a text, for any letters and any
notion of a blank. A text is blank, or blanks before its core, the core, which
neither begins nor ends with a blank, and blanks after it. When two streams that
agree but for blanks at their beginning begin with a text each, the core of one text
is a prefix of that of the other; if the cores are the same, what follows agrees but
for blanks at its beginning.
-/

import Mathlib.Data.List.DropRight
import Mathlib.Data.List.TakeWhile

namespace Trim

variable {Letter : Type} (blank : Letter → Bool)

/-- Whether a text has nothing but blanks. -/
def Blank (text : List Letter) : Prop := ∀ letter ∈ text, blank letter = true

instance : DecidablePred (Blank blank) := fun text =>
  inferInstanceAs (Decidable (∀ letter ∈ text, _))

/-- The text without the blanks around it. -/
def trim (text : List Letter) : List Letter := (text.dropWhile blank).rdropWhile blank

variable {blank} {text rest other : List Letter}

variable (blank) in
theorem exists_around (text : List Letter) :
    ∃ before after, text = before ++ (trim blank text ++ after) ∧ Blank blank before ∧
      Blank blank after := by
  refine ⟨text.takeWhile blank, (text.dropWhile blank).rtakeWhile blank, ?_, ?_, ?_⟩
  · rw [trim, List.rdropWhile_append_rtakeWhile, List.takeWhile_append_dropWhile]
  · exact fun letter member => List.mem_takeWhile_imp member
  · exact fun letter member => List.mem_rtakeWhile_imp member

theorem dropWhile_append_of_blank (nothing : Blank blank text) (rest : List Letter) :
    (text ++ rest).dropWhile blank = rest.dropWhile blank :=
  List.dropWhile_append_of_pos nothing

theorem dropWhile_eq_nil : text.dropWhile blank = [] ↔ Blank blank text :=
  List.dropWhile_eq_nil_iff

/-- The first letter of a core is not blank. -/
theorem head_not_blank (text : List Letter) {letter : Letter}
    (first : (trim blank text).head? = some letter) :
    blank letter = false := by
  obtain ⟨after, split⟩ := List.rdropWhile_prefix blank (text.dropWhile blank)
  have head : (text.dropWhile blank).head? = some letter := by
    rw [← split, List.head?_append, show (List.rdropWhile blank _).head? = _ from first,
      Option.some_or]
  have plain := List.head?_dropWhile_not blank text
  rw [head] at plain
  exact plain

theorem trim_eq_nil : trim blank text = [] ↔ Blank blank text := by
  rw [trim, List.rdropWhile_eq_nil_iff, ← dropWhile_eq_nil]
  constructor
  · intro all
    rw [← List.dropWhile_idempotent, List.dropWhile_eq_nil_iff]
    exact all
  · intro none letter member
    rw [none] at member
    cases member

/-- A core has no blanks around it. -/
theorem trim_trim (text : List Letter) : trim blank (trim blank text) = trim blank text := by
  cases core : trim blank text with
  | nil => rfl
  | cons letter rest =>
    have plain : blank letter = false := head_not_blank text (by rw [core]; rfl)
    rw [trim, List.dropWhile_cons_of_neg (Bool.not_eq_true _ ▸ plain), ← core, trim,
      List.rdropWhile_idempotent]

/-- No blanks end a core. -/
theorem eq_nil_of_blank {core : List Letter} (split : trim blank text = core ++ rest)
    (nothing : Blank blank rest) : rest = [] := by
  by_contra some
  have nonempty : trim blank text ≠ [] := by
    rw [split]
    exact List.append_ne_nil_of_right_ne_nil core some
  refine List.rdropWhile_last_not blank (text.dropWhile blank) nonempty (nothing _ ?_)
  have last : (trim blank text).getLast nonempty = rest.getLast some := by
    rw [List.getLast_congr _ (List.append_ne_nil_of_right_ne_nil core some) split]
    exact List.getLast_append_of_right_ne_nil _ _ some
  exact last ▸ List.getLast_mem some

/-- A stream that begins with a text begins, after blanks, with the core of the text. -/
theorem dropWhile_append (some : ¬ Blank blank text) :
    ∃ after, Blank blank after ∧ ∀ rest,
      (text ++ rest).dropWhile blank = trim blank text ++ (after ++ rest) := by
  obtain ⟨before, after, split, blankBefore, blankAfter⟩ := exists_around blank text
  refine ⟨after, blankAfter, fun rest => ?_⟩
  obtain ⟨letter, core, first⟩ := List.exists_cons_of_ne_nil (mt trim_eq_nil.mp some)
  have plain : blank letter = false := head_not_blank text (by rw [first]; rfl)
  calc (text ++ rest).dropWhile blank
      = (before ++ (trim blank text ++ (after ++ rest))).dropWhile blank := by
        conv_lhs => rw [split]
        rw [List.append_assoc, List.append_assoc]
    _ = (trim blank text ++ (after ++ rest)).dropWhile blank :=
        dropWhile_append_of_blank blankBefore _
    _ = trim blank text ++ (after ++ rest) := by
        rw [first, List.cons_append,
          List.dropWhile_cons_of_neg (Bool.not_eq_true _ ▸ plain)]

/-- What follows a text without changing its core is blank. -/
theorem blank_of_trim_eq (some : ¬ Blank blank text)
    (same : trim blank (text ++ rest) = trim blank text) : Blank blank rest := by
  have longer : ¬ Blank blank (text ++ rest) := fun nothing =>
    some fun letter member => nothing letter (List.mem_append_left _ member)
  obtain ⟨after, -, afterEq⟩ := dropWhile_append some
  obtain ⟨further, blankFurther, furtherEq⟩ := dropWhile_append longer
  have stream := (afterEq rest).symm.trans
    ((congrArg _ (List.append_nil _).symm).trans (furtherEq []))
  rw [same, List.append_nil] at stream
  intro letter member
  exact blankFurther letter
    (List.append_cancel_left stream ▸ List.mem_append_right after member)

/-- A letter stays in front of others unless nothing is left of them and it goes too. -/
theorem rdropWhile_cons (letter : Letter) (text : List Letter) :
    (letter :: text).rdropWhile blank =
      if text.rdropWhile blank = [] ∧ blank letter = true then []
      else letter :: text.rdropWhile blank := by
  simp only [List.rdropWhile, List.reverse_cons, List.dropWhile_append, List.isEmpty_iff,
    List.reverse_eq_nil_iff]
  by_cases nothing : text.reverse.dropWhile blank = []
  · rw [if_pos nothing, nothing]
    cases plain : blank letter <;> simp [plain]
  · rw [if_neg nothing, if_neg fun both => nothing both.1, List.reverse_append]
    rfl

section Streams

variable {first second : List Letter}

/-- Of two texts at the beginning of one stream, the core of one is a prefix of that of the
other. -/
theorem prefix_or_prefix (firstSome : ¬ Blank blank first) (secondSome : ¬ Blank blank second)
    (same : (first ++ rest).dropWhile blank = (second ++ other).dropWhile blank) :
    trim blank first <+: trim blank second ∨ trim blank second <+: trim blank first := by
  obtain ⟨afterFirst, -, firstEq⟩ := dropWhile_append firstSome
  obtain ⟨afterSecond, -, secondEq⟩ := dropWhile_append secondSome
  rw [firstEq, secondEq] at same
  exact List.prefix_or_prefix_of_prefix ⟨_, rfl⟩ ⟨_, same.symm⟩

/-- What follows two texts with one core agrees but for blanks. -/
theorem dropWhile_of_trim_eq (some : ¬ Blank blank first)
    (core : trim blank first = trim blank second)
    (same : (first ++ rest).dropWhile blank = (second ++ other).dropWhile blank) :
    rest.dropWhile blank = other.dropWhile blank := by
  have secondSome : ¬ Blank blank second := fun nothing =>
    some (trim_eq_nil.mp (core.trans (trim_eq_nil.mpr nothing)))
  obtain ⟨afterFirst, blankFirst, firstEq⟩ := dropWhile_append some
  obtain ⟨afterSecond, blankSecond, secondEq⟩ := dropWhile_append secondSome
  rw [firstEq, secondEq, core] at same
  calc rest.dropWhile blank
      = (afterFirst ++ rest).dropWhile blank := (dropWhile_append_of_blank blankFirst _).symm
    _ = (afterSecond ++ other).dropWhile blank := by rw [List.append_cancel_left same]
    _ = other.dropWhile blank := dropWhile_append_of_blank blankSecond _

end Streams

end Trim
