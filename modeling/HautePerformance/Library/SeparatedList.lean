import Mathlib.Data.List.DropRight
import Mathlib.Data.List.Basic

/-!
# Separated lists

Reading a list that consists of items with separators between them: the list is
split at the separators, the blanks around each item are stripped, and items that
were nothing but blanks are left out.  On a list that was written with any blanks
around the items, and any empty items between them, this gives the items back.
-/

namespace HautePerformance.Library

universe u

variable {α : Type u}

/-- There is no separator in what it separates. -/
theorem notMem_of_mem_splitOn [DecidableEq α] {separator : α} {items : List α} :
    ∀ {field : List α}, field ∈ items.splitOn separator → separator ∉ field := by
  induction items with
  | nil =>
      intro field member
      rw [List.splitOn_nil, List.mem_singleton] at member
      rw [member]
      exact List.not_mem_nil
  | cons item rest inductionHypothesis =>
      intro field member
      rw [List.splitOn_cons_eq_if_modifyHead] at member
      split at member
      · rcases List.mem_cons.mp member with rfl | later
        · exact List.not_mem_nil
        · exact inductionHypothesis later
      · rename_i different
        obtain ⟨first, others, splits⟩ :=
          List.exists_cons_of_ne_nil (List.splitOn_ne_nil separator rest)
        rw [splits, List.modifyHead_cons] at member
        rw [splits] at inductionHypothesis
        rcases List.mem_cons.mp member with rfl | later
        · rw [List.mem_cons, not_or]
          exact ⟨fun same => different (by simp [same]),
            inductionHypothesis List.mem_cons_self⟩
        · exact inductionHypothesis (List.mem_cons_of_mem _ later)

/-- The list without the blanks at either end. -/
def stripped (blank : α → Bool) (items : List α) : List α :=
  (items.dropWhile blank).rdropWhile blank

/-- The items between the separators that are not blank. -/
def fields [DecidableEq α] (separator : α) (blank : α → Bool)
    (items : List α) : List (List α) :=
  ((items.splitOn separator).map (stripped blank)).filter (· ≠ [])

/-- No separator inside and no blank at either end; it may be empty. -/
structure Tidy (separator : α) (blank : α → Bool) (content : List α) :
    Prop where
  whole : separator ∉ content
  first : ∀ item, content.head? = some item → blank item = false
  last : ∀ item, content.getLast? = some item → blank item = false

/-- A field as it is written: a tidy content with blanks around it. -/
structure Padded (separator : α) (blank : α → Bool) where
  before : List α
  content : List α
  after : List α
  blankBefore : ∀ item, item ∈ before → blank item = true
  blankAfter : ∀ item, item ∈ after → blank item = true
  tidy : Tidy separator blank content

namespace Padded

variable {separator : α} {blank : α → Bool}

def render (field : Padded separator blank) : List α :=
  field.before ++ field.content ++ field.after

/-- The blanks around a field are stripped. -/
theorem stripped_render (field : Padded separator blank) :
    stripped blank field.render = field.content := by
  have allBlank : field.after.rdropWhile blank = [] :=
    List.rdropWhile_eq_nil_iff.mpr field.blankAfter
  rw [stripped, render, List.append_assoc,
    List.dropWhile_append_of_pos field.blankBefore]
  cases content : field.content with
  | nil =>
      rw [List.nil_append]
      have nothing : field.after.dropWhile blank = [] :=
        List.dropWhile_eq_nil_iff.mpr field.blankAfter
      rw [nothing, List.rdropWhile_nil]
  | cons head tail =>
      have headKept : blank head = false :=
        field.tidy.first head (by rw [content]; rfl)
      have started : ((head :: tail) ++ field.after).dropWhile blank =
          (head :: tail) ++ field.after := by
        rw [List.cons_append, List.dropWhile_cons_of_neg (by simp [headKept])]
      have reversedBlank (item : α) (member : item ∈ field.after.reverse) :
          blank item = true :=
        field.blankAfter item (List.mem_reverse.mp member)
      have ended : (head :: tail).rdropWhile blank = head :: tail := by
        apply List.rdropWhile_eq_self_iff.mpr
        intro nonempty
        have lastKept := field.tidy.last ((head :: tail).getLast nonempty)
          (by rw [content]; exact List.getLast?_eq_some_getLast nonempty)
        simp [lastKept]
      rw [started, List.rdropWhile, List.reverse_append,
        List.dropWhile_append_of_pos reversedBlank]
      exact ended

/-- Blanks are no separators, so neither is anything in a field. -/
theorem separator_not_mem_render (notBlank : blank separator = false)
    (field : Padded separator blank) : separator ∉ field.render := by
  intro member
  have isBlank (given : blank separator = true) : False := by
    rw [notBlank] at given
    cases given
  rcases List.mem_append.mp member with inFront | inAfter
  · rcases List.mem_append.mp inFront with inBefore | inContent
    · exact isBlank (field.blankBefore separator inBefore)
    · exact field.tidy.whole inContent
  · exact isBlank (field.blankAfter separator inAfter)

/-- Reading back what was written. -/
theorem fields_intercalate [DecidableEq α]
    (notBlank : blank separator = false)
    {written : List (Padded separator blank)} (nonempty : written ≠ []) :
    fields separator blank
        ([separator].intercalate (written.map render)) =
      (written.map content).filter (· ≠ []) := by
  have noSeparator (field : List α) (member : field ∈ written.map render) :
      separator ∉ field := by
    obtain ⟨padded, _, rfl⟩ := List.mem_map.mp member
    exact padded.separator_not_mem_render notBlank
  have somewhere : written.map render ≠ [] := by
    intro nothing
    exact nonempty (List.map_eq_nil_iff.mp nothing)
  rw [fields, List.splitOn_intercalate separator noSeparator somewhere,
    List.map_map]
  congr 1
  apply List.map_congr_left
  intro padded _
  exact padded.stripped_render

end Padded

end HautePerformance.Library
