import Mathlib.Data.List.AList
import Mathlib.Data.List.Induction

/-!
# Replaying changes of a map

A change sets or removes one key.  Replaying a list of changes leaves at each key
what the last change of that key says.
-/

namespace HautePerformance.Library

variable {Key Value : Type} [DecidableEq Key]

/-- A key and its value after the change, none if the key is removed. -/
structure Change (Key Value : Type) where
  key : Key
  image : Option Value
  deriving DecidableEq, Repr

namespace Change

variable {change last : Change Key Value} {key : Key}
variable {map : AList fun _ : Key => Value} {changes : List (Change Key Value)}

def apply (map : AList fun _ : Key => Value) (change : Change Key Value) :
    AList fun _ : Key => Value :=
  match change.image with
  | some value => map.insert change.key value
  | none => map.erase change.key

/-- The map after the changes, from an empty one. -/
def replay (changes : List (Change Key Value)) : AList fun _ : Key => Value :=
  changes.foldl apply ∅

/-- The last change of a key. -/
def lastOf (key : Key) (changes : List (Change Key Value)) :
    Option (Change Key Value) :=
  (changes.filter fun change => change.key = key).getLast?

theorem lookup_apply_self (map : AList fun _ : Key => Value)
    (change : Change Key Value) :
    (apply map change).lookup change.key = change.image := by
  cases image : change.image with
  | none => rw [apply, image, AList.lookup_erase]
  | some value => rw [apply, image, AList.lookup_insert]

theorem lookup_apply_ne (map : AList fun _ : Key => Value)
    (different : key ≠ change.key) :
    (apply map change).lookup key = map.lookup key := by
  cases image : change.image with
  | none => rw [apply, image, AList.lookup_erase_ne different]
  | some value => rw [apply, image, AList.lookup_insert_ne different]

theorem replay_append (changes : List (Change Key Value))
    (last : Change Key Value) :
    replay (changes ++ [last]) = apply (replay changes) last := by
  simp [replay]

theorem lastOf_append_self (changes : List (Change Key Value))
    (last : Change Key Value) :
    lastOf last.key (changes ++ [last]) = some last := by
  simp [lastOf]

theorem lastOf_append_ne (changes : List (Change Key Value))
    (different : key ≠ last.key) :
    lastOf key (changes ++ [last]) = lastOf key changes := by
  simp [lastOf, Ne.symm different]

/-- The last change of a key decides its value. -/
theorem lookup_replay (changes : List (Change Key Value)) (key : Key) :
    (replay changes).lookup key = (lastOf key changes).bind image := by
  induction changes using List.reverseRecOn with
  | nil => rfl
  | append_singleton before last inductionHypothesis =>
      rw [replay_append]
      by_cases same : key = last.key
      · subst same
        rw [lookup_apply_self, lastOf_append_self, Option.bind_some]
      · rw [lookup_apply_ne _ same, lastOf_append_ne _ same,
          inductionHypothesis]

end Change

end HautePerformance.Library
