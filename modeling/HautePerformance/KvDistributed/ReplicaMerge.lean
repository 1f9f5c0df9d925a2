import Mathlib.Data.Finset.Lattice.Fold
import Mathlib.Order.Lattice.Nat
import HautePerformance.Library.HighestStamp
import HautePerformance.KvDistributed.Storage

/-!
# Deliveries to a replica

What a storage engine becomes when `Replicate` updates are processed one at a time.
Under each key it is a register in which the highest version wins, so the outcome
depends on the set of the updates only.
-/

namespace HautePerformance.KvDistributed

open Library.HighestStamp

/-- What an entry says, whenever it was stored. -/
structure Content where
  data : Bytes
  version : UInt64
  ttl : Option Nat
  deriving DecidableEq, Repr

def ValueEntry.content (entry : ValueEntry) : Content :=
  { data := entry.data, version := entry.version, ttl := entry.ttl }

/-- The stamp of a content. -/
def Content.stamp (content : Content) : Nat :=
  content.version.toNat

/-- What a `Replicate` asks to store. -/
structure Update where
  key : String
  value : Bytes
  version : UInt64
  ttlMs : Option UInt64
  deriving DecidableEq, Repr

def Update.content (update : Update) : Content :=
  { data := update.value
    version := update.version
    ttl := update.ttlMs.map durationFromMillis }

namespace StorageEngine

/-- The engine after an update has been processed at an instant. -/
def deliver (engine : StorageEngine) (delivery : Update × Nat) :
    StorageEngine :=
  (engine.putWithVersion delivery.1.key delivery.1.value delivery.1.version
    (delivery.1.ttlMs.map durationFromMillis) delivery.2).2

/-- The content under a key. -/
def contentAt (engine : StorageEngine) (key : String) : Option Content :=
  (engine.lookup key).map ValueEntry.content

theorem contentAt_deliver_self (engine : StorageEngine) (update : Update)
    (now : Nat) :
    (engine.deliver (update, now)).contentAt update.key =
      absorb Content.stamp (engine.contentAt update.key) update.content := by
  unfold contentAt deliver
  rcases lookup_putWithVersion_self engine update.key update.value
      update.version (update.ttlMs.map durationFromMillis) now with
    ⟨existing, found, notAbove, kept⟩ | ⟨allBelow, stored⟩
  · have notHigher : update.content.stamp ≤ existing.content.stamp :=
      UInt64.le_iff_toNat_le.mp notAbove
    rw [kept, found]
    exact (if_pos notHigher).symm
  · rw [stored]
    cases found : engine.lookup update.key with
    | none => rfl
    | some existing =>
        have higher : ¬ update.content.stamp ≤ existing.content.stamp := by
          have below := UInt64.lt_iff_toNat_lt.mp (allBelow existing found)
          exact Nat.not_le.mpr below
        exact (if_neg higher).symm

theorem contentAt_deliver_ne (engine : StorageEngine) {update : Update}
    {key : String} (different : key ≠ update.key) (now : Nat) :
    (engine.deliver (update, now)).contentAt key = engine.contentAt key := by
  unfold contentAt deliver
  rw [lookup_putWithVersion_ne engine different]

/-- The contents that a list of deliveries brings to a key, in order. -/
def arrivals (key : String) : List (Update × Nat) → List Content
  | [] => []
  | (update, _) :: rest =>
      if update.key = key then update.content :: arrivals key rest
      else arrivals key rest

theorem mem_arrivals {key : String} {content : Content}
    {deliveries : List (Update × Nat)} :
    content ∈ arrivals key deliveries ↔
      ∃ update now,
        (update, now) ∈ deliveries ∧ update.key = key ∧
          update.content = content := by
  induction deliveries with
  | nil => simp [arrivals]
  | cons delivery rest inductionHypothesis =>
      obtain ⟨first, instant⟩ := delivery
      simp only [arrivals]
      split
      · rename_i isHere
        rw [List.mem_cons, inductionHypothesis]
        constructor
        · intro given
          rcases given with same | ⟨update, now, member, others⟩
          · exact ⟨first, instant, List.mem_cons_self, isHere, same.symm⟩
          · exact ⟨update, now, List.mem_cons_of_mem _ member, others⟩
        · intro given
          obtain ⟨update, now, member, keyed, same⟩ := given
          rcases List.mem_cons.mp member with here | later
          · cases here
            exact Or.inl same.symm
          · exact Or.inr ⟨update, now, later, keyed, same⟩
      · rename_i elsewhere
        rw [inductionHypothesis]
        constructor
        · intro given
          obtain ⟨update, now, member, others⟩ := given
          exact ⟨update, now, List.mem_cons_of_mem _ member, others⟩
        · intro given
          obtain ⟨update, now, member, keyed, same⟩ := given
          rcases List.mem_cons.mp member with here | later
          · cases here
            exact absurd keyed elsewhere
          · exact ⟨update, now, later, keyed, same⟩

/-- Each key of the engine is a register that absorbs what arrives for it. -/
theorem contentAt_foldl_deliver (key : String) :
    ∀ (deliveries : List (Update × Nat)) (engine : StorageEngine),
      (deliveries.foldl deliver engine).contentAt key =
        (arrivals key deliveries).foldl (absorb Content.stamp)
          (engine.contentAt key)
  | [], _ => rfl
  | (update, now) :: rest, engine => by
      rw [List.foldl_cons, contentAt_foldl_deliver key rest]
      by_cases isHere : update.key = key
      · subst isHere
        rw [contentAt_deliver_self, arrivals, if_pos rfl, List.foldl_cons]
      · rw [contentAt_deliver_ne engine (Ne.symm isHere), arrivals,
          if_neg isHere]

theorem versionCounter_foldl_deliver :
    ∀ (deliveries : List (Update × Nat)) (engine : StorageEngine),
      (deliveries.foldl deliver engine).versionCounter.toNat =
        max engine.versionCounter.toNat
          ((deliveries.map Prod.fst).toFinset.sup fun update =>
            update.version.toNat)
  | [], engine => by
      simp
  | (update, now) :: rest, engine => by
      rw [List.foldl_cons, versionCounter_foldl_deliver rest, deliver,
        versionCounter_putWithVersion, toNat_raisedCounter, List.map_cons,
        List.toFinset_cons, Finset.sup_insert, max_assoc]

/-- The deliveries are of these updates, of each at least once. -/
def Delivers (updates : Finset Update) (deliveries : List (Update × Nat)) :
    Prop :=
  (deliveries.map Prod.fst).toFinset = updates

instance (updates : Finset Update) (deliveries : List (Update × Nat)) :
    Decidable (Delivers updates deliveries) :=
  inferInstanceAs (Decidable (_ = _))

/-- No two updates of a key share a version. -/
def VersionsApart (updates : Finset Update) : Prop :=
  ∀ first, first ∈ updates → ∀ second, second ∈ updates →
    first.key = second.key → first.version = second.version → first = second

instance (updates : Finset Update) : Decidable (VersionsApart updates) :=
  inferInstanceAs (Decidable
    (∀ first, first ∈ updates → ∀ second, second ∈ updates →
      first.key = second.key → first.version = second.version →
        first = second))

/-- The contents that a set of updates offers to a key. -/
def offers (updates : Finset Update) (key : String) : Set Content :=
  {content | ∃ update, update ∈ updates ∧ update.key = key ∧
    update.content = content}

theorem offers_eq_arrivals {updates : Finset Update}
    {deliveries : List (Update × Nat)}
    (delivers : Delivers updates deliveries) (key : String) :
    offers updates key = {content | content ∈ arrivals key deliveries} := by
  have updated (update : Update) :
      update ∈ updates ↔ ∃ now, (update, now) ∈ deliveries := by
    have same : (deliveries.map Prod.fst).toFinset = updates := delivers
    rw [← same, List.mem_toFinset]
    simp
  ext content
  constructor
  · intro offered
    obtain ⟨update, member, others⟩ := offered
    obtain ⟨now, delivered⟩ := (updated update).mp member
    exact mem_arrivals.mpr ⟨update, now, delivered, others⟩
  · intro arrived
    obtain ⟨update, now, delivered, others⟩ := mem_arrivals.mp arrived
    exact ⟨update, (updated update).mpr ⟨now, delivered⟩, others⟩

theorem highest_deliveries {updates : Finset Update}
    {deliveries : List (Update × Nat)}
    (delivers : Delivers updates deliveries) (engine : StorageEngine)
    (key : String) :
    Highest Content.stamp (engine.contentAt key) (offers updates key)
      ((deliveries.foldl deliver engine).contentAt key) := by
  rw [offers_eq_arrivals delivers, contentAt_foldl_deliver]
  exact highest_foldl _ _

/-- Deliveries commute and are idempotent.  However often and in whatever order a
set of updates is processed, each key ends with the content of highest version
among its initial one, which wins ties, and the updates, and the counter with the
maximum of its initial value and the versions; two such runs end alike. -/
theorem deliveries_merge (engine : StorageEngine) (updates : Finset Update)
    (apart : VersionsApart updates) (deliveries : List (Update × Nat))
    (delivers : Delivers updates deliveries) :
    (∀ key,
      Highest Content.stamp (engine.contentAt key) (offers updates key)
        ((deliveries.foldl deliver engine).contentAt key)) ∧
      (deliveries.foldl deliver engine).versionCounter.toNat =
        max engine.versionCounter.toNat
          (updates.sup fun update => update.version.toNat) ∧
      ∀ others, Delivers updates others →
        (∀ key,
          (others.foldl deliver engine).contentAt key =
            (deliveries.foldl deliver engine).contentAt key) ∧
          (others.foldl deliver engine).versionCounter =
            (deliveries.foldl deliver engine).versionCounter := by
  have counter (run : List (Update × Nat)) (complete : Delivers updates run) :
      (run.foldl deliver engine).versionCounter.toNat =
        max engine.versionCounter.toNat
          (updates.sup fun update => update.version.toNat) := by
    rw [versionCounter_foldl_deliver, complete]
  refine ⟨highest_deliveries delivers engine, counter deliveries delivers, ?_⟩
  intro others otherDelivers
  constructor
  · intro key
    apply Highest.unique _ (highest_deliveries otherDelivers engine key)
      (highest_deliveries delivers engine key)
    intro left right leftOffered rightOffered sameStamp
    obtain ⟨first, firstMember, firstKey, rfl⟩ := leftOffered
    obtain ⟨second, secondMember, secondKey, rfl⟩ := rightOffered
    have sameVersion : first.version = second.version :=
      UInt64.toNat_inj.mp sameStamp
    rw [apart first firstMember second secondMember
      (firstKey.trans secondKey.symm) sameVersion]
  · apply UInt64.toNat_inj.mp
    rw [counter others otherDelivers, counter deliveries delivers]

/-- Two updates of one key, in both orders and one of them twice. -/
theorem deliveries_merge_two_orders :
    let older : Update := ⟨"k", [1], 3, none⟩
    let newer : Update := ⟨"k", [2], 5, none⟩
    ([(newer, 7), (older, 8), (newer, 9)].foldl deliver new).contentAt "k" =
      ([(older, 0), (newer, 1)].foldl deliver new).contentAt "k" := by
  intro older newer
  have merged :=
    deliveries_merge new {older, newer} (by decide) [(older, 0), (newer, 1)]
      (by decide)
  exact (merged.2.2 [(newer, 7), (older, 8), (newer, 9)] (by decide)).1 "k"

end StorageEngine

end HautePerformance.KvDistributed
