import HautePerformance.Library.Numerals
import HautePerformance.Library.SeparatedList
import HautePerformance.Demos.LogPipeline

/-!
# The lines of the log

The format that `parser_ligne` reads and `generer_logs` writes: an address, a level and
a latency between semicolons.
-/

namespace HautePerformance.Demos.LogPipeline

open Library

/-- The addresses of `generer_logs`. -/
def ips : List String :=
  ["10.0.0.1", "10.0.0.2", "10.0.0.3", "10.0.0.4", "10.0.0.5", "10.0.0.6",
    "10.0.0.7", "10.0.0.8"]

def niveaux : List String :=
  ["INFO", "WARN", "ERROR"]

/-- `format!("{ip};{niv};{lat}")`. -/
def EvenementLog.ligne (e : EvenementLog) : String :=
  e.sourceIp ++ ";" ++ e.niveau ++ ";" ++ toString e.latenceMs.toNat

/-- What the line of this index tells.  The product is one of `usize`. -/
def evenement (overflowChecks : Bool) (i : Nat) : Option EvenementLog := do
  let produit ← machineWord overflowChecks 64 (i * 7)
  let ip ← ips[i % ips.length]?
  let niv ← niveaux[i % niveaux.length]?
  some
    { sourceIp := ip
      niveau := niv
      latenceMs := UInt32.ofNat (produit % 500) + 10 }

/-- `generer_logs`. -/
def genererLogs (overflowChecks : Bool) (n : Nat) : Option (List String) :=
  (List.range n).mapM fun i => (evenement overflowChecks i).map EvenementLog.ligne

/-! ## Numerals -/

/-- The numerals that `str::parse::<u32>` reads as the number. -/
def Spells (chars : List Char) (value : UInt32) : Prop :=
  ∃ digits, (chars = digits ∨ chars = '+' :: digits) ∧ digits ≠ [] ∧
    (∀ c, c ∈ digits → c.isDigit = true) ∧
    Nat.ofDigitChars 10 digits 0 = value.toNat

/-- `parse` after the sign. -/
def parseDigits (digits : List Char) : Option UInt32 :=
  if digits.isEmpty then none
  else
    (digits.foldlM (readDigit (2 ^ 32)) 0).bind fun value => some (UInt32.ofNat value)

theorem parseDigits_eq_some_iff {digits : List Char} {value : UInt32} :
    parseDigits digits = some value ↔
      digits ≠ [] ∧ (∀ c, c ∈ digits → c.isDigit = true) ∧
        Nat.ofDigitChars 10 digits 0 = value.toNat := by
  cases digits with
  | nil => simp [parseDigits]
  | cons first rest =>
      have digitsRead (number : Nat) :
          (first :: rest).foldlM (readDigit (2 ^ 32)) 0 = some number ↔
            (∀ c, c ∈ first :: rest → c.isDigit = true) ∧
              Nat.ofDigitChars 10 (first :: rest) 0 = number ∧ number < 2 ^ 32 :=
        foldlM_readDigit_eq_some _ (by decide)
      have unfolded : parseDigits (first :: rest) =
          ((first :: rest).foldlM (readDigit (2 ^ 32)) 0).bind
            fun value => some (UInt32.ofNat value) := rfl
      rw [unfolded, Option.bind_eq_some_iff]
      constructor
      · rintro ⟨number, isRead, isValue⟩
        obtain ⟨allDigits, spelled, small⟩ := (digitsRead number).mp isRead
        cases isValue
        refine ⟨by simp, allDigits, ?_⟩
        rw [spelled, UInt32.toNat_ofNat']
        omega
      · rintro ⟨_, allDigits, spelled⟩
        refine ⟨value.toNat, (digitsRead _).mpr ⟨allDigits, spelled, value.toNat_lt⟩, ?_⟩
        rw [UInt32.ofNat_toNat]

theorem parseU32_plus (digits : List Char) :
    parseU32 ('+' :: digits) = parseDigits digits :=
  rfl

theorem parseU32_of_ne {chars : List Char} (noPlus : ∀ rest, chars ≠ '+' :: rest) :
    parseU32 chars = parseDigits chars := by
  unfold parseU32
  split
  · rename_i digits rest
    exact absurd rfl (noPlus rest)
  · rfl

/-- A plus sign is no digit. -/
theorem ne_plus_of_digits {chars rest : List Char}
    (allDigits : ∀ c, c ∈ chars → c.isDigit = true) : chars ≠ '+' :: rest := by
  rintro rfl
  exact absurd (allDigits '+' List.mem_cons_self) (by decide)

theorem parseU32_eq_some_iff {chars : List Char} {value : UInt32} :
    parseU32 chars = some value ↔ Spells chars value := by
  constructor
  · intro isRead
    by_cases signed : ∃ rest, chars = '+' :: rest
    · obtain ⟨rest, rfl⟩ := signed
      rw [parseU32_plus] at isRead
      exact ⟨rest, Or.inr rfl, parseDigits_eq_some_iff.mp isRead⟩
    · rw [parseU32_of_ne fun rest same => signed ⟨rest, same⟩] at isRead
      exact ⟨chars, Or.inl rfl, parseDigits_eq_some_iff.mp isRead⟩
  · rintro ⟨digits, rfl | rfl, numeral⟩
    · rw [parseU32_of_ne fun rest => ne_plus_of_digits numeral.2.1]
      exact parseDigits_eq_some_iff.mpr numeral
    · rw [parseU32_plus]
      exact parseDigits_eq_some_iff.mpr numeral

theorem Spells.notMem {chars : List Char} {value : UInt32} (spells : Spells chars value) :
    ';' ∉ chars := by
  obtain ⟨digits, written, _, allDigits, _⟩ := spells
  have absent : ';' ∉ digits := fun member =>
    absurd (allDigits ';' member) (by decide)
  rcases written with rfl | rfl
  · exact absent
  · rw [List.mem_cons, not_or]
    exact ⟨by decide, absent⟩

theorem spells_toString (value : UInt32) :
    Spells (toString value.toNat).toList value := by
  have digits : (toString value.toNat).toList = Nat.toDigits 10 value.toNat := by
    rw [Nat.toString_eq_repr, Nat.toList_repr]
  rw [digits]
  refine ⟨_, Or.inl rfl, Nat.toDigits_ne_nil, ?_, Nat.ofDigitChars_ten_toDigits⟩
  exact fun c member => Nat.isDigit_of_mem_toDigits (by decide) (by decide) member

/-! ## Lines -/

/-- The lines that stand for the event.  What follows a third semicolon is not looked
at. -/
structure StandsFor (ligne : String) (e : EvenementLog) : Prop where
  sourceIp : ';' ∉ e.sourceIp.toList
  niveau : ';' ∉ e.niveau.toList
  written : ∃ latence further, Spells latence e.latenceMs ∧
    (further = [] ∨ ∃ rest, further = ';' :: rest) ∧
    ligne.toList =
      e.sourceIp.toList ++ ';' :: (e.niveau.toList ++ ';' :: (latence ++ further))

/-- The first field of a list, and what is written of the others. -/
theorem exists_further (field : List Char) (others : List (List Char)) :
    ∃ further, (further = [] ∨ ∃ rest, further = ';' :: rest) ∧
      [';'].intercalate (field :: others) = field ++ further := by
  cases others with
  | nil => exact ⟨[], Or.inl rfl, by simp⟩
  | cons next later =>
      refine ⟨';' :: [';'].intercalate (next :: later), Or.inr ⟨_, rfl⟩, ?_⟩
      rw [List.intercalate_cons_of_ne_nil (List.cons_ne_nil _ _)]
      simp

theorem splitOn_further {field further : List Char} (whole : ';' ∉ field)
    (ended : further = [] ∨ ∃ rest, further = ';' :: rest) :
    ∃ others, (field ++ further).splitOn ';' = field :: others := by
  rcases ended with rfl | ⟨rest, rfl⟩
  · rw [List.append_nil]
    exact ⟨[], List.splitOn_eq_singleton whole⟩
  · exact ⟨_, List.splitOn_append_cons_self_of_not_mem whole rest⟩

theorem parserLigne_eq_some_iff {ligne : String} {e : EvenementLog} :
    parserLigne ligne = some e ↔ StandsFor ligne e := by
  constructor
  · intro isRead
    unfold parserLigne at isRead
    split at isRead
    · rename_i sourceIp niveau latence others splits
      obtain ⟨latenceMs, spelled, isEvent⟩ := Option.bind_eq_some_iff.mp isRead
      cases isEvent
      have pieces {field : List Char} (member : field ∈ ligne.toList.splitOn ';') :=
        notMem_of_mem_splitOn member
      rw [splits] at pieces
      obtain ⟨further, ended, isFurther⟩ := exists_further latence others
      have whole : [';'].intercalate (ligne.toList.splitOn ';') = ligne.toList :=
        List.intercalate_splitOn ';'
      rw [splits, List.intercalate_cons_of_ne_nil (List.cons_ne_nil _ _),
        List.intercalate_cons_of_ne_nil (List.cons_ne_nil _ _), isFurther] at whole
      refine ⟨?_, ?_, latence, further, parseU32_eq_some_iff.mp spelled, ended, ?_⟩
      · rw [String.toList_ofList]
        exact pieces (by simp)
      · rw [String.toList_ofList]
        exact pieces (by simp)
      · rw [String.toList_ofList, String.toList_ofList, ← whole]
        simp
    · cases isRead
  · rintro ⟨wholeIp, wholeNiveau, latence, further, spells, ended, written⟩
    obtain ⟨others, splits⟩ := splitOn_further spells.notMem ended
    unfold parserLigne
    rw [written, List.splitOn_append_cons_self_of_not_mem wholeIp,
      List.splitOn_append_cons_self_of_not_mem wholeNiveau, splits]
    simp only [parseU32_eq_some_iff.mpr spells, String.ofList_toList]
    rfl

theorem EvenementLog.toList_ligne (e : EvenementLog) :
    e.ligne.toList =
      e.sourceIp.toList ++
        ';' :: (e.niveau.toList ++ ';' :: (toString e.latenceMs.toNat).toList) := by
  simp [EvenementLog.ligne]

/-- A line is read back when no field contains the separator. -/
theorem parserLigne_ligne {e : EvenementLog} :
    parserLigne e.ligne = some e ↔
      ';' ∉ e.sourceIp.toList ∧ ';' ∉ e.niveau.toList := by
  rw [parserLigne_eq_some_iff]
  constructor
  · exact fun standsFor => ⟨standsFor.sourceIp, standsFor.niveau⟩
  · rintro ⟨wholeIp, wholeNiveau⟩
    refine ⟨wholeIp, wholeNiveau, _, [], spells_toString _, Or.inl rfl, ?_⟩
    rw [e.toList_ligne, List.append_nil]

theorem evenement_readable {overflowChecks : Bool} {i : Nat} {e : EvenementLog}
    (told : evenement overflowChecks i = some e) : parserLigne e.ligne = some e := by
  have wholeIps : ∀ ip, ip ∈ ips → ';' ∉ ip.toList := by decide
  have wholeNiveaux : ∀ niv, niv ∈ niveaux → ';' ∉ niv.toList := by decide
  obtain ⟨produit, _, told⟩ := Option.bind_eq_some_iff.mp told
  obtain ⟨ip, isIp, told⟩ := Option.bind_eq_some_iff.mp told
  obtain ⟨niv, isNiv, told⟩ := Option.bind_eq_some_iff.mp told
  cases told
  exact parserLigne_ligne.mpr
    ⟨wholeIps ip (List.mem_of_getElem? isIp),
      wholeNiveaux niv (List.mem_of_getElem? isNiv)⟩

/-- The generated lines are read back one by one. -/
theorem map_parserLigne (overflowChecks : Bool) (indices : List Nat) :
    (indices.mapM fun i => (evenement overflowChecks i).map EvenementLog.ligne).map
        (List.map parserLigne) =
      (indices.mapM (evenement overflowChecks)).map (List.map some) := by
  induction indices with
  | nil => rfl
  | cons i rest inductionHypothesis =>
      rw [List.mapM_cons, List.mapM_cons]
      cases told : evenement overflowChecks i with
      | none => rfl
      | some e =>
          have readable := evenement_readable told
          simp only [Option.map_some, Option.bind_eq_bind, Option.bind_some]
          generalize rest.mapM (evenement overflowChecks) = events at *
          generalize (rest.mapM fun i => (evenement overflowChecks i).map
            EvenementLog.ligne) = lignes at *
          cases lignes with
          | none =>
              cases events with
              | none => rfl
              | some events => cases inductionHypothesis
          | some lignes =>
              cases events with
              | none => cases inductionHypothesis
              | some events =>
                  have later : lignes.map parserLigne = events.map some :=
                    Option.some.inj inductionHypothesis
                  show some ((e.ligne :: lignes).map parserLigne) =
                    some ((e :: events).map some)
                  rw [List.map_cons, List.map_cons, readable, later]

/-- The parser accepts exactly the lines that stand for an event; a line that is written
for an event is read back as it exactly when neither text contains the separator; and no
generated line is refused or read as anything else than what it was written for. -/
theorem lines_read_back :
    (∀ (ligne : String) (e : EvenementLog),
        parserLigne ligne = some e ↔ StandsFor ligne e) ∧
      (∀ e : EvenementLog,
        parserLigne e.ligne = some e ↔
          ';' ∉ e.sourceIp.toList ∧ ';' ∉ e.niveau.toList) ∧
      ∀ (overflowChecks : Bool) (n : Nat),
        (genererLogs overflowChecks n).map (List.map parserLigne) =
          ((List.range n).mapM (evenement overflowChecks)).map (List.map some) :=
  ⟨fun _ _ => parserLigne_eq_some_iff, fun _ => parserLigne_ligne,
    fun overflowChecks n => map_parserLigne overflowChecks (List.range n)⟩

end HautePerformance.Demos.LogPipeline
