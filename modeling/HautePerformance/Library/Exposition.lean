import Mathlib.Data.List.Basic

/-!
# The text format of metrics

Lines that describe a metric, give its type, or give a sample of it under one label,
as a scraper reads them.  Well-formed lines are read back as they were written.
-/

namespace HautePerformance.Library.Exposition

inductive Line where
  | help (name text : List Char)
  | type (name kind : List Char)
  | sample (name label labelValue value : List Char)
  deriving DecidableEq, Repr

def helpMark : List Char :=
  ['#', ' ', 'H', 'E', 'L', 'P', ' ']

def typeMark : List Char :=
  ['#', ' ', 'T', 'Y', 'P', 'E', ' ']

/-- The part up to the mark, and what follows the mark. -/
def upTo (mark : Char) : List Char → Option (List Char × List Char)
  | [] => none
  | first :: rest =>
      if first = mark then some ([], rest)
      else (upTo mark rest).map fun parts => (first :: parts.1, parts.2)

theorem upTo_append {mark : Char} {word rest : List Char} (absent : mark ∉ word) :
    upTo mark (word ++ mark :: rest) = some (word, rest) := by
  induction word with
  | nil => simp [upTo]
  | cons first word inductionHypothesis =>
      rw [List.mem_cons, not_or] at absent
      rw [List.cons_append, upTo, if_neg (Ne.symm absent.1),
        inductionHypothesis absent.2]
      rfl

theorem upTo_of_notMem {mark : Char} {text : List Char} (absent : mark ∉ text) :
    upTo mark text = none := by
  induction text with
  | nil => rfl
  | cons first rest inductionHypothesis =>
      rw [List.mem_cons, not_or] at absent
      rw [upTo, if_neg (Ne.symm absent.1), inductionHypothesis absent.2]
      rfl

theorem eq_of_upTo {mark : Char} {text : List Char} :
    ∀ {word rest : List Char},
      upTo mark text = some (word, rest) → text = word ++ mark :: rest := by
  induction text with
  | nil =>
      intro word rest found
      cases found
  | cons first others inductionHypothesis =>
      intro word rest found
      rw [upTo] at found
      split at found
      · rename_i same
        cases found
        rw [same]
        rfl
      · obtain ⟨⟨before, after⟩, later, shape⟩ := Option.map_eq_some_iff.mp found
        cases shape
        rw [inductionHypothesis later]
        rfl

/-- What follows the mark at the front of a text. -/
def after (mark text : List Char) : Option (List Char) :=
  if mark <+: text then some (text.drop mark.length) else none

theorem after_append (mark rest : List Char) :
    after mark (mark ++ rest) = some rest := by
  rw [after, if_pos (List.prefix_append mark rest), List.drop_left]

theorem after_of_ne {first other : Char} {mark rest : List Char}
    (different : first ≠ other) : after (first :: mark) (other :: rest) = none := by
  rw [after, if_neg]
  exact fun isPrefix => different (List.cons_prefix_cons.mp isPrefix).1

def isLabelChar (c : Char) : Bool :=
  c.isAlphanum || c == '_'

def isNameChar (c : Char) : Bool :=
  isLabelChar c || c == ':'

/-- What stands between quotes without an escape. -/
def isPlainChar (c : Char) : Bool :=
  c != '\x22' && c != '\x5c' && c != '\n'

/-- A text of such characters that does not begin with a digit. -/
def IsWord (allowed : Char → Bool) (text : List Char) : Prop :=
  (text.head?.any fun c => !c.isDigit) = true ∧ text.all allowed = true

/-- The name of a metric. -/
abbrev IsName (text : List Char) : Prop :=
  IsWord isNameChar text

/-- The name of a label. -/
abbrev IsLabel (text : List Char) : Prop :=
  IsWord isLabelChar text

/-- The types of a metric. -/
def kinds : List (List Char) :=
  ["counter", "gauge", "histogram", "summary", "untyped"].map String.toList

/-- A numeral in decimal notation. -/
def IsNumeral (text : List Char) : Prop :=
  text ≠ [] ∧ text.all Char.isDigit = true

/-- An unsigned number: a numeral, and perhaps a point and another numeral. -/
def IsNumber (text : List Char) : Prop :=
  match upTo '.' text with
  | none => IsNumeral text
  | some (whole, fraction) => IsNumeral whole ∧ IsNumeral fraction

instance (allowed : Char → Bool) (text : List Char) :
    Decidable (IsWord allowed text) :=
  inferInstanceAs (Decidable (_ ∧ _))

instance (text : List Char) : Decidable (IsNumeral text) :=
  inferInstanceAs (Decidable (_ ∧ _))

instance (text : List Char) : Decidable (IsNumber text) :=
  match found : upTo '.' text with
  | none => decidable_of_iff (IsNumeral text) (by rw [IsNumber, found])
  | some (whole, fraction) =>
      decidable_of_iff (IsNumeral whole ∧ IsNumeral fraction)
        (by rw [IsNumber, found])

theorem notMem_of_all {allowed : Char → Bool} {text : List Char}
    (all : text.all allowed = true) {c : Char} (other : allowed c = false) :
    c ∉ text := by
  intro member
  have here := List.all_eq_true.mp all c member
  rw [other] at here
  cases here

theorem IsWord.notMem {allowed : Char → Bool} {text : List Char}
    (isWord : IsWord allowed text) {c : Char} (other : allowed c = false) :
    c ∉ text :=
  notMem_of_all isWord.2 other

theorem IsNumeral.isNumber {text : List Char} (isNumeral : IsNumeral text) :
    IsNumber text := by
  rw [IsNumber, upTo_of_notMem (notMem_of_all isNumeral.2 (by decide))]
  exact isNumeral

theorem IsNumeral.isNumber_point {whole fraction : List Char}
    (isWhole : IsNumeral whole) (isFraction : IsNumeral fraction) :
    IsNumber (whole ++ '.' :: fraction) := by
  rw [IsNumber, upTo_append (notMem_of_all isWhole.2 (by decide))]
  exact ⟨isWhole, isFraction⟩

theorem IsNumber.notMem {text : List Char} (isNumber : IsNumber text) {c : Char}
    (noDigit : c.isDigit = false) (noPoint : c ≠ '.') : c ∉ text := by
  rw [IsNumber] at isNumber
  split at isNumber
  · exact notMem_of_all isNumber.2 noDigit
  · rename_i whole fraction found
    rw [eq_of_upTo found, List.mem_append, List.mem_cons, not_or, not_or]
    exact ⟨notMem_of_all isNumber.1.2 noDigit, noPoint,
      notMem_of_all isNumber.2.2 noDigit⟩

theorem notMem_kind {kind : List Char} (isKind : kind ∈ kinds) : '\n' ∉ kind := by
  have each : ∀ kind ∈ kinds, '\n' ∉ kind := by decide
  exact each kind isKind

namespace Line

/-- What can be written and read back. -/
def Valid : Line → Prop
  | .help name text => IsName name ∧ '\n' ∉ text
  | .type name kind => IsName name ∧ kind ∈ kinds
  | .sample name label labelValue value =>
      IsName name ∧ IsLabel label ∧ labelValue.all isPlainChar = true ∧
        IsNumber value

instance : (line : Line) → Decidable line.Valid
  | .help _ _ => inferInstanceAs (Decidable (_ ∧ _))
  | .type _ _ => inferInstanceAs (Decidable (_ ∧ _))
  | .sample _ _ _ _ => inferInstanceAs (Decidable (_ ∧ _))

def render : Line → List Char
  | .help name text => helpMark ++ (name ++ ' ' :: text)
  | .type name kind => typeMark ++ (name ++ ' ' :: kind)
  | .sample name label labelValue value =>
      name ++ '\x7b' :: (label ++ '=' ::
        (['\x22'] ++ (labelValue ++ '\x22' :: (['\x7d', ' '] ++ value))))

/-- A well-formed line is kept. -/
def checked (line : Line) : Option Line :=
  if line.Valid then some line else none

/-- A line that is no comment. -/
def parseSample (text : List Char) : Option Line := do
  let (name, rest) ← upTo '\x7b' text
  let (label, rest) ← upTo '=' rest
  let (labelValue, rest) ← upTo '\x22' (← after ['\x22'] rest)
  checked (.sample name label labelValue (← after ['\x7d', ' '] rest))

def parse (text : List Char) : Option Line :=
  match after helpMark text with
  | some rest => do
      let (name, text) ← upTo ' ' rest
      checked (.help name text)
  | none =>
      match after typeMark text with
      | some rest => do
          let (name, kind) ← upTo ' ' rest
          checked (.type name kind)
      | none => parseSample text

theorem after_type_help (rest : List Char) :
    after helpMark (typeMark ++ rest) = none := by
  have different : ¬helpMark <+: typeMark ++ rest := by
    simp [helpMark, typeMark, List.cons_prefix_cons]
  rw [after, if_neg different]

theorem parse_render {line : Line} (valid : line.Valid) :
    parse line.render = some line := by
  have kept : checked line = some line := if_pos valid
  cases line with
  | help name text =>
      have found : upTo ' ' (name ++ ' ' :: text) = some (name, text) :=
        upTo_append (valid.1.notMem (by decide))
      rw [parse, render, after_append]
      simp only [found, Option.bind_eq_bind, Option.bind_some, kept]
  | type name kind =>
      have found : upTo ' ' (name ++ ' ' :: kind) = some (name, kind) :=
        upTo_append (valid.1.notMem (by decide))
      rw [parse, render, after_type_help, after_append]
      simp only [found, Option.bind_eq_bind, Option.bind_some, kept]
  | sample name label labelValue value =>
      obtain ⟨isName, isLabel, isLabelValue, _⟩ := valid
      have nameEnds (rest : List Char) :
          upTo '\x7b' (name ++ '\x7b' :: rest) = some (name, rest) :=
        upTo_append (isName.notMem (by decide))
      have labelEnds (rest : List Char) :
          upTo '=' (label ++ '=' :: rest) = some (label, rest) :=
        upTo_append (isLabel.notMem (by decide))
      have valueEnds (rest : List Char) :
          upTo '\x22' (labelValue ++ '\x22' :: rest) = some (labelValue, rest) :=
        upTo_append (notMem_of_all isLabelValue (by decide))
      -- The first character of the name is not that of a comment.
      have noComment (mark rest : List Char) :
          after ('#' :: mark) (name ++ rest) = none := by
        cases shape : name with
        | nil => exact absurd (shape ▸ isName.1) (by decide)
        | cons first others =>
            refine after_of_ne fun same => ?_
            have absent : '#' ∉ name := isName.notMem (by decide)
            exact absent (same ▸ shape ▸ List.mem_cons_self)
      have readSample : parseSample (render (.sample name label labelValue value)) =
          some (.sample name label labelValue value) := by
        simp only [parseSample, render, nameEnds, labelEnds, valueEnds, after_append,
          Option.bind_eq_bind, Option.bind_some, kept]
      rw [← readSample, parse, render]
      have notHelp (rest : List Char) : after helpMark (name ++ rest) = none :=
        noComment _ rest
      have notType (rest : List Char) : after typeMark (name ++ rest) = none :=
        noComment _ rest
      rw [notHelp, notType]

theorem notMem_render {line : Line} (valid : line.Valid) : '\n' ∉ line.render := by
  cases line with
  | help name text =>
      have absent : '\n' ∉ name := valid.1.notMem (by decide)
      have := valid.2
      simp [render, helpMark, absent, this]
  | type name kind =>
      have absent : '\n' ∉ name := valid.1.notMem (by decide)
      have kindAbsent : '\n' ∉ kind := notMem_kind valid.2
      simp [render, typeMark, absent, kindAbsent]
  | sample name label labelValue value =>
      obtain ⟨isName, isLabel, isLabelValue, isValue⟩ := valid
      have nameAbsent : '\n' ∉ name := isName.notMem (by decide)
      have labelAbsent : '\n' ∉ label := isLabel.notMem (by decide)
      have labelValueAbsent : '\n' ∉ labelValue :=
        notMem_of_all isLabelValue (by decide)
      have valueAbsent : '\n' ∉ value := isValue.notMem (by decide) (by decide)
      simp [render, nameAbsent, labelAbsent, labelValueAbsent, valueAbsent]

end Line

/-- Each line with its line feed. -/
def render (lines : List Line) : List Char :=
  lines.flatMap fun line => line.render ++ ['\n']

/-- All lines of a text, the last of which ends with a line feed too. -/
def scrape (text : List Char) : Option (List Line) :=
  match (text.splitOn '\n').getLast? with
  | some [] => (text.splitOn '\n').dropLast.mapM Line.parse
  | _ => none

theorem splitOn_render {lines : List Line} (valid : ∀ line ∈ lines, line.Valid) :
    (render lines).splitOn '\n' = lines.map Line.render ++ [[]] := by
  induction lines with
  | nil => rfl
  | cons line rest inductionHypothesis =>
      have shape : render (line :: rest) = line.render ++ '\n' :: render rest := by
        simp [render]
      rw [shape, List.splitOn_append_cons_self_of_not_mem
          (Line.notMem_render (valid line List.mem_cons_self)),
        inductionHypothesis fun other member =>
          valid other (List.mem_cons_of_mem _ member)]
      rfl

theorem mapM_parse {lines : List Line} (valid : ∀ line ∈ lines, line.Valid) :
    (lines.map Line.render).mapM Line.parse = some lines := by
  induction lines with
  | nil => rfl
  | cons line rest inductionHypothesis =>
      rw [List.map_cons, List.mapM_cons,
        Line.parse_render (valid line List.mem_cons_self),
        inductionHypothesis fun other member =>
          valid other (List.mem_cons_of_mem _ member)]
      rfl

/-- What is rendered is scraped. -/
theorem scrape_render {lines : List Line} (valid : ∀ line ∈ lines, line.Valid) :
    scrape (render lines) = some lines := by
  rw [scrape, splitOn_render valid, List.getLast?_concat]
  dsimp only
  rw [List.dropLast_concat]
  exact mapM_parse valid

end HautePerformance.Library.Exposition
