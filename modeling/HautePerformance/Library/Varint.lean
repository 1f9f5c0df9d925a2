import HautePerformance.Library.Codec

/-!
# Varints and delimited messages

Numbers of any size in base 128, the low digits first, with a bit in each byte for
whether another one follows; bytes with their length in front; and messages that
follow each other to the end of the input.

A reader takes what was written from the front of its input, whatever comes after
it.  The end of a sequence of messages is the end of the input, so this is read
whole.
-/

namespace HautePerformance.Library

variable {Value : Type}

/-- The reader gets back each value that was written, and what follows it. -/
def Reads (read : List UInt8 → Option (Value × List UInt8))
    (write : Value → List UInt8) : Prop :=
  ∀ value rest, read (write value ++ rest) = some (value, rest)

/-! ## Varints -/

def varint (value : Nat) : List UInt8 :=
  if value < 0x80 then [UInt8.ofNat value]
  else UInt8.ofNat (0x80 + value % 0x80) :: varint (value / 0x80)

def readVarint : List UInt8 → Option (Nat × List UInt8)
  | [] => none
  | byte :: rest =>
      if byte.toNat < 0x80 then some (byte.toNat, rest)
      else
        (readVarint rest).map fun (high, rest) =>
          (byte.toNat - 0x80 + 0x80 * high, rest)

theorem readVarint_varint : Reads readVarint varint := by
  intro value rest
  induction value using varint.induct with
  | case1 value small =>
      have byte : (UInt8.ofNat value).toNat = value := by
        rw [UInt8.toNat_ofNat']
        omega
      rw [varint, if_pos small, List.singleton_append, readVarint, byte,
        if_pos small]
  | case2 value large inductionHypothesis =>
      have byte : (UInt8.ofNat (0x80 + value % 0x80)).toNat = 0x80 + value % 0x80 := by
        rw [UInt8.toNat_ofNat']
        omega
      have digits : 0x80 + value % 0x80 - 0x80 + 0x80 * (value / 0x80) = value := by
        omega
      rw [varint, if_neg large, List.cons_append, readVarint, byte,
        if_neg (by omega), inductionHypothesis, Option.map_some]
      dsimp only
      rw [digits]

/-! ## Messages -/

/-- A fixed sequence of bytes. -/
def expect (bytes input : List UInt8) : Option (List UInt8) :=
  if bytes.isPrefixOf input then some (input.drop bytes.length) else none

theorem expect_append (bytes rest : List UInt8) :
    expect bytes (bytes ++ rest) = some rest := by
  rw [expect, if_pos (List.isPrefixOf_iff_prefix.mpr (List.prefix_append bytes rest)),
    List.drop_left]

/-- Bytes with their number in front. -/
def delimited (bytes : List UInt8) : List UInt8 :=
  varint bytes.length ++ bytes

def readDelimited (input : List UInt8) : Option (List UInt8 × List UInt8) :=
  (readVarint input).bind fun (length, rest) => Codec.readExact length rest

theorem readDelimited_delimited : Reads readDelimited delimited := by
  intro bytes rest
  rw [readDelimited, delimited, List.append_assoc, readVarint_varint,
    Option.bind_some]
  exact Codec.readExact_append rfl rest

/-- Reads on to the end of the input, which is reached before the fuel runs out
when no value is written as nothing. -/
def readAll (read : List UInt8 → Option (Value × List UInt8)) :
    Nat → List UInt8 → Option (List Value)
  | _, [] => some []
  | 0, _ :: _ => none
  | fuel + 1, input =>
      (read input).bind fun (value, rest) =>
        (readAll read fuel rest).map fun values => value :: values

section ReadAll

variable {read : List UInt8 → Option (Value × List UInt8)}
variable {write : Value → List UInt8}

theorem readAll_flatMap (reads : Reads read write)
    (nonempty : ∀ value, write value ≠ []) {values : List Value} :
    ∀ {fuel : Nat},
      values.length ≤ fuel →
      readAll read fuel (values.flatMap write) = some values := by
  induction values with
  | nil =>
      intro fuel _
      cases fuel <;> rfl
  | cons value rest inductionHypothesis =>
      intro fuel enough
      cases fuel with
      | zero => exact absurd enough (Nat.not_succ_le_zero _)
      | succ fuel =>
          have others := inductionHypothesis (Nat.le_of_succ_le_succ enough)
          have isRead := reads value (rest.flatMap write)
          rw [List.flatMap_cons]
          cases input : write value ++ rest.flatMap write with
          | nil =>
              exact absurd (List.append_eq_nil_iff.mp input).1 (nonempty value)
          | cons byte bytes =>
              rw [readAll, ← input, isRead, Option.bind_some]
              · dsimp only
                rw [others, Option.map_some]
              · exact List.cons_ne_nil byte bytes

theorem length_le_flatMap (nonempty : ∀ value, write value ≠ [])
    (values : List Value) : values.length ≤ (values.flatMap write).length := by
  induction values with
  | nil => exact Nat.le_refl _
  | cons value rest inductionHypothesis =>
      have first : 0 < (write value).length :=
        List.length_pos_iff.mpr (nonempty value)
      rw [List.flatMap_cons, List.length_cons, List.length_append]
      omega

/-- A sequence of messages. -/
theorem readAll_written (reads : Reads read write)
    (nonempty : ∀ value, write value ≠ []) (values : List Value) :
    readAll read (values.flatMap write).length (values.flatMap write) =
      some values :=
  readAll_flatMap reads nonempty (length_le_flatMap nonempty values)

end ReadAll

end HautePerformance.Library
