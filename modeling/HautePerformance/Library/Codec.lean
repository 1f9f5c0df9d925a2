import Mathlib.Algebra.GroupWithZero.Nat
import Mathlib.Data.List.Basic

/-!
# Codecs

An encoding of values as bytes that a decoder reads back from the front of its
input.  A codec carries two laws.  Reading back gives the value and leaves what
follows it, provided that the encoding is shorter than `2 ^ 64` bytes, since
lengths are written in eight bytes.  And nothing but the encoding of a value is
read as that value.

Codecs are built from few pieces: a byte, an integer of fixed width, a value that
decides how the next one is encoded, a list, and a codec for another type through
which the values pass.
-/

namespace HautePerformance.Library

structure Codec (Value : Type) where
  encode : Value → List UInt8
  decode : List UInt8 → Option (Value × List UInt8)
  decode_encode : ∀ value rest,
    (encode value).length < 2 ^ 64 →
      decode (encode value ++ rest) = some (value, rest)
  encode_of_decode : ∀ input value rest,
    decode input = some (value, rest) → input = encode value ++ rest

namespace Codec

variable {First Value : Type}

/-- The number of bytes of an encoding. -/
def size (codec : Codec Value) (value : Value) : Nat :=
  (codec.encode value).length

/-! ## Integers of fixed width -/

/-- The low bytes of a number, the lowest first. -/
def littleEndian : Nat → Nat → List UInt8
  | 0, _ => []
  | count + 1, value => UInt8.ofNat value :: littleEndian count (value / 256)

/-- The number of which these are the bytes. -/
def ofLittleEndian : List UInt8 → Nat
  | [] => 0
  | byte :: rest => byte.toNat + 256 * ofLittleEndian rest

@[simp]
theorem length_littleEndian :
    ∀ count value, (littleEndian count value).length = count
  | 0, _ => rfl
  | count + 1, value => by
      rw [littleEndian, List.length_cons, length_littleEndian count]

theorem ofLittleEndian_littleEndian :
    ∀ {count value : Nat},
      value < 256 ^ count → ofLittleEndian (littleEndian count value) = value
  | 0, value, bound => by
      rw [Nat.pow_zero, Nat.lt_one_iff] at bound
      rw [bound]
      rfl
  | count + 1, value, bound => by
      have quotient : value / 256 < 256 ^ count := by
        apply Nat.div_lt_of_lt_mul
        rw [Nat.mul_comm, ← Nat.pow_succ]
        exact bound
      rw [littleEndian, ofLittleEndian, ofLittleEndian_littleEndian quotient,
        UInt8.toNat_ofNat']
      omega

theorem ofLittleEndian_lt :
    ∀ bytes : List UInt8, ofLittleEndian bytes < 256 ^ bytes.length
  | [] => by
      decide
  | byte :: rest => by
      have inductionHypothesis := ofLittleEndian_lt rest
      have low := byte.toNat_lt
      rw [ofLittleEndian, List.length_cons, Nat.pow_succ]
      omega

theorem littleEndian_ofLittleEndian :
    ∀ bytes : List UInt8,
      littleEndian bytes.length (ofLittleEndian bytes) = bytes
  | [] => rfl
  | byte :: rest => by
      have low := byte.toNat_lt
      have quotient :
          (byte.toNat + 256 * ofLittleEndian rest) / 256 =
            ofLittleEndian rest := by
        omega
      have remainder :
          UInt8.ofNat (byte.toNat + 256 * ofLittleEndian rest) = byte := by
        apply UInt8.toNat_inj.mp
        rw [UInt8.toNat_ofNat']
        omega
      rw [ofLittleEndian, List.length_cons, littleEndian, quotient, remainder,
        littleEndian_ofLittleEndian rest]

/-- The first `count` bytes, if there are as many. -/
def readExact (count : Nat) (input : List UInt8) :
    Option (List UInt8 × List UInt8) :=
  if count ≤ input.length then some (input.take count, input.drop count)
  else none

theorem readExact_append {bytes : List UInt8} {count : Nat}
    (length : bytes.length = count) (rest : List UInt8) :
    readExact count (bytes ++ rest) = some (bytes, rest) := by
  have enough : count ≤ (bytes ++ rest).length := by
    rw [List.length_append]
    omega
  rw [readExact, if_pos enough, ← length, List.take_left, List.drop_left]

theorem readExact_of_short {count : Nat} {input : List UInt8}
    (short : input.length < count) : readExact count input = none :=
  if_neg (Nat.not_le.mpr short)

theorem of_readExact {count : Nat} {input bytes rest : List UInt8}
    (isRead : readExact count input = some (bytes, rest)) :
    bytes.length = count ∧ input = bytes ++ rest := by
  unfold readExact at isRead
  split at isRead
  · rename_i enough
    cases isRead
    exact ⟨List.length_take_of_le enough, (List.take_append_drop _ _).symm⟩
  · cases isRead

/-- An integer type of `count` bytes, in little-endian order. -/
def fixedWidth (count : Nat) (toNat : Value → Nat) (ofNat : Nat → Value)
    (toNat_lt : ∀ value, toNat value < 256 ^ count)
    (ofNat_toNat : ∀ value, ofNat (toNat value) = value)
    (toNat_ofNat : ∀ n, n < 256 ^ count → toNat (ofNat n) = n) :
    Codec Value where
  encode value := littleEndian count (toNat value)
  decode input :=
    (readExact count input).map fun (bytes, rest) =>
      (ofNat (ofLittleEndian bytes), rest)
  decode_encode := by
    intro value rest _
    have isRead := readExact_append (length_littleEndian count (toNat value)) rest
    simp only [isRead, Option.map_some,
      ofLittleEndian_littleEndian (toNat_lt value), ofNat_toNat]
  encode_of_decode := by
    intro input value rest decoded
    obtain ⟨⟨bytes, left⟩, isRead, same⟩ := Option.map_eq_some_iff.mp decoded
    cases same
    obtain ⟨length, isInput⟩ := of_readExact isRead
    rw [isInput, toNat_ofNat _ (length ▸ ofLittleEndian_lt bytes), ← length,
      littleEndian_ofLittleEndian]

def byte : Codec UInt8 :=
  fixedWidth 1 UInt8.toNat UInt8.ofNat (fun value => value.toNat_lt)
    (fun _ => UInt8.ofNat_toNat)
    (fun n bound => by rw [UInt8.toNat_ofNat']; omega)

def u32 : Codec UInt32 :=
  fixedWidth 4 UInt32.toNat UInt32.ofNat (fun value => value.toNat_lt)
    (fun _ => UInt32.ofNat_toNat)
    (fun n bound => by rw [UInt32.toNat_ofNat']; omega)

def u64 : Codec UInt64 :=
  fixedWidth 8 UInt64.toNat UInt64.ofNat (fun value => value.toNat_lt)
    (fun _ => UInt64.ofNat_toNat)
    (fun n bound => by rw [UInt64.toNat_ofNat']; omega)

@[simp]
theorem size_byte (value : UInt8) : byte.size value = 1 :=
  length_littleEndian _ _

@[simp]
theorem size_u32 (value : UInt32) : u32.size value = 4 :=
  length_littleEndian _ _

@[simp]
theorem size_u64 (value : UInt64) : u64.size value = 8 :=
  length_littleEndian _ _

/-! ## Combinations -/

/-- Values that pass through another type, which may have more of them. -/
def through (codec : Codec First) (toRaw : Value → First)
    (ofRaw : First → Option Value)
    (ofRaw_toRaw : ∀ value, ofRaw (toRaw value) = some value)
    (toRaw_of_ofRaw : ∀ raw value, ofRaw raw = some value →
      toRaw value = raw) : Codec Value where
  encode value := codec.encode (toRaw value)
  decode input :=
    (codec.decode input).bind fun (raw, rest) =>
      (ofRaw raw).map fun value => (value, rest)
  decode_encode := by
    intro value rest bound
    have isRead := codec.decode_encode (toRaw value) rest bound
    simp only [isRead, Option.bind_some, ofRaw_toRaw, Option.map_some]
  encode_of_decode := by
    intro input value rest decoded
    obtain ⟨⟨raw, left⟩, first, second⟩ := Option.bind_eq_some_iff.mp decoded
    obtain ⟨found, isValue, same⟩ := Option.map_eq_some_iff.mp second
    cases same
    rw [toRaw_of_ofRaw raw value isValue]
    exact codec.encode_of_decode input raw rest first

@[simp]
theorem size_through {codec : Codec First} {toRaw : Value → First}
    {ofRaw : First → Option Value}
    {ofRaw_toRaw : ∀ value, ofRaw (toRaw value) = some value}
    {toRaw_of_ofRaw : ∀ raw value, ofRaw raw = some value →
      toRaw value = raw} (value : Value) :
    (codec.through toRaw ofRaw ofRaw_toRaw toRaw_of_ofRaw).size value =
      codec.size (toRaw value) :=
  rfl

/-- A value and a second one, the codec of which depends on the first. -/
def sigma {Second : First → Type} (codec : Codec First)
    (second : ∀ value, Codec (Second value)) :
    Codec (Sigma Second) where
  encode value := codec.encode value.1 ++ (second value.1).encode value.2
  decode input :=
    (codec.decode input).bind fun (first, left) =>
      ((second first).decode left).map fun (value, rest) =>
        (⟨first, value⟩, rest)
  decode_encode := by
    intro value rest bound
    rw [List.length_append] at bound
    have isFirst :=
      codec.decode_encode value.1
        ((second value.1).encode value.2 ++ rest) (by omega)
    have isSecond := (second value.1).decode_encode value.2 rest (by omega)
    simp only [List.append_assoc, isFirst, Option.bind_some, isSecond,
      Option.map_some]
  encode_of_decode := by
    intro input value rest decoded
    obtain ⟨⟨first, left⟩, isFirst, others⟩ :=
      Option.bind_eq_some_iff.mp decoded
    obtain ⟨⟨found, after⟩, isSecond, same⟩ :=
      Option.map_eq_some_iff.mp others
    cases same
    rw [codec.encode_of_decode input first left isFirst,
      (second first).encode_of_decode left found rest isSecond,
      List.append_assoc]

@[simp]
theorem size_sigma {Second : First → Type} {codec : Codec First}
    {second : ∀ value, Codec (Second value)} (value : Sigma Second) :
    (codec.sigma second).size value =
      codec.size value.1 + (second value.1).size value.2 :=
  List.length_append

def pair {Second : Type} (first : Codec First) (second : Codec Second) :
    Codec (First × Second) :=
  (first.sigma fun _ => second).through
    (fun value => ⟨value.1, value.2⟩)
    (fun raw => some (raw.1, raw.2))
    (fun _ => rfl)
    (fun _ _ same => by cases same; rfl)

@[simp]
theorem size_pair {Second : Type} {first : Codec First}
    {second : Codec Second} (value : First × Second) :
    (first.pair second).size value =
      first.size value.1 + second.size value.2 :=
  List.length_append

/-- Nothing is written for the only value. -/
def unit : Codec Unit where
  encode _ := []
  decode input := some ((), input)
  decode_encode _ _ _ := rfl
  encode_of_decode := by
    intro input value rest decoded
    cases decoded
    rfl

/-- One byte, `0` or `1`. -/
def bool : Codec Bool :=
  byte.through (fun value => if value then 1 else 0)
    (fun raw =>
      if raw = 0 then some false else if raw = 1 then some true else none)
    (by decide)
    (by
      intro raw value isValue
      split at isValue
      · rename_i zero
        cases isValue
        exact zero.symm
      · split at isValue
        · rename_i one
          cases isValue
          exact one.symm
        · cases isValue)

/-- What follows the tag of an option. -/
abbrev Payload (Value : Type) : Bool → Type
  | false => Unit
  | true => Value

def payload (codec : Codec Value) : ∀ tag, Codec (Payload Value tag)
  | false => unit
  | true => codec

/-- A tag of one byte, then the value if there is one. -/
def option (codec : Codec Value) : Codec (Option Value) :=
  (bool.sigma codec.payload).through
    (fun
      | none => ⟨false, ()⟩
      | some value => ⟨true, value⟩)
    (fun
      | ⟨false, _⟩ => some none
      | ⟨true, value⟩ => some (some value))
    (by
      intro value
      cases value with
      | none => rfl
      | some value => rfl)
    (by
      intro raw value isValue
      obtain ⟨tag, content⟩ := raw
      cases tag with
      | false => cases isValue; rfl
      | true => cases isValue; rfl)

theorem size_option_none (codec : Codec Value) :
    codec.option.size none = 1 :=
  rfl

theorem size_option_some (codec : Codec Value) (value : Value) :
    codec.option.size (some value) = 1 + codec.size value :=
  List.length_append

/-- The variants of an enumeration, each as its place in the list of all. -/
def enumeration [DecidableEq Value] (all : List Value)
    (complete : ∀ value, value ∈ all) (nodup : all.Nodup)
    (few : all.length < 2 ^ 32) : Codec Value :=
  u32.through (fun value => UInt32.ofNat (all.idxOf value))
    (fun index => all[index.toNat]?)
    (by
      intro value
      have place : all.idxOf value < all.length :=
        List.idxOf_lt_length_of_mem (complete value)
      have index : (UInt32.ofNat (all.idxOf value)).toNat = all.idxOf value := by
        rw [UInt32.toNat_ofNat']
        omega
      rw [index]
      exact List.getElem?_idxOf (complete value))
    (by
      intro index value isValue
      obtain ⟨bound, found⟩ := List.getElem?_eq_some_iff.mp isValue
      rw [← found, nodup.idxOf_getElem index.toNat bound, UInt32.ofNat_toNat])

@[simp]
theorem size_enumeration [DecidableEq Value] {all : List Value}
    {complete : ∀ value, value ∈ all} {nodup : all.Nodup}
    {few : all.length < 2 ^ 32} (value : Value) :
    (enumeration all complete nodup few).size value = 4 :=
  size_u32 _

/-! ## Lists -/

/-- Reads as many values as announced. -/
def decodeMany (codec : Codec Value) :
    Nat → List UInt8 → Option (List Value × List UInt8)
  | 0, input => some ([], input)
  | count + 1, input =>
      (codec.decode input).bind fun (value, left) =>
        (decodeMany codec count left).map fun (values, rest) =>
          (value :: values, rest)

theorem decodeMany_flatMap (codec : Codec Value) :
    ∀ (values : List Value) (rest : List UInt8),
      (values.flatMap codec.encode).length < 2 ^ 64 →
        codec.decodeMany values.length
            (values.flatMap codec.encode ++ rest) = some (values, rest)
  | [], rest, _ => rfl
  | value :: values, rest, bound => by
      rw [List.flatMap_cons, List.length_append] at bound
      have isHead :=
        codec.decode_encode value (values.flatMap codec.encode ++ rest)
          (by omega)
      have isTail := decodeMany_flatMap codec values rest (by omega)
      simp only [List.length_cons, decodeMany, List.flatMap_cons,
        List.append_assoc, isHead, Option.bind_some, isTail, Option.map_some]

theorem of_decodeMany (codec : Codec Value) :
    ∀ {count : Nat} {input rest : List UInt8} {values : List Value},
      codec.decodeMany count input = some (values, rest) →
      values.length = count ∧ input = values.flatMap codec.encode ++ rest
  | 0, input, rest, values, decoded => by
      cases decoded
      exact ⟨rfl, rfl⟩
  | count + 1, input, rest, values, decoded => by
      obtain ⟨⟨value, left⟩, isHead, others⟩ :=
        Option.bind_eq_some_iff.mp decoded
      obtain ⟨⟨tail, after⟩, isTail, same⟩ :=
        Option.map_eq_some_iff.mp others
      cases same
      obtain ⟨length, isLeft⟩ := of_decodeMany codec isTail
      refine ⟨by rw [List.length_cons, length], ?_⟩
      rw [codec.encode_of_decode input value left isHead, isLeft,
        List.flatMap_cons, List.append_assoc]

/-- No list is longer than its encoding when every element takes a byte. -/
theorem length_le_flatMap {codec : Codec Value}
    (nonempty : ∀ value, 0 < codec.size value) :
    ∀ values : List Value,
      values.length ≤ (values.flatMap codec.encode).length
  | [] => Nat.le_refl _
  | value :: values => by
      have head : 0 < (codec.encode value).length := nonempty value
      have tail := length_le_flatMap nonempty values
      rw [List.flatMap_cons, List.length_cons, List.length_append]
      omega

/-- The number of elements in eight bytes, then the elements. -/
def list (codec : Codec Value) (nonempty : ∀ value, 0 < codec.size value) :
    Codec (List Value) where
  encode values :=
    u64.encode (UInt64.ofNat values.length) ++ values.flatMap codec.encode
  decode input :=
    (u64.decode input).bind fun (count, left) =>
      codec.decodeMany count.toNat left
  decode_encode := by
    intro values rest bound
    rw [List.length_append] at bound
    have counted := length_le_flatMap nonempty values
    have count : (UInt64.ofNat values.length).toNat = values.length := by
      rw [UInt64.toNat_ofNat']
      omega
    have isCount :=
      u64.decode_encode (UInt64.ofNat values.length)
        (values.flatMap codec.encode ++ rest) (by omega)
    simp only [List.append_assoc, isCount, Option.bind_some, count]
    exact codec.decodeMany_flatMap values rest (by omega)
  encode_of_decode := by
    intro input values rest decoded
    obtain ⟨⟨count, left⟩, isCount, others⟩ :=
      Option.bind_eq_some_iff.mp decoded
    obtain ⟨length, isLeft⟩ := codec.of_decodeMany others
    rw [u64.encode_of_decode input count left isCount, isLeft, length,
      UInt64.ofNat_toNat, List.append_assoc]

theorem size_list {codec : Codec Value}
    {nonempty : ∀ value, 0 < codec.size value} (values : List Value) :
    (codec.list nonempty).size values =
      8 + (values.map codec.size).sum := by
  have counted : (u64.encode (UInt64.ofNat values.length)).length = 8 :=
    size_u64 _
  rw [size, list, List.length_append, List.length_flatMap, counted]
  rfl

/-- A list of bytes. -/
def bytes : Codec (List UInt8) :=
  byte.list fun value => by
    rw [size_byte]
    exact Nat.one_pos

@[simp]
theorem size_bytes (data : List UInt8) : bytes.size data = 8 + data.length := by
  have each : data.map byte.size = List.replicate data.length 1 :=
    List.map_eq_replicate_iff.mpr fun value _ => size_byte value
  rw [bytes, size_list, each, List.sum_replicate_nat, Nat.mul_one]

/-- The UTF-8 bytes of a text. -/
def utf8 (text : String) : List UInt8 :=
  text.toUTF8.data.toList

/-- A text as its UTF-8 bytes; other bytes are refused. -/
def string : Codec String :=
  bytes.through utf8
    (fun raw => String.fromUTF8? ⟨raw.toArray⟩)
    (by
      intro text
      have valid : ByteArray.IsValidUTF8 ⟨(utf8 text).toArray⟩ :=
        text.isValidUTF8
      rw [String.fromUTF8?, dif_pos valid]
      rfl)
    (by
      intro raw text isText
      unfold String.fromUTF8? at isText
      split at isText
      · cases isText
        rfl
      · cases isText)

@[simp]
theorem size_string (text : String) :
    string.size text = 8 + text.utf8ByteSize := by
  rw [string, size_through, size_bytes]
  rfl

end Codec

end HautePerformance.Library
