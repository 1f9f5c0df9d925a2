import Mathlib.Data.List.AList
import HautePerformance.Library.Varint

/-!
# The protobuf-like encoding

`protobuf_like_encode` of `demo09_serde_formats.rs`, written by hand and without a
decoder in the source.  A report is written field by field, its metrics as messages
with their length in front, and the labels of a metric as messages inside.  The
decoder here reads every report back, so that no two reports have one encoding.

A double is its 64-bit pattern.  The entries of a map of labels are in the order in
which it is iterated.
-/

namespace HautePerformance.Demos.ProtobufEncoding

open Library
open Codec

structure Metric where
  name : String
  value : UInt64
  labels : AList fun _ : String => String

structure MetricReport where
  hostname : String
  datacenter : String
  timestamp : Int64
  metrics : List Metric

/-- `write_varint`, of a `u64` as a number. -/
def writeVarint (value : Nat) : List UInt8 :=
  if value ≥ 0x80 then
    (UInt8.ofNat (value &&& 0x7F) ||| 0x80) :: writeVarint (value >>> 7)
  else [UInt8.ofNat value]
termination_by value
decreasing_by
  rw [Nat.shiftRight_eq_div_pow]
  omega

def writeTag (field wireType : UInt32) : List UInt8 :=
  writeVarint ((field <<< 3) ||| wireType).toNat

def writeString (field : UInt32) (s : String) : List UInt8 :=
  writeTag field 2 ++ writeVarint (utf8 s).length ++ utf8 s

def writeDouble (field : UInt32) (v : UInt64) : List UInt8 :=
  writeTag field 1 ++ littleEndian 8 v.toNat

/-- `v as u64` keeps the bits of a negative number. -/
def writeInt64 (field : UInt32) (v : Int64) : List UInt8 :=
  writeTag field 0 ++ writeVarint v.toUInt64.toNat

/-- An entry of the labels, with its tag and length. -/
def writeLabel (entry : Sigma fun _ : String => String) : List UInt8 :=
  let kv := writeString 1 entry.1 ++ writeString 2 entry.2
  writeTag 3 2 ++ writeVarint kv.length ++ kv

/-- A metric, with its tag and length. -/
def writeMetric (m : Metric) : List UInt8 :=
  let sub :=
    writeString 1 m.name ++ writeDouble 2 m.value ++
      m.labels.entries.flatMap writeLabel
  writeTag 4 2 ++ writeVarint sub.length ++ sub

def protobufLikeEncode (report : MetricReport) : List UInt8 :=
  writeString 1 report.hostname ++ writeString 2 report.datacenter ++
    writeInt64 3 report.timestamp ++ report.metrics.flatMap writeMetric

/-! ## Reading back -/

def readString (field : UInt32) (input : List UInt8) :
    Option (String × List UInt8) := do
  let input ← expect (writeTag field 2) input
  let (bytes, rest) ← readDelimited input
  let s ← String.fromUTF8? ⟨bytes.toArray⟩
  some (s, rest)

def readDouble (field : UInt32) (input : List UInt8) :
    Option (UInt64 × List UInt8) := do
  let input ← expect (writeTag field 1) input
  let (bytes, rest) ← readExact 8 input
  some (UInt64.ofNat (ofLittleEndian bytes), rest)

def readInt64 (field : UInt32) (input : List UInt8) :
    Option (Int64 × List UInt8) := do
  let input ← expect (writeTag field 0) input
  let (value, rest) ← readVarint input
  some ((UInt64.ofNat value).toInt64, rest)

def readLabel (input : List UInt8) :
    Option ((Sigma fun _ : String => String) × List UInt8) := do
  let input ← expect (writeTag 3 2) input
  let (kv, rest) ← readDelimited input
  let (k, kv) ← readString 1 kv
  let (v, _) ← readString 2 kv
  some (⟨k, v⟩, rest)

def readMetric (input : List UInt8) : Option (Metric × List UInt8) := do
  let input ← expect (writeTag 4 2) input
  let (sub, rest) ← readDelimited input
  let (name, sub) ← readString 1 sub
  let (value, sub) ← readDouble 2 sub
  let entries ← readAll readLabel sub.length sub
  if distinct : entries.keys.Nodup then
    some ({ name := name, value := value, labels := ⟨entries, distinct⟩ }, rest)
  else none

/-- A decoder for what `protobuf_like_encode` writes. -/
def protobufLikeDecode (input : List UInt8) : Option MetricReport := do
  let (hostname, input) ← readString 1 input
  let (datacenter, input) ← readString 2 input
  let (timestamp, input) ← readInt64 3 input
  let metrics ← readAll readMetric input.length input
  some
    { hostname := hostname
      datacenter := datacenter
      timestamp := timestamp
      metrics := metrics }

/-! ## The round trip -/

/-- The loop of the source writes base 128. -/
theorem writeVarint_eq_varint (value : Nat) : writeVarint value = varint value := by
  induction value using varint.induct with
  | case1 value small =>
      rw [writeVarint, if_neg (by omega), varint, if_pos small]
  | case2 value large inductionHypothesis =>
      have low : value &&& 0x7F = value % 0x80 := Nat.and_two_pow_sub_one_eq_mod value 7
      have high : value >>> 7 = value / 0x80 := Nat.shiftRight_eq_div_pow value 7
      have byte :
          UInt8.ofNat (value % 0x80) ||| 0x80 = UInt8.ofNat (0x80 + value % 0x80) := by
        have digit : value % 0x80 < 2 ^ 7 := Nat.mod_lt _ (by decide)
        have sum : 0x80 + value % 0x80 = 0x80 ||| value % 0x80 :=
          Nat.two_pow_add_eq_or_of_lt digit 1
        rw [sum, Nat.or_comm, UInt8.ofNat_or]
        rfl
      have step : varint value =
          UInt8.ofNat (0x80 + value % 0x80) :: varint (value / 0x80) := by
        rw [varint, if_neg large]
      rw [writeVarint, if_pos (by omega), low, high, byte, inductionHypothesis, step]

theorem readVarint_writeVarint : Reads readVarint writeVarint := by
  intro value rest
  rw [writeVarint_eq_varint]
  exact readVarint_varint value rest

/-- A tag, a length and so many bytes are a tag and a delimited message. -/
theorem framed_append (field : UInt32) (bytes rest : List UInt8) :
    writeTag field 2 ++ writeVarint bytes.length ++ bytes ++ rest =
      writeTag field 2 ++ (delimited bytes ++ rest) := by
  rw [writeVarint_eq_varint, delimited, List.append_assoc (writeTag field 2),
    List.append_assoc]

/-- The tag, then whatever has been written with it. -/
theorem expect_writeTag (field wireType : UInt32) (rest : List UInt8) :
    expect (writeTag field wireType) (writeTag field wireType ++ rest) = some rest :=
  expect_append _ rest

theorem writeTag_ne_nil (field wireType : UInt32) : writeTag field wireType ≠ [] := by
  rw [writeTag, writeVarint]
  split <;> exact List.cons_ne_nil _ _

theorem fromUTF8?_utf8 (s : String) :
    String.fromUTF8? ⟨(utf8 s).toArray⟩ = some s := by
  have valid : ByteArray.IsValidUTF8 ⟨(utf8 s).toArray⟩ := s.isValidUTF8
  rw [String.fromUTF8?, dif_pos valid]
  rfl

theorem readString_writeString (field : UInt32) :
    Reads (readString field) (writeString field) := by
  intro s rest
  rw [readString, writeString, framed_append, expect_writeTag]
  simp only [Option.bind_eq_bind, Option.bind_some, readDelimited_delimited (utf8 s) rest,
    fromUTF8?_utf8]

theorem readDouble_writeDouble (field : UInt32) :
    Reads (readDouble field) (writeDouble field) := by
  intro v rest
  have isRead : readExact 8 (littleEndian 8 v.toNat ++ rest) =
      some (littleEndian 8 v.toNat, rest) :=
    readExact_append (length_littleEndian 8 v.toNat) rest
  have bits : ofLittleEndian (littleEndian 8 v.toNat) = v.toNat :=
    ofLittleEndian_littleEndian v.toNat_lt
  rw [readDouble, writeDouble, List.append_assoc, expect_writeTag]
  simp only [Option.bind_eq_bind, Option.bind_some, isRead, bits, UInt64.ofNat_toNat]

theorem readInt64_writeInt64 (field : UInt32) :
    Reads (readInt64 field) (writeInt64 field) := by
  intro v rest
  rw [readInt64, writeInt64, List.append_assoc, expect_writeTag]
  simp only [Option.bind_eq_bind, Option.bind_some,
    readVarint_writeVarint v.toUInt64.toNat rest, UInt64.ofNat_toNat,
    Int64.toInt64_toUInt64]

theorem readLabel_writeLabel : Reads readLabel writeLabel := by
  intro entry rest
  have key := readString_writeString 1 entry.1 (writeString 2 entry.2)
  have value := readString_writeString 2 entry.2 []
  rw [List.append_nil] at value
  rw [readLabel, writeLabel]
  dsimp only
  rw [framed_append, expect_writeTag]
  simp only [Option.bind_eq_bind, Option.bind_some, readDelimited_delimited _ rest, key,
    value]

theorem writeLabel_ne_nil (entry : Sigma fun _ : String => String) :
    writeLabel entry ≠ [] := by
  rw [writeLabel, List.append_assoc]
  exact List.append_ne_nil_of_left_ne_nil (writeTag_ne_nil 3 2) _

theorem readMetric_writeMetric : Reads readMetric writeMetric := by
  intro m rest
  have name := readString_writeString 1 m.name
    (writeDouble 2 m.value ++ m.labels.entries.flatMap writeLabel)
  have value := readDouble_writeDouble 2 m.value (m.labels.entries.flatMap writeLabel)
  have labels := readAll_written readLabel_writeLabel writeLabel_ne_nil m.labels.entries
  have distinct : m.labels.entries.keys.Nodup := m.labels.nodupKeys
  rw [readMetric, writeMetric]
  dsimp only
  rw [framed_append, expect_writeTag, List.append_assoc]
  simp only [Option.bind_eq_bind, Option.bind_some, readDelimited_delimited _ rest, name,
    value, labels, dif_pos distinct]

theorem writeMetric_ne_nil (m : Metric) : writeMetric m ≠ [] := by
  rw [writeMetric, List.append_assoc]
  exact List.append_ne_nil_of_left_ne_nil (writeTag_ne_nil 4 2) _

theorem protobufLikeDecode_encode (report : MetricReport) :
    protobufLikeDecode (protobufLikeEncode report) = some report := by
  have hostname := readString_writeString 1 report.hostname
    (writeString 2 report.datacenter ++
      (writeInt64 3 report.timestamp ++ report.metrics.flatMap writeMetric))
  have datacenter := readString_writeString 2 report.datacenter
    (writeInt64 3 report.timestamp ++ report.metrics.flatMap writeMetric)
  have timestamp := readInt64_writeInt64 3 report.timestamp
    (report.metrics.flatMap writeMetric)
  have metrics := readAll_written readMetric_writeMetric writeMetric_ne_nil report.metrics
  rw [protobufLikeDecode, protobufLikeEncode, List.append_assoc, List.append_assoc]
  simp only [Option.bind_eq_bind, Option.bind_some, hostname, datacenter, timestamp,
    metrics]

/-- The encoding loses nothing: reports with one encoding are equal, and the decoder
recovers each of them. -/
theorem protobufLikeEncode_lossless :
    Function.Injective protobufLikeEncode ∧
      ∀ report, protobufLikeDecode (protobufLikeEncode report) = some report := by
  refine ⟨?_, protobufLikeDecode_encode⟩
  intro first second same
  have read := protobufLikeDecode_encode first
  rw [same, protobufLikeDecode_encode second] at read
  exact (Option.some.inj read).symm

end HautePerformance.Demos.ProtobufEncoding
