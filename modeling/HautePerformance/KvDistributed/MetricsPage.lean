import HautePerformance.Library.Exposition
import HautePerformance.KvDistributed.ReplicationLag
import HautePerformance.KvDistributed.Storage

/-!
# The metrics page

`format_prometheus` of `metrics.rs`, as a text that a scraper reads: each metric is
described and typed before its one sample, and the samples are those of the node.
The rendering of the lag, a double with three decimals, is a parameter.
-/

namespace HautePerformance.KvDistributed

open Library

/-- `Metrics`, with the lag of the replication module. -/
structure NodeMetrics extends Metrics where
  nodeId : UInt32
  startedAt : Nat
  opsTotal : UInt64
  getTotal : UInt64
  putTotal : UInt64
  deleteTotal : UInt64
  errorsTotal : UInt64
  activeConnections : UInt64
  peersAlive : UInt64
  peersTotal : UInt64
  deriving DecidableEq, Repr

/-- `Metrics::new`. -/
def NodeMetrics.new (nodeId : UInt32) (now : Nat) : NodeMetrics where
  toMetrics := Metrics.new
  nodeId := nodeId
  startedAt := now
  opsTotal := 0
  getTotal := 0
  putTotal := 0
  deleteTotal := 0
  errorsTotal := 0
  activeConnections := 0
  peersAlive := 0
  peersTotal := 0

/-- The values that are loaded for a page. -/
structure Samples where
  ops : UInt64
  gets : UInt64
  puts : UInt64
  dels : UInt64
  errs : UInt64
  hits : UInt64
  miss : UInt64
  exp : UInt64
  keys : UInt64
  conn : UInt64
  lagUs : UInt64
  alive : UInt64
  peers : UInt64
  uptime : UInt64
  deriving DecidableEq, Repr

/-- A metric with its sample. -/
structure MetricFamily where
  name : String
  help : String
  kind : String
  value : String
  deriving DecidableEq, Repr

/-- One family of the format string. -/
def MetricFamily.format (nid : UInt32) (family : MetricFamily) : String :=
  "# HELP " ++ family.name ++ " " ++ family.help ++ "\n" ++
    "# TYPE " ++ family.name ++ " " ++ family.kind ++ "\n" ++
    family.name ++ "\x7bnode=\"" ++ toString nid ++ "\"\x7d " ++ family.value ++
    "\n"

namespace Samples

/-- The families of the format string, in its order. -/
def families (lagText : UInt64 → String) (self : Samples) : List MetricFamily :=
  [⟨"kv_ops_total", "Total number of operations", "counter", toString self.ops⟩,
    ⟨"kv_get_total", "Total GET operations", "counter", toString self.gets⟩,
    ⟨"kv_put_total", "Total PUT operations", "counter", toString self.puts⟩,
    ⟨"kv_delete_total", "Total DELETE operations", "counter", toString self.dels⟩,
    ⟨"kv_errors_total", "Total error responses", "counter", toString self.errs⟩,
    ⟨"kv_storage_hits", "Storage layer hits", "counter", toString self.hits⟩,
    ⟨"kv_storage_misses", "Storage layer misses", "counter", toString self.miss⟩,
    ⟨"kv_storage_expired", "Lazily expired entries", "counter", toString self.exp⟩,
    ⟨"kv_keys_count", "Current number of keys stored", "gauge", toString self.keys⟩,
    ⟨"kv_active_connections", "Open TCP connections", "gauge", toString self.conn⟩,
    ⟨"kv_replication_lag_ms", "EWMA of PUT replication latency", "gauge",
      lagText self.lagUs⟩,
    ⟨"kv_peers_alive", "Peers currently reachable", "gauge", toString self.alive⟩,
    ⟨"kv_peers_total", "Total peers configured", "gauge", toString self.peers⟩,
    ⟨"kv_uptime_seconds", "Uptime in seconds", "gauge", toString self.uptime⟩]

/-- The text that `format_prometheus` makes of the loaded values. -/
def format (lagText : UInt64 → String) (nid : UInt32) (self : Samples) : String :=
  String.join ((self.families lagText).map (MetricFamily.format nid))

end Samples

namespace NodeMetrics

/-- What is loaded when nothing interferes. -/
def samples (self : NodeMetrics) (storage : StorageEngine) (now : Nat) : Samples where
  ops := self.opsTotal
  gets := self.getTotal
  puts := self.putTotal
  dels := self.deleteTotal
  errs := self.errorsTotal
  hits := storage.stats.hits
  miss := storage.stats.misses
  exp := storage.stats.expired
  keys := UInt64.ofNat storage.len
  conn := self.activeConnections
  lagUs := self.replicationLagUs
  alive := self.peersAlive
  peers := self.peersTotal
  uptime := UInt64.ofNat ((now - self.startedAt) / 1000000000)

/-- `Metrics::format_prometheus`. -/
def formatPrometheus (lagText : UInt64 → String) (self : NodeMetrics)
    (storage : StorageEngine) (now : Nat) : String :=
  (self.samples storage now).format lagText self.nodeId

end NodeMetrics

/-! ## Scraping -/

def nodeLabel : List Char :=
  ['n', 'o', 'd', 'e']

/-- The lines of a family. -/
def MetricFamily.lines (nid : UInt32) (family : MetricFamily) :
    List Exposition.Line :=
  [.help family.name.toList family.help.toList,
    .type family.name.toList family.kind.toList,
    .sample family.name.toList nodeLabel (toString nid).toList family.value.toList]

theorem toList_format (nid : UInt32) (family : MetricFamily) :
    (family.format nid).toList = Exposition.render (family.lines nid) := by
  have help : "# HELP ".toList = Exposition.helpMark := by decide
  have type : "# TYPE ".toList = Exposition.typeMark := by decide
  have opening : "\x7bnode=\"".toList = '\x7b' :: (nodeLabel ++ ['=', '\x22']) := by
    decide
  have closing : "\"\x7d ".toList = ['\x22', '\x7d', ' '] := by decide
  have space : " ".toList = [' '] := by decide
  have lineFeed : "\n".toList = ['\n'] := by decide
  unfold MetricFamily.format
  simp only [MetricFamily.lines, Exposition.render, Exposition.Line.render, String.toList_append, help, type, opening, closing, space,
    lineFeed, List.flatMap_cons, List.flatMap_nil, List.append_assoc,
    List.cons_append, List.nil_append, List.append_nil]

/-- Numbers are printed with digits. -/
theorem isNumeral_repr (n : Nat) : Exposition.IsNumeral (Nat.repr n).toList := by
  rw [Nat.toList_repr]
  refine ⟨by simp, List.all_eq_true.mpr ?_⟩
  intro c member
  exact Nat.isDigit_of_mem_toDigits (by omega) (by omega) member

/-- Digits need no escape. -/
theorem isPlain_repr (n : Nat) :
    (Nat.repr n).toList.all Exposition.isPlainChar = true := by
  have noDigit {c : Char} (other : c.isDigit = false) :
      c ∉ (Nat.repr n).toList :=
    Exposition.notMem_of_all (isNumeral_repr n).2 other
  refine List.all_eq_true.mpr fun c member => ?_
  rw [Exposition.isPlainChar, Bool.and_eq_true, Bool.and_eq_true, bne_iff_ne,
    bne_iff_ne, bne_iff_ne]
  refine ⟨⟨?_, ?_⟩, ?_⟩
  · rintro rfl
    exact noDigit (by decide) member
  · rintro rfl
    exact noDigit (by decide) member
  · rintro rfl
    exact noDigit (by decide) member

/-- A family whose texts have the form that a scraper asks for. -/
def MetricFamily.Valid (family : MetricFamily) : Prop :=
  Exposition.IsName family.name.toList ∧ '\n' ∉ family.help.toList ∧
    family.kind.toList ∈ Exposition.kinds ∧
    Exposition.IsNumber family.value.toList

theorem MetricFamily.Valid.lines {family : MetricFamily} (valid : family.Valid)
    (nid : UInt32) : ∀ line ∈ family.lines nid, line.Valid := by
  obtain ⟨name, help, kind, value⟩ := valid
  intro line member
  simp only [MetricFamily.lines, List.mem_cons, List.not_mem_nil, or_false] at member
  rcases member with rfl | rfl | rfl
  · exact ⟨name, help⟩
  · exact ⟨name, kind⟩
  · exact ⟨name, by decide, isPlain_repr nid.toNat, value⟩

theorem Samples.families_valid {lagText : UInt64 → String}
    (isNumber : ∀ lagUs, Exposition.IsNumber (lagText lagUs).toList)
    (samples : Samples) : ∀ family ∈ samples.families lagText, family.Valid := by
  have counted {name help kind : String} (value : UInt64)
      (texts : Exposition.IsName name.toList ∧ '\n' ∉ help.toList ∧
        kind.toList ∈ Exposition.kinds) :
      MetricFamily.Valid ⟨name, help, kind, toString value⟩ :=
    ⟨texts.1, texts.2.1, texts.2.2, (isNumeral_repr value.toNat).isNumber⟩
  intro family member
  simp only [families, List.mem_cons, List.not_mem_nil, or_false] at member
  rcases member with rfl | rfl | rfl | rfl | rfl | rfl | rfl | rfl | rfl | rfl |
    rfl | rfl | rfl | rfl
  case inr.inr.inr.inr.inr.inr.inr.inr.inr.inr.inl =>
    have texts : Exposition.IsName "kv_replication_lag_ms".toList ∧
        '\n' ∉ "EWMA of PUT replication latency".toList ∧
        "gauge".toList ∈ Exposition.kinds := by
      decide
    exact ⟨texts.1, texts.2.1, texts.2.2, isNumber samples.lagUs⟩
  all_goals exact counted _ (by decide)

theorem Samples.toList_format (lagText : UInt64 → String) (nid : UInt32)
    (samples : Samples) :
    (samples.format lagText nid).toList =
      Exposition.render
        ((samples.families lagText).flatMap (MetricFamily.lines nid)) := by
  rw [format, String.toList_join, List.flatMap_map, Exposition.render,
    List.flatMap_assoc]
  exact congrArg (List.flatMap · (samples.families lagText))
    (funext (KvDistributed.toList_format nid))

/-- The name in a line that describes a metric. -/
def described : Exposition.Line → Option (List Char)
  | .help name _ => some name
  | _ => none

/-- The name and the type in a line that gives one. -/
def typed : Exposition.Line → Option (List Char × List Char)
  | .type name kind => some (name, kind)
  | _ => none

/-- The name, the label, the id and the value in the line of a sample. -/
def sampled : Exposition.Line →
    Option (List Char × List Char × List Char × List Char)
  | .sample name label labelValue value => some (name, label, labelValue, value)
  | _ => none

/-- A reading of single lines that finds one thing in the lines of each family. -/
theorem filterMap_lines {Found : Type} (read : Exposition.Line → Option Found)
    (nid : UInt32) (find : MetricFamily → Found)
    (one : ∀ family : MetricFamily,
      (family.lines nid).filterMap read = [find family])
    (families : List MetricFamily) :
    (families.flatMap (MetricFamily.lines nid)).filterMap read =
      families.map find := by
  induction families with
  | nil => rfl
  | cons family rest inductionHypothesis =>
      rw [List.flatMap_cons, List.filterMap_append, inductionHypothesis, one]
      rfl

theorem repr_injective {m n : Nat} (same : Nat.repr m = Nat.repr n) : m = n := by
  have sameDigits : Nat.toDigits 10 m = Nat.toDigits 10 n := by
    rw [← Nat.toList_repr, same, Nat.toList_repr]
  have read (k : Nat) : Nat.ofDigitChars 10 (Nat.toDigits 10 k) 0 = k :=
    Nat.ofDigitChars_ten_toDigits
  rw [← read m, sameDigits, read n]

theorem toString_inj {a b : UInt64} : toString a = toString b ↔ a = b :=
  ⟨fun same => UInt64.toNat_inj.mp (repr_injective same), congrArg toString⟩

/-- The metrics of the page and their types. -/
def metricKinds : List (String × String) :=
  [("kv_ops_total", "counter"), ("kv_get_total", "counter"),
    ("kv_put_total", "counter"), ("kv_delete_total", "counter"),
    ("kv_errors_total", "counter"), ("kv_storage_hits", "counter"),
    ("kv_storage_misses", "counter"), ("kv_storage_expired", "counter"),
    ("kv_keys_count", "gauge"), ("kv_active_connections", "gauge"),
    ("kv_replication_lag_ms", "gauge"), ("kv_peers_alive", "gauge"),
    ("kv_peers_total", "gauge"), ("kv_uptime_seconds", "gauge")]

/-- What is sampled under each name. -/
def Samples.values (lagText : UInt64 → String) (self : Samples) :
    List (String × String) :=
  [("kv_ops_total", toString self.ops), ("kv_get_total", toString self.gets),
    ("kv_put_total", toString self.puts), ("kv_delete_total", toString self.dels),
    ("kv_errors_total", toString self.errs), ("kv_storage_hits", toString self.hits),
    ("kv_storage_misses", toString self.miss),
    ("kv_storage_expired", toString self.exp), ("kv_keys_count", toString self.keys),
    ("kv_active_connections", toString self.conn),
    ("kv_replication_lag_ms", lagText self.lagUs),
    ("kv_peers_alive", toString self.alive), ("kv_peers_total", toString self.peers),
    ("kv_uptime_seconds", toString self.uptime)]

/-- What a scraper finds on the page of a node: each metric described once, typed
once and sampled once, under the id of the node. -/
structure Scraped (lagText : UInt64 → String) (nid : UInt32) (samples : Samples)
    (lines : List Exposition.Line) : Prop where
  described :
    lines.filterMap described = metricKinds.map fun metric => metric.1.toList
  typed :
    lines.filterMap typed =
      metricKinds.map fun metric => (metric.1.toList, metric.2.toList)
  sampled :
    lines.filterMap sampled =
      (samples.values lagText).map fun sample =>
        (sample.1.toList, nodeLabel, (toString nid).toList, sample.2.toList)

theorem Samples.scraped_families (lagText : UInt64 → String) (nid : UInt32)
    (samples : Samples) :
    Scraped lagText nid samples
      ((samples.families lagText).flatMap (MetricFamily.lines nid)) where
  described :=
    filterMap_lines KvDistributed.described nid
      (fun family => family.name.toList) (fun _ => rfl) _
  typed :=
    filterMap_lines KvDistributed.typed nid
      (fun family => (family.name.toList, family.kind.toList)) (fun _ => rfl) _
  sampled :=
    filterMap_lines KvDistributed.sampled nid
      (fun family =>
        (family.name.toList, nodeLabel, (toString nid).toList,
          family.value.toList)) (fun _ => rfl) _

/-- The values under the names tell every integer sample. -/
theorem Samples.eq_of_values {lagText : UInt64 → String}
    {samples other : Samples}
    (same : (samples.values lagText).map (fun sample => sample.2) =
      (other.values lagText).map fun sample => sample.2) :
    lagText samples.lagUs = lagText other.lagUs ∧
      { samples with lagUs := other.lagUs } = other := by
  unfold Samples.values at same
  simp only [List.map_cons, List.map_nil, List.cons.injEq, toString_inj,
    and_true] at same
  obtain ⟨ops, gets, puts, dels, errs, hits, miss, exp, keys, conn, lag, alive,
    peers, uptime⟩ := same
  refine ⟨lag, ?_⟩
  rw [ops, gets, puts, dels, errs, hits, miss, exp, keys, conn, alive, peers, uptime]

/-- The page is well formed, whatever is loaded: a scraper reads back the fourteen
metrics, each described, typed and sampled once under the id of the node, with its
type and its value.  Hence a page tells the node and every integer sample. -/
theorem page_scraped (lagText : UInt64 → String)
    (isNumber : ∀ lagUs, Exposition.IsNumber (lagText lagUs).toList) :
    (∀ nid samples, ∃ lines,
      Exposition.scrape (Samples.format lagText nid samples).toList =
          some lines ∧
        lines = (samples.families lagText).flatMap (MetricFamily.lines nid) ∧
        Scraped lagText nid samples lines) ∧
    ∀ nid nid' samples samples',
      Samples.format lagText nid samples = Samples.format lagText nid' samples' →
      nid = nid' ∧ lagText samples.lagUs = lagText samples'.lagUs ∧
        { samples with lagUs := samples'.lagUs } = samples' := by
  have scraped (nid : UInt32) (samples : Samples) :
      Exposition.scrape (Samples.format lagText nid samples).toList =
        some ((samples.families lagText).flatMap (MetricFamily.lines nid)) := by
    rw [Samples.toList_format]
    apply Exposition.scrape_render
    intro line member
    obtain ⟨family, inside, isLine⟩ := List.mem_flatMap.mp member
    exact (Samples.families_valid isNumber samples family inside).lines nid line isLine
  refine ⟨fun nid samples =>
    ⟨_, scraped nid samples, rfl, samples.scraped_families lagText nid⟩, ?_⟩
  intro nid nid' samples samples' same
  have sameLines : (samples.families lagText).flatMap (MetricFamily.lines nid) =
      (samples'.families lagText).flatMap (MetricFamily.lines nid') := by
    apply Option.some.inj
    rw [← scraped, ← scraped, same]
  have sameSamples := congrArg (List.filterMap sampled) sameLines
  rw [(samples.scraped_families lagText nid).sampled,
    (samples'.scraped_families lagText nid').sampled] at sameSamples
  have sameNode : (toString nid).toList = (toString nid').toList := by
    have first := congrArg List.head? sameSamples
    simp only [Samples.values, List.map_cons, List.head?_cons, Option.some.injEq,
      Prod.mk.injEq] at first
    exact first.2.2.1
  have sameValues : (samples.values lagText).map (fun sample => sample.2) =
      (samples'.values lagText).map fun sample => sample.2 := by
    have texts := congrArg (List.map fun found => String.ofList found.2.2.2)
      sameSamples
    simpa only [List.map_map, Function.comp_def, String.ofList_toList] using texts
  exact ⟨UInt32.toNat_inj.mp (repr_injective (String.toList_inj.mp sameNode)),
    Samples.eq_of_values sameValues⟩

/-- A lag in microseconds, as milliseconds with three decimals. -/
def decimalLag (lagUs : UInt64) : String :=
  Nat.repr (lagUs.toNat / 1000) ++ "." ++ Nat.repr (lagUs.toNat / 100 % 10) ++
    Nat.repr (lagUs.toNat / 10 % 10) ++ Nat.repr (lagUs.toNat % 10)

theorem isNumber_decimalLag (lagUs : UInt64) :
    Exposition.IsNumber (decimalLag lagUs).toList := by
  have isFraction : Exposition.IsNumeral
      ((Nat.repr (lagUs.toNat / 100 % 10)).toList ++
        (Nat.repr (lagUs.toNat / 10 % 10)).toList ++
        (Nat.repr (lagUs.toNat % 10)).toList) := by
    refine ⟨by simp, ?_⟩
    simp only [List.all_append, (isNumeral_repr _).2, Bool.and_self]
  have shape : (decimalLag lagUs).toList =
      (Nat.repr (lagUs.toNat / 1000)).toList ++
        '.' :: ((Nat.repr (lagUs.toNat / 100 % 10)).toList ++
          (Nat.repr (lagUs.toNat / 10 % 10)).toList ++
          (Nat.repr (lagUs.toNat % 10)).toList) := by
    simp [decimalLag]
  rw [shape]
  exact (isNumeral_repr _).isNumber_point isFraction

/-- The page of a new node. -/
theorem page_scraped_decimal :
    (∀ lagUs, Exposition.IsNumber (decimalLag lagUs).toList) ∧
      ∃ lines,
        Exposition.scrape
            ((NodeMetrics.new 7 0).formatPrometheus decimalLag StorageEngine.new
              0).toList =
          some lines ∧
        Scraped decimalLag 7 ((NodeMetrics.new 7 0).samples StorageEngine.new 0)
          lines := by
  obtain ⟨lines, scraped, _, found⟩ :=
    (page_scraped decimalLag isNumber_decimalLag).1 7
      ((NodeMetrics.new 7 0).samples StorageEngine.new 0)
  exact ⟨isNumber_decimalLag, lines, scraped, found⟩

end HautePerformance.KvDistributed
