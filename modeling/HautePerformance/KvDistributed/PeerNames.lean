import Mathlib.Algebra.GroupWithZero.Nat
import Mathlib.Data.List.AList
import HautePerformance.Library.RoundReading
import HautePerformance.Library.SeparatedList
import HautePerformance.KvDistributed.ConsistentHash

/-!
# The names of the peers

`main` of `main.rs` gives every peer a name for its place in the list of the
addresses that `parsed_peers` keeps, counted past the local id.  An entry that does
not parse is dropped before the places are counted.
-/

namespace HautePerformance.KvDistributed

open Library

/-! ## `--peers` -/

/-- The Unicode property `White_Space`, which `trim` goes by. -/
def isWhitespace (c : Char) : Bool :=
  let n := c.toNat
  (decide (9 ≤ n) && decide (n ≤ 13)) || n == 0x20 || n == 0x85 || n == 0xA0 ||
    n == 0x1680 || (decide (0x2000 ≤ n) && decide (n ≤ 0x200A)) ||
    n == 0x2028 || n == 0x2029 || n == 0x202F || n == 0x205F || n == 0x3000

/-- `s.split(',')`. -/
def splitComma (s : String) : List String :=
  (s.toList.splitOn ',').map String.ofList

/-- `s.trim()`. -/
def trim (s : String) : String :=
  String.ofList (stripped isWhitespace s.toList)

/-- The arguments that the names of the peers depend on. -/
structure Args where
  nodeId : UInt32
  peers : String

namespace Args

/-- The entries of `--peers`, trimmed, without the empty ones. -/
def entries (self : Args) : List String :=
  ((splitComma self.peers).map trim).filter (· ≠ "")

variable {Addr : Type} (parse : String → Option Addr)

/-- `Args::parsed_peers`, where `parse` is that of `SocketAddr`. -/
def parsedPeers (self : Args) : List Addr :=
  self.entries.filterMap parse

end Args

/-! ## `main` -/

/-- `format!("node-{id}")`. -/
def nodeName (id : Nat) : String :=
  "node-" ++ toString id

/-- The id derived from the place of a peer in the list, moved past the local
id. -/
def derivedId (nodeId : UInt32) (i : Nat) : UInt32 :=
  if UInt32.ofNat i + 1 ≥ nodeId then UInt32.ofNat i + 2
  else UInt32.ofNat i + 1

namespace Args

variable {Addr : Type} (parse : String → Option Addr)

def localNodeName (self : Args) : String :=
  nodeName self.nodeId.toNat

def peerNodeNames (self : Args) : List String :=
  (self.parsedPeers parse).mapIdx fun i _ =>
    nodeName (derivedId self.nodeId i).toNat

/-- The names with the addresses: what the pool is filled from, and what the
heartbeat loop reconnects. -/
def peerPairs (self : Args) : List (String × Addr) :=
  (self.peerNodeNames parse).zip (self.parsedPeers parse)

/-- The ring of `main`. -/
def ring (hash : String → UInt64) (self : Args) : ConsistentHashRing :=
  (self.peerNodeNames parse).foldl (fun ring n => ring.addNode hash n)
    ((ConsistentHashRing.new 150).addNode hash self.localNodeName)

/-- The pool of clients, each given by the address it is connected to; `connects`
says which connections succeed. -/
def peersMap (connects : String × Addr → Bool) (self : Args) :
    AList fun _ : String => Addr :=
  (self.peerPairs parse).foldl
    (fun map pair => if connects pair then map.insert pair.1 pair.2 else map) ∅

end Args

/-! ## The list that is meant -/

/-- The ids of the other nodes of a cluster, in increasing order. -/
def otherIds (size nodeId : Nat) : List Nat :=
  (List.range' 1 size).filter (· ≠ nodeId)

/-- The string is a list of the texts: they stand in it in order, separated by
commas, with any white space around them and any blank items between them. -/
def Lists (peers : String) (texts : List String) : Prop :=
  ∃ written : List (Padded ',' isWhitespace),
    written ≠ [] ∧
      peers.toList = [','].intercalate (written.map Padded.render) ∧
      texts.map String.toList = (written.map Padded.content).filter (· ≠ [])

namespace Args

theorem toList_entries (args : Args) :
    args.entries.map String.toList =
      fields ',' isWhitespace args.peers.toList := by
  have trimmed (piece : List Char) :
      (trim (String.ofList piece)).toList = stripped isWhitespace piece := by
    rw [trim, String.toList_ofList, String.toList_ofList]
  have kept (text : String) :
      decide (text ≠ "") = decide (text.toList ≠ []) := by
    simp
  rw [entries, splitComma, fields, List.map_map, List.filter_map,
    List.filter_map, List.map_map]
  simp only [Function.comp_def, kept, trimmed]

/-- The entries are the texts that are listed. -/
theorem entries_of_lists {args : Args} {texts : List String}
    (lists : Lists args.peers texts) : args.entries = texts := by
  obtain ⟨written, nonempty, isPeers, isTexts⟩ := lists
  have notBlank : isWhitespace ',' = false := by decide
  have injective : Function.Injective (List.map String.toList) :=
    List.map_injective_iff.mpr fun _ _ same => String.toList_injective same
  apply injective
  rw [toList_entries, isPeers, isTexts]
  exact Padded.fields_intercalate notBlank nonempty

end Args

/-! ## The derived ids -/

/-- The place of a node among the others, moved past the local id. -/
def idAt (nodeId i : Nat) : Nat :=
  if i + 1 ≥ nodeId then i + 2 else i + 1

theorem toNat_derivedId {nodeId : UInt32} {i : Nat}
    (fits : i + 2 < 2 ^ 32) : (derivedId nodeId i).toNat = idAt nodeId.toNat i := by
  have place : (UInt32.ofNat i + 1).toNat = i + 1 := by
    rw [UInt32.toNat_add, UInt32.toNat_ofNat']
    simp only [UInt32.reduceToNat]
    omega
  have next : (UInt32.ofNat i + 2).toNat = i + 2 := by
    rw [UInt32.toNat_add, UInt32.toNat_ofNat']
    simp only [UInt32.reduceToNat]
    omega
  have order : UInt32.ofNat i + 1 ≥ nodeId ↔ i + 1 ≥ nodeId.toNat := by
    rw [ge_iff_le, UInt32.le_iff_toNat_le, place]
  by_cases past : i + 1 ≥ nodeId.toNat
  · rw [derivedId, if_pos (order.mpr past), next, idAt, if_pos past]
  · rw [derivedId, if_neg (fun above => past (order.mp above)), place, idAt,
      if_neg past]

theorem idAt_ne (nodeId i : Nat) : idAt nodeId i ≠ nodeId := by
  unfold idAt
  split
  · omega
  · omega

theorem idAt_strictMono {nodeId i j : Nat} (before : i < j) :
    idAt nodeId i < idAt nodeId j := by
  unfold idAt
  split
  · rw [if_pos (by omega)]
    omega
  · split
    · omega
    · omega

theorem mem_otherIds {size nodeId id : Nat} :
    id ∈ otherIds size nodeId ↔ 1 ≤ id ∧ id ≤ size ∧ id ≠ nodeId := by
  simp only [otherIds, List.mem_filter, List.mem_range'_1, decide_eq_true_eq]
  omega

/-- The other ids, by their places. -/
theorem otherIds_eq {size nodeId : Nat} (positive : 1 ≤ nodeId)
    (member : nodeId ≤ size) :
    otherIds size nodeId = (List.range (size - 1)).map (idAt nodeId) := by
  have leftIncreasing : (otherIds size nodeId).Pairwise (· < ·) :=
    List.Pairwise.filter _ List.pairwise_lt_range'
  have rightIncreasing :
      ((List.range (size - 1)).map (idAt nodeId)).Pairwise (· < ·) := by
    rw [List.pairwise_map]
    exact List.pairwise_lt_range.imp idAt_strictMono
  have sameMembers (id : Nat) :
      id ∈ otherIds size nodeId ↔
        id ∈ (List.range (size - 1)).map (idAt nodeId) := by
    rw [mem_otherIds, List.mem_map]
    constructor
    · rintro ⟨low, high, different⟩
      by_cases before : id < nodeId
      · refine ⟨id - 1, List.mem_range.mpr (by omega), ?_⟩
        rw [idAt, if_neg (by omega)]
        omega
      · refine ⟨id - 2, List.mem_range.mpr (by omega), ?_⟩
        rw [idAt, if_pos (by omega)]
        omega
    · rintro ⟨i, inRange, rfl⟩
      have bound := List.mem_range.mp inRange
      refine ⟨?_, ?_, idAt_ne nodeId i⟩
      · unfold idAt
        split
        · omega
        · omega
      · unfold idAt
        split
        · omega
        · omega
  have distinct {ids : List Nat} (increasing : ids.Pairwise (· < ·)) :
      ids.Nodup :=
    increasing.imp Nat.ne_of_lt
  have perm := (List.perm_ext_iff_of_nodup (distinct leftIncreasing)
    (distinct rightIncreasing)).mpr sameMembers
  exact perm.eq_of_pairwise
    (fun _ _ _ _ first second => absurd first (Nat.lt_asymm second))
    leftIncreasing rightIncreasing

theorem nodeName_injective {first second : Nat}
    (same : nodeName first = nodeName second) : first = second := by
  have texts (id : Nat) :
      (nodeName id).toList = "node-".toList ++ Nat.toDigits 10 id := by
    rw [nodeName, String.toList_append]
    exact congrArg ("node-".toList ++ ·) Nat.toList_repr
  have sameTexts := congrArg String.toList same
  rw [texts, texts] at sameTexts
  have sameDigits : Nat.toDigits 10 first = Nat.toDigits 10 second :=
    List.append_cancel_left sameTexts
  have read (id : Nat) : Nat.ofDigitChars 10 (Nat.toDigits 10 id) 0 = id :=
    Nat.ofDigitChars_ten_toDigits
  rw [← read first, sameDigits, read second]

/-! ## Rings and pools -/

namespace ConsistentHashRing

/-- Nodes with new names are listed in the order in which they are added. -/
theorem nodes_foldl_addNode (hash : String → UInt64) {names : List String} :
    ∀ {routing : ConsistentHashRing},
      names.Nodup →
      (∀ name, name ∈ names → name ∉ routing.nodes) →
      (names.foldl (fun ring n => ring.addNode hash n) routing).nodes =
        routing.nodes ++ names := by
  induction names with
  | nil =>
      intro routing _ _
      exact (List.append_nil _).symm
  | cons name rest inductionHypothesis =>
      intro routing distinct new
      obtain ⟨notLater, restDistinct⟩ := List.nodup_cons.mp distinct
      have absent : routing.nodes.any (· == name) = false := by
        apply List.any_eq_false.mpr
        intro other member same
        rw [beq_iff_eq] at same
        exact new name List.mem_cons_self (same ▸ member)
      have added : (routing.addNode hash name).nodes =
          routing.nodes ++ [name] := by
        simp [addNode, absent]
      have newRest (other : String) (member : other ∈ rest) :
          other ∉ (routing.addNode hash name).nodes := by
        rw [added]
        intro listed
        rcases List.mem_append.mp listed with before | here
        · exact new other (List.mem_cons_of_mem _ member) before
        · rw [List.mem_singleton] at here
          exact notLater (here ▸ member)
      rw [List.foldl_cons, inductionHypothesis restDistinct newRest, added,
        List.append_assoc, List.singleton_append]

end ConsistentHashRing

/-- A pool holds only what it has been filled with. -/
theorem mem_of_lookup_fill {Addr : Type} (connects : String × Addr → Bool)
    {name : String} {addr : Addr} {pairs : List (String × Addr)} :
    ∀ {pool : AList fun _ : String => Addr},
      (pairs.foldl
          (fun map pair =>
            if connects pair then map.insert pair.1 pair.2 else map)
          pool).lookup name = some addr →
      (name, addr) ∈ pairs ∨ pool.lookup name = some addr := by
  induction pairs with
  | nil =>
      intro pool found
      exact Or.inr found
  | cons pair rest inductionHypothesis =>
      intro pool found
      rw [List.foldl_cons] at found
      rcases inductionHypothesis found with later | here
      · exact Or.inl (List.mem_cons_of_mem _ later)
      · by_cases connected : connects pair = true
        · rw [if_pos connected] at here
          by_cases same : name = pair.1
          · subst same
            rw [AList.lookup_insert] at here
            cases here
            exact Or.inl List.mem_cons_self
          · rw [AList.lookup_insert_ne same] at here
            exact Or.inr here
        · rw [if_neg connected] at here
          exact Or.inr here

/-! ## Coherent names -/

section

variable {Addr : Type} (parse : String → Option Addr) (address : Nat → String)

/-- The peers whose entry parses, each with the name of its node. -/
def namedPeers (ids : List Nat) : List (String × Addr) :=
  ids.filterMap fun id =>
    (parse (address id)).map fun addr => (nodeName id, addr)

/-- Every address that is kept goes with the name of its node, in the ring and in
the pool, and no peer has the local name. -/
structure NamedCoherently (hash : String → UInt64)
    (connects : String × Addr → Bool) (ids : List Nat) (args : Args) :
    Prop where
  pairs : args.peerPairs parse = namedPeers parse address ids
  ring : (args.ring parse hash).nodes =
    args.localNodeName :: (namedPeers parse address ids).map Prod.fst
  pool : ∀ name addr,
    (args.peersMap parse connects).lookup name = some addr →
    (name, addr) ∈ namedPeers parse address ids
  apart : args.localNodeName ∉ args.peerNodeNames parse

variable {parse address}

theorem map_fst_namedPeers (ids : List Nat) :
    (namedPeers parse address ids).map Prod.fst =
      (ids.filter fun id => (parse (address id)).isSome).map nodeName := by
  induction ids with
  | nil => rfl
  | cons id rest inductionHypothesis =>
      cases parsed : parse (address id) with
      | none =>
          simpa [namedPeers, parsed] using inductionHypothesis
      | some addr =>
          simpa [namedPeers, parsed] using inductionHypothesis

theorem map_snd_namedPeers (ids : List Nat) :
    (namedPeers parse address ids).map Prod.snd =
      (ids.map address).filterMap parse := by
  induction ids with
  | nil => rfl
  | cons id rest inductionHypothesis =>
      cases parsed : parse (address id) with
      | none =>
          simpa [namedPeers, parsed] using inductionHypothesis
      | some addr =>
          simpa [namedPeers, parsed] using inductionHypothesis

/-- The names that `main` gives are those of the first other nodes. -/
theorem peerNodeNames_eq {size : UInt32} {args : Args}
    (positive : 1 ≤ args.nodeId.toNat) (member : args.nodeId ≤ size)
    (lists : Lists args.peers
      ((otherIds size.toNat args.nodeId.toNat).map address)) :
    args.peerNodeNames parse =
      ((otherIds size.toNat args.nodeId.toNat).take
        (args.parsedPeers parse).length).map nodeName := by
  have isMember : args.nodeId.toNat ≤ size.toNat :=
    UInt32.le_iff_toNat_le.mp member
  have fits : size.toNat < 2 ^ 32 := size.toNat_lt
  have others := otherIds_eq positive isMember
  have few : (args.parsedPeers parse).length ≤ size.toNat - 1 := by
    rw [Args.parsedPeers, Args.entries_of_lists lists, others]
    refine (List.length_filterMap_le _ _).trans ?_
    simp
  rw [others, ← List.map_take, List.take_range, Nat.min_eq_left few,
    List.map_map, Args.peerNodeNames, List.mapIdx_eq_iff]
  intro i
  by_cases inside : i < (args.parsedPeers parse).length
  · have derived : (derivedId args.nodeId i).toNat =
        idAt args.nodeId.toNat i :=
      toNat_derivedId (by omega)
    simp [inside, derived]
  · simp [inside]

/-- The names are distinct, and none is the local one. -/
theorem names_distinct (parse : String → Option Addr) {size : UInt32}
    {args : Args}
    (positive : 1 ≤ args.nodeId.toNat) (member : args.nodeId ≤ size)
    (lists : Lists args.peers
      ((otherIds size.toNat args.nodeId.toNat).map address)) :
    (args.peerNodeNames parse).Nodup ∧
      args.localNodeName ∉ args.peerNodeNames parse := by
  rw [peerNodeNames_eq positive member lists]
  have distinct : (otherIds size.toNat args.nodeId.toNat).Nodup :=
    List.Nodup.filter _ List.nodup_range'
  refine ⟨?_, ?_⟩
  · exact (distinct.sublist (List.take_sublist _ _)).map
      fun _ _ same => nodeName_injective same
  · intro named
    obtain ⟨id, taken, same⟩ := List.mem_map.mp named
    have other := mem_otherIds.mp (List.mem_of_mem_take taken)
    exact other.2.2 (nodeName_injective same)

theorem ring_nodes_eq (hash : String → UInt64) {size : UInt32} {args : Args}
    (positive : 1 ≤ args.nodeId.toNat) (member : args.nodeId ≤ size)
    (lists : Lists args.peers
      ((otherIds size.toNat args.nodeId.toNat).map address)) :
    (args.ring parse hash).nodes =
      args.localNodeName :: args.peerNodeNames parse := by
  obtain ⟨distinct, apart⟩ := names_distinct parse positive member lists
  have start :
      ((ConsistentHashRing.new 150).addNode hash args.localNodeName).nodes =
        [args.localNodeName] :=
    rfl
  rw [Args.ring, ConsistentHashRing.nodes_foldl_addNode hash distinct, start]
  · rfl
  · intro name named isLocal
    rw [start, List.mem_singleton] at isLocal
    exact apart (isLocal ▸ named)

/-- The pairs are right when the names are. -/
theorem peerPairs_eq_iff {args : Args} {ids : List Nat}
    (lists : Lists args.peers (ids.map address))
    (sameLength :
      (args.peerNodeNames parse).length = (args.parsedPeers parse).length) :
    args.peerPairs parse = namedPeers parse address ids ↔
      args.peerNodeNames parse =
        (ids.filter fun id => (parse (address id)).isSome).map nodeName := by
  have addresses : args.parsedPeers parse =
      (namedPeers parse address ids).map Prod.snd := by
    rw [map_snd_namedPeers, Args.parsedPeers, Args.entries_of_lists lists]
  rw [← map_fst_namedPeers]
  constructor
  · intro same
    rw [← same, Args.peerPairs, List.map_fst_zip (Nat.le_of_eq sameLength)]
  · intro same
    exact (List.zip_of_prod same.symm addresses.symm).symm

theorem length_parsedPeers {args : Args} {ids : List Nat}
    (lists : Lists args.peers (ids.map address)) :
    (args.parsedPeers parse).length =
      (ids.filter fun id => (parse (address id)).isSome).length := by
  have byName : ((namedPeers parse address ids).map Prod.fst).length =
      ((ids.filter fun id => (parse (address id)).isSome).map
        nodeName).length :=
    congrArg List.length (map_fst_namedPeers ids)
  rw [List.length_map, List.length_map] at byName
  rw [Args.parsedPeers, Args.entries_of_lists lists, ← map_snd_namedPeers,
    List.length_map, byName]

/-- Every address that is kept goes with the name of its node if and only if no
entry that does not parse comes before one that does. -/
theorem peers_named_iff (hash : String → UInt64)
    (connects : String × Addr → Bool) {size : UInt32} {args : Args}
    (positive : 1 ≤ args.nodeId) (member : args.nodeId ≤ size)
    (lists : Lists args.peers
      ((otherIds size.toNat args.nodeId.toNat).map address)) :
    NamedCoherently parse address hash connects
        (otherIds size.toNat args.nodeId.toNat) args ↔
      (otherIds size.toNat args.nodeId.toNat).Pairwise fun earlier later =>
        (parse (address later)).isSome = true →
          (parse (address earlier)).isSome = true := by
  have atLeastOne : 1 ≤ args.nodeId.toNat :=
    UInt32.le_iff_toNat_le.mp positive
  have sameLength :
      (args.peerNodeNames parse).length = (args.parsedPeers parse).length := by
    rw [Args.peerNodeNames, List.length_mapIdx]
  have injective : Function.Injective (List.map nodeName) :=
    List.map_injective_iff.mpr fun _ _ same => nodeName_injective same
  have pairsIff :
      args.peerPairs parse =
          namedPeers parse address (otherIds size.toNat args.nodeId.toNat) ↔
        (otherIds size.toNat args.nodeId.toNat).Pairwise fun earlier later =>
          (parse (address later)).isSome = true →
            (parse (address earlier)).isSome = true := by
    rw [peerPairs_eq_iff lists sameLength,
      peerNodeNames_eq atLeastOne member lists, length_parsedPeers lists,
      injective.eq_iff, ← filter_eq_take_iff]
    exact eq_comm
  constructor
  · intro coherent
    exact pairsIff.mp coherent.pairs
  · intro inOrder
    have pairs := pairsIff.mpr inOrder
    have isNames : args.peerNodeNames parse =
        (namedPeers parse address
          (otherIds size.toNat args.nodeId.toNat)).map Prod.fst := by
      rw [← pairs, Args.peerPairs,
        List.map_fst_zip (Nat.le_of_eq sameLength)]
    refine ⟨pairs, ?_, ?_, (names_distinct parse atLeastOne member lists).2⟩
    · rw [ring_nodes_eq hash atLeastOne member lists, isNames]
    · intro name addr found
      rcases mem_of_lookup_fill connects found with paired | before
      · rw [← pairs]
        exact paired
      · cases before

end

/-! ## Two lists -/

/-- The entry of a node whose address is the text, with blanks around it. -/
def listed (before text after : String)
    (blankBefore : ∀ c, c ∈ before.toList → isWhitespace c = true)
    (blankAfter : ∀ c, c ∈ after.toList → isWhitespace c = true)
    (tidy : Tidy ',' isWhitespace text.toList) : Padded ',' isWhitespace :=
  { before := before.toList
    content := text.toList
    after := after.toList
    blankBefore := blankBefore
    blankAfter := blankAfter
    tidy := tidy }

theorem tidy_of_ends {text : String} {first last : Char}
    (whole : ',' ∉ text.toList) (isFirst : text.toList.head? = some first)
    (isLast : text.toList.getLast? = some last)
    (kept : isWhitespace first = false ∧ isWhitespace last = false) :
    Tidy ',' isWhitespace text.toList where
  whole := whole
  first := by
    intro c isHead
    rw [isFirst] at isHead
    cases isHead
    exact kept.1
  last := by
    intro c isEnd
    rw [isLast] at isEnd
    cases isEnd
    exact kept.2

/-- The address of node `j` in the two lists. -/
def addressOf (host : String) (j : Nat) : String :=
  if j = 2 then host else "10.0.0.3:50051"

/-- The list of node 1 in a cluster of three, node 2 being given by its address or
by a host name. -/
theorem lists_two_peers :
    Lists " 10.0.0.2:50051 ,,10.0.0.3:50051"
        ["10.0.0.2:50051", "10.0.0.3:50051"] ∧
      Lists "node2:50051,10.0.0.3:50051"
        ["node2:50051", "10.0.0.3:50051"] := by
  have second : Tidy ',' isWhitespace "10.0.0.2:50051".toList :=
    tidy_of_ends (by decide) rfl rfl ⟨by decide, by decide⟩
  have host : Tidy ',' isWhitespace "node2:50051".toList :=
    tidy_of_ends (by decide) rfl rfl ⟨by decide, by decide⟩
  have third : Tidy ',' isWhitespace "10.0.0.3:50051".toList :=
    tidy_of_ends (by decide) rfl rfl ⟨by decide, by decide⟩
  have nothing : Tidy ',' isWhitespace "".toList :=
    ⟨by decide, fun _ isHead => (by cases isHead),
      fun _ isEnd => (by cases isEnd)⟩
  have noBlank : ∀ c ∈ "".toList, isWhitespace c = true :=
    fun _ member => (by cases member)
  have oneBlank : ∀ c ∈ " ".toList, isWhitespace c = true :=
    List.forall_mem_singleton.mpr rfl
  refine ⟨?_, ?_⟩
  · exact
      ⟨[listed " " "10.0.0.2:50051" " " oneBlank oneBlank second,
          listed "" "" "" noBlank noBlank nothing,
          listed "" "10.0.0.3:50051" "" noBlank noBlank third],
        by simp, rfl, rfl⟩
  · exact
      ⟨[listed "" "node2:50051" "" noBlank noBlank host,
          listed "" "10.0.0.3:50051" "" noBlank noBlank third],
        by simp, rfl, rfl⟩

/-- Both addresses parse, whatever they parse to. -/
theorem peers_named_two_peers :
    NamedCoherently some (addressOf "10.0.0.2:50051") (fun _ => 0)
      (fun _ => true) (otherIds 3 1)
      { nodeId := 1, peers := " 10.0.0.2:50051 ,,10.0.0.3:50051" } :=
  (@peers_named_iff String some (addressOf "10.0.0.2:50051") (fun _ => 0)
    (fun _ => true) 3
    { nodeId := 1, peers := " 10.0.0.2:50051 ,,10.0.0.3:50051" }
    (by decide) (by decide) lists_two_peers.1).mpr (by decide)

/-- The host name of node 2 does not parse as a socket address, so node 3 is taken
for node 2. -/
theorem dropped_entry_shifts_names :
    Lists "node2:50051,10.0.0.3:50051"
        ((otherIds 3 1).map (addressOf "node2:50051")) ∧
      ¬ NamedCoherently
        (fun text => if text = "node2:50051" then none else some text)
        (addressOf "node2:50051") (fun _ => 0) (fun _ => true) (otherIds 3 1)
        { nodeId := 1, peers := "node2:50051,10.0.0.3:50051" } := by
  refine ⟨lists_two_peers.2, ?_⟩
  intro coherent
  exact absurd coherent.pairs (by decide +kernel)

end HautePerformance.KvDistributed
