import Mathlib.Algebra.GroupWithZero.Nat
import Mathlib.Data.List.Nodup
import Mathlib.Data.List.Lattice
import OnDemandRouting.Model.Network

/-!
# Topologies from wiring plans

A plan lists the segments as lists of nodes.  Every node gets an interface `eth0`
with its canonical address, which is attached to nothing, and one further
interface per segment it is on.
-/

namespace OnDemandRouting.Model

/-- Which of `k` nodes share a segment, and the canonical addresses. -/
structure Wiring (k : Nat) where
  segs : List (List (Fin k))
  ip : Fin k → Ip
  segs_nodup : ∀ seg ∈ segs, seg.Nodup
  ip_inj : ∀ n m, ip n = ip m → n = m
  size_lt : k < 2 ^ 48 - 1

namespace Wiring

variable {k : Nat} (w : Wiring k)

/-- The hardware address of all interfaces of a node. -/
def mac (n : Fin k) : Mac := BitVec.ofNat 48 n

/-- The interface index of a node on segment number `i`. -/
def index (i : Nat) : Int := i + 3

/-- The record of the interface on segment number `i`. -/
def record (n : Fin k) (i : Nat) : HwaInfo where
  ifName := "eth" ++ toString (i + 1)
  ifHaddr := mac n
  ifIndex := index i
  ipAddr := "192.168.1.1"

/-- The interface list of a node. -/
def hwa (n : Fin k) : List HwaInfo :=
  { ifName := "eth0", ifHaddr := mac n, ifIndex := 2, ipAddr := w.ip n } ::
    (w.segs.zipIdx.filter fun x => decide (n ∈ x.1)).map fun x => record n x.2

/-- The segments with their interface indices. -/
def segments : List (List (Fin k × Int)) :=
  w.segs.zipIdx.map fun x => x.1.map fun n => (n, index x.2)

variable {w} {n : Fin k} {r : HwaInfo}

theorem mac_of_mem_hwa (hr : r ∈ w.hwa n) : r.ifHaddr = mac n := by
  rcases List.mem_cons.mp hr with rfl | hr
  · rfl
  · obtain ⟨x, _, rfl⟩ := List.mem_map.mp hr
    rfl

theorem mac_inj (w : Wiring k) {n m : Fin k} (h : mac n = mac m) : n = m := by
  have hk := w.size_lt
  have hval := congrArg BitVec.toNat h
  simp only [mac, BitVec.toNat_ofNat] at hval
  rw [Nat.mod_eq_of_lt (by omega), Nat.mod_eq_of_lt (by omega)] at hval
  exact Fin.ext hval

theorem mac_ne_broadcast (w : Wiring k) (n : Fin k) : mac n ≠ broadcastMac := by
  intro h
  have hk := w.size_lt
  have hval := congrArg BitVec.toNat h
  simp only [mac, broadcastMac, BitVec.toNat_ofNat] at hval
  rw [Nat.mod_eq_of_lt (by omega)] at hval
  have hlast : (n : Nat) = 2 ^ 48 - 1 := by simpa using hval
  omega

theorem segments_nodup (w : Wiring k) : w.segments.flatten.Nodup := by
  rw [segments, List.nodup_flatten]
  constructor
  · intro seg hseg
    obtain ⟨x, hx, rfl⟩ := List.mem_map.mp hseg
    have hnodup := w.segs_nodup x.1 (List.fst_mem_of_mem_zipIdx hx)
    exact hnodup.map fun n m h => (Prod.ext_iff.mp h).1
  · rw [List.pairwise_map]
    -- two segments differ in their number, and the number is in the interface index
    have hnum : w.segs.zipIdx.Pairwise fun x y => x.2 ≠ y.2 := by
      rw [← List.pairwise_map, ← List.nodup_iff_pairwise_ne, List.zipIdx_map_snd]
      exact List.nodup_range'
    refine hnum.imp fun {x y} hne q hq hq' => ?_
    obtain ⟨n, _, rfl⟩ := List.mem_map.mp hq
    obtain ⟨m, _, hm⟩ := List.mem_map.mp hq'
    have hindex := (Prod.ext_iff.mp hm).2
    simp only [index] at hindex
    omega

theorem getHwaddrFromInt_hwa {i : Int} {mac' : Mac}
    (h : getHwaddrFromInt i (w.hwa n) = some mac') : mac' = mac n := by
  obtain ⟨r, hr, _, rfl⟩ := getHwaddrFromInt_mem h
  exact mac_of_mem_hwa hr

theorem endpoint_record {q : Fin k × Int} (hq : q ∈ w.segments.flatten) :
    ∃ r ∈ w.hwa q.1, r.ifIndex = q.2 := by
  obtain ⟨seg, hseg, hq⟩ := List.mem_flatten.mp hq
  obtain ⟨x, hx, rfl⟩ := List.mem_map.mp hseg
  obtain ⟨n, hn, rfl⟩ := List.mem_map.mp hq
  refine ⟨record n x.2, List.mem_cons_of_mem _ ?_, rfl⟩
  exact List.mem_map.mpr ⟨x, List.mem_filter.mpr ⟨hx, by simpa using hn⟩, rfl⟩

theorem getHwaddrFromInt_endpoint {q : Fin k × Int} (hq : q ∈ w.segments.flatten) :
    getHwaddrFromInt q.2 (w.hwa q.1) = some (mac q.1) := by
  obtain ⟨r, hr, hindex⟩ := endpoint_record hq
  obtain ⟨mac', hmac⟩ := getHwaddrFromInt_of_mem hr hindex
  rw [hmac, getHwaddrFromInt_hwa hmac]

/-- The topology of a plan, all nodes with the same staleness. -/
def topology (w : Wiring k) (staleParam : Int) (hstale : 0 ≤ staleParam) :
    Topology (Fin k) where
  cfg n :=
    { hwa := w.hwa n
      staleParam := staleParam
      selfIp := w.ip n
      stale_nonneg := hstale
      self_ip_eq := by
        have heth0 : baseName "eth0" = "eth0" := by decide
        simp [hwa, getSelfIp, heth0] }
  segments := w.segments
  endpoints_nodup := w.segments_nodup
  endpoint_hwa := fun _ => endpoint_record
  hwa_haddr := by
    intro n r hr r' hr' _
    rw [mac_of_mem_hwa hr, mac_of_mem_hwa hr']
  ifIndex_pos := by
    intro n r hr
    rcases List.mem_cons.mp hr with rfl | hr
    · exact (by decide : (0 : Int) < 2)
    · obtain ⟨x, _, rfl⟩ := List.mem_map.mp hr
      simp only [record, index]
      omega
  haddr_ne_broadcast := by
    intro n r hr
    rw [mac_of_mem_hwa hr]
    exact w.mac_ne_broadcast n
  haddr_inj := by
    intro seg hseg q hq q' hq' h
    rw [getHwaddrFromInt_endpoint (List.mem_flatten.mpr ⟨seg, hseg, hq⟩),
      getHwaddrFromInt_endpoint (List.mem_flatten.mpr ⟨seg, hseg, hq'⟩)] at h
    have hnode : q.1 = q'.1 := w.mac_inj (Option.some.inj h)
    obtain ⟨x, _, rfl⟩ := List.mem_map.mp hseg
    obtain ⟨n, _, rfl⟩ := List.mem_map.mp hq
    obtain ⟨m, _, rfl⟩ := List.mem_map.mp hq'
    exact Prod.ext hnode rfl
  selfIp_inj := w.ip_inj

end Wiring

/-! ## Small networks

Each with the runs on it that several modules look at. -/

/-- An application message for the server at `ip`. -/
def messageFor (ip : Ip) : SendParams where
  destip := ip
  filename := "/tmp/client"
  msg := "time?"
  destport := servPort
  routeDiscFlag := 0

/-- Named, so that the nodes of a network of three are the same terms in every module. -/
instance neZeroThree : NeZero 3 := Nat.instNeZeroSucc

/-- Three nodes in a line, with a staleness of five seconds. -/
def lineNet : Topology (Fin 3) :=
  Wiring.topology
    { segs := [[0, 1], [1, 2]]
      ip := fun n => ["10.0.0.1", "10.0.0.2", "10.0.0.3"].get n
      segs_nodup := by decide
      ip_inj := by decide
      size_lt := by decide } 5 (by decide)

/-- The first node of the line discovers the last and releases its message. -/
def lineDiscovery : List (Action (Fin 3)) :=
  [.request 0 (messageFor "10.0.0.3") (.reliable 0), .deliver 0 (.reliable 0),
    .deliver 0 (.reliable 0), .deliver 0 (.reliable 0), .deliver 0 (.reliable 4)]

/-- After the discovery the first node sends again, along its route, when the middle
node's routes have gone stale.  The middle node parks that message, asks for the
last node and releases the message. -/
def lineParkedRun : List (Action (Fin 3)) :=
  lineDiscovery ++
    [.request 0 (messageFor "10.0.0.3") (.reliable 5), .deliver 1 (.reliable 5),
      .deliver 1 (.reliable 5), .deliver 1 (.reliable 5), .deliver 1 (.reliable 5)]

/-- The discovery of the line to its end. -/
def lineComplete : List (Action (Fin 3)) :=
  lineDiscovery ++ [.deliver 0 (.reliable 4), .deliver 0 (.reliable 4)]

/-- Three nodes around node 1. -/
def starNet : Topology (Fin 4) :=
  Wiring.topology
    { segs := [[0, 1], [1, 2], [1, 3]]
      ip := fun n => ["10.0.0.1", "10.0.0.2", "10.0.0.3", "10.0.0.4"].get n
      segs_nodup := by decide
      ip_inj := by decide
      size_lt := by decide } 5 (by decide)

/-- A request of node 0 for node 3 is on its way from the middle to node 2 when the
two learn node 3 from a request of its own.  Node 2, whose counter is ahead, then
answers the first request with a higher id than node 3 has used. -/
def starAnswer : List (Action (Fin 4)) :=
  [.request 2 (messageFor "10.0.0.1") (.reliable 0),
    .request 0 (messageFor "10.0.0.4") (.reliable 0), .deliver 1 (.reliable 0),
    .request 3 (messageFor "10.0.0.1") (.reliable 0), .deliver 3 (.reliable 0),
    .deliver 5 (.reliable 0), .deliver 1 (.reliable 0), .deliver 4 (.reliable 0)]

/-- A triangle with a fourth node behind node 2. -/
def triangleNet : Topology (Fin 4) :=
  Wiring.topology
    { segs := [[0, 1], [1, 2], [0, 2], [2, 3]]
      ip := fun n => ["10.0.0.1", "10.0.0.2", "10.0.0.3", "10.0.0.4"].get n
      segs_nodup := by decide
      ip_inj := by decide
      size_lt := by decide } 5 (by decide)

/-- A request of node 0 goes around the triangle and is relayed by its own source. -/
def triangleRound : List (Action (Fin 4)) :=
  [.request 0 (messageFor "10.0.0.4") (.reliable 0), .deliver 0 (.reliable 0),
    .deliver 1 (.reliable 0), .deliver 1 (.reliable 0)]

/-- Three nodes, each linked to both others, with two links between nodes 0 and 1. -/
def doubleNet : Topology (Fin 3) :=
  Wiring.topology
    { segs := [[0, 1], [0, 1], [1, 2], [0, 2]]
      ip := fun n => ["10.0.0.1", "10.0.0.2", "10.0.0.3"].get n
      segs_nodup := by decide
      ip_inj := by decide
      size_lt := by decide } 5 (by decide)

end OnDemandRouting.Model
