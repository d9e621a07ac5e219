import OnDemandRouting.Model.Send

/-!
# Copies of a broadcast on one interface

`send_req_broadcast` walks the records of `get_hw_addrs`, and there is one for each
configured address.  An interface with an alias has two of them under one index, and gets
two copies.
-/

namespace OnDemandRouting.Proofs

open OnDemandRouting.Lib
open OnDemandRouting.Model

/-- The flood is meant for the interface with this base name. -/
def Eligible (conf : IfConf) (recvdIntIndex : Int) (name : String) : Prop :=
  name ≠ "lo" ∧ name ≠ "eth0" ∧ conf.ifindex name ≠ recvdIntIndex

instance (conf : IfConf) (recvdIntIndex : Int) (name : String) :
    Decidable (Eligible conf recvdIntIndex name) :=
  inferInstanceAs (Decidable (_ ∧ _ ∧ _))

/-- Among the frames sent there is one for each interface the flood is meant for, and none
for another. -/
structure OnePerInterface (conf : IfConf) (recvdIntIndex : Int) (sent : List Transmission) :
    Prop where
  one : ∀ item ∈ conf.ifr, Eligible conf recvdIntIndex (baseName item.ifrName) →
    (sent.map Transmission.intIndex).count (conf.ifindex (baseName item.ifrName)) = 1
  only : ∀ t ∈ sent, ∃ item ∈ conf.ifr, Eligible conf recvdIntIndex (baseName item.ifrName) ∧
    t.intIndex = conf.ifindex (baseName item.ifrName)

section Broadcast

variable {conf : IfConf} {recvdIntIndex : Int}

/-- The base names of the records a broadcast goes to, in order. -/
def eligibleNames (conf : IfConf) (recvdIntIndex : Int) : List String :=
  (conf.ifr.map fun item => baseName item.ifrName).filter
    fun name => decide (Eligible conf recvdIntIndex name)

theorem mem_eligibleNames {name : String} :
    name ∈ eligibleNames conf recvdIntIndex ↔
      ∃ item ∈ conf.ifr, Eligible conf recvdIntIndex name ∧ baseName item.ifrName = name := by
  simp only [eligibleNames, List.mem_filter, List.mem_map, decide_eq_true_eq]
  constructor
  · rintro ⟨⟨item, hitem, rfl⟩, helig⟩
    exact ⟨item, hitem, helig, rfl⟩
  · rintro ⟨item, hitem, helig, rfl⟩
    exact ⟨⟨item, hitem, rfl⟩, helig⟩

/-- The interface indices of the frames are those of the records. -/
theorem map_intIndex_sendReqBroadcast (conf : IfConf)
    (recvdIntIndex broadId srcPort dstport hopcount rdiscFlag : Int) (dstip srcip : Ip)
    (payload : String) (asentFlag : Bool) :
    (sendReqBroadcast (getHwAddrs conf) recvdIntIndex broadId srcPort dstport hopcount rdiscFlag
      dstip srcip payload asentFlag).map Transmission.intIndex =
      (eligibleNames conf recvdIntIndex).map conf.ifindex := by
  simp only [sendReqBroadcast, getHwAddrs, eligibleNames, List.filter_map, List.map_map]
  rfl

/-- Different records of a broadcast with one index have one base name. -/
theorem nodup_map_ifindex_iff :
    ((eligibleNames conf recvdIntIndex).map conf.ifindex).Nodup ↔
      (eligibleNames conf recvdIntIndex).Nodup := by
  constructor
  · exact List.Nodup.of_map conf.ifindex
  · intro hnd
    refine hnd.map_on fun a ha b hb heq => ?_
    obtain ⟨x, hx, -, rfl⟩ := mem_eligibleNames.mp ha
    obtain ⟨y, hy, -, rfl⟩ := mem_eligibleNames.mp hb
    exact conf.ifindex_inj x hx y hy heq

/-- How many addresses an interface has is how often its name occurs. -/
theorem count_eligibleNames {name : String} (helig : Eligible conf recvdIntIndex name) :
    (eligibleNames conf recvdIntIndex).count name =
      (conf.ifr.filter fun item => decide (baseName item.ifrName = name)).length := by
  rw [eligibleNames, List.count_filter (by simpa using helig), List.count, List.countP_map,
    List.countP_eq_length_filter]
  rfl

theorem nodup_eligibleNames_iff :
    (eligibleNames conf recvdIntIndex).Nodup ↔
      ∀ name, Eligible conf recvdIntIndex name →
        (conf.ifr.filter fun item => decide (baseName item.ifrName = name)).length ≤ 1 := by
  rw [List.nodup_iff_count_le_one]
  constructor
  · intro hcount name helig
    rw [← count_eligibleNames helig]
    exact hcount name
  · intro hle name
    by_cases hname : name ∈ eligibleNames conf recvdIntIndex
    · obtain ⟨-, -, helig, -⟩ := mem_eligibleNames.mp hname
      rw [count_eligibleNames helig]
      exact hle name helig
    · rw [List.count_eq_zero_of_not_mem hname]
      exact Nat.zero_le 1

theorem onePerInterface_iff_nodup (conf : IfConf)
    (recvdIntIndex broadId srcPort dstport hopcount rdiscFlag : Int) (dstip srcip : Ip)
    (payload : String) (asentFlag : Bool) :
    OnePerInterface conf recvdIntIndex
      (sendReqBroadcast (getHwAddrs conf) recvdIntIndex broadId srcPort dstport hopcount rdiscFlag
        dstip srcip payload asentFlag) ↔
      ((eligibleNames conf recvdIntIndex).map conf.ifindex).Nodup := by
  rw [List.nodup_iff_count_eq_one]
  constructor
  · intro hone i hi
    obtain ⟨name, hname, rfl⟩ := List.mem_map.mp hi
    obtain ⟨item, hitem, helig, rfl⟩ := mem_eligibleNames.mp hname
    rw [← map_intIndex_sendReqBroadcast conf recvdIntIndex broadId srcPort dstport hopcount
      rdiscFlag dstip srcip payload asentFlag]
    exact hone.one item hitem helig
  · intro hcount
    constructor
    · intro item hitem helig
      rw [map_intIndex_sendReqBroadcast]
      exact hcount _ (List.mem_map_of_mem (mem_eligibleNames.mpr ⟨item, hitem, helig, rfl⟩))
    · intro t ht
      have hi := List.mem_map_of_mem (f := Transmission.intIndex) ht
      rw [map_intIndex_sendReqBroadcast] at hi
      obtain ⟨name, hname, heq⟩ := List.mem_map.mp hi
      obtain ⟨item, hitem, helig, rfl⟩ := mem_eligibleNames.mp hname
      exact ⟨item, hitem, helig, heq.symm⟩

end Broadcast

/-- When its sends go through, `send_req_broadcast` puts one frame on each interface it is
meant for exactly if none of them has more than one address. -/
theorem one_broadcast_per_interface_iff (conf : IfConf)
    (recvdIntIndex broadId srcPort dstport hopcount rdiscFlag : Int) (dstip srcip : Ip)
    (payload : String) (asentFlag : Bool) :
    (∀ env selfIp k, env.Succeeds → OnePerInterface conf recvdIntIndex
      (sendRawFrames env selfIp k
        (sendReqBroadcast (getHwAddrs conf) recvdIntIndex broadId srcPort dstport hopcount
          rdiscFlag dstip srcip payload asentFlag)).1) ↔
      ∀ name, Eligible conf recvdIntIndex name →
        (conf.ifr.filter fun item => decide (baseName item.ifrName = name)).length ≤ 1 := by
  rw [← nodup_eligibleNames_iff, ← nodup_map_ifindex_iff,
    ← onePerInterface_iff_nodup conf recvdIntIndex broadId srcPort dstport hopcount rdiscFlag
      dstip srcip payload asentFlag]
  constructor
  · intro hsent
    have hone := hsent (.reliable 0) srcip 0 (Env.reliable_succeeds 0)
    rwa [sendRawFrames_of_linksUp (Env.reliable_linksUp 0)] at hone
  · intro hplan env selfIp k henv
    rwa [sendRawFrames_of_linksUp henv.toLinksUp]

/-- A node with an alias on `eth1`. -/
def aliasConf : IfConf where
  ifr := [⟨"lo", "127.0.0.1"⟩, ⟨"eth0", "10.0.0.1"⟩, ⟨"eth1", "192.168.1.1"⟩,
    ⟨"eth1:1", "192.168.1.2"⟩]
  hwaddr := fun _ => 0
  ifindex := fun name => if name = "lo" then 1 else if name = "eth0" then 2 else 3
  ifindex_inj := by decide

/-- A request of this node leaves twice on `eth1`. -/
theorem alias_gets_second_copy :
    (sendRawFrames (.reliable 0) "10.0.0.1" 0
      (sendReqBroadcast (getHwAddrs aliasConf) (-1) 11 909 servPort 0 0 "10.0.0.9" "10.0.0.1"
        "" false)).1.map Transmission.intIndex = [3, 3] ∧
    ¬ OnePerInterface aliasConf (-1)
      (sendRawFrames (.reliable 0) "10.0.0.1" 0
        (sendReqBroadcast (getHwAddrs aliasConf) (-1) 11 909 servPort 0 0 "10.0.0.9" "10.0.0.1"
          "" false)).1 := by
  have htwo : (sendRawFrames (.reliable 0) "10.0.0.1" 0
      (sendReqBroadcast (getHwAddrs aliasConf) (-1) 11 909 servPort 0 0 "10.0.0.9" "10.0.0.1"
        "" false)).1.map Transmission.intIndex = [3, 3] := by decide +kernel
  refine ⟨htwo, fun hone => ?_⟩
  have hcount := hone.one ⟨"eth1", "192.168.1.1"⟩ (by simp [aliasConf]) (by decide)
  rw [htwo] at hcount
  exact absurd hcount (by decide)

end OnDemandRouting.Proofs
