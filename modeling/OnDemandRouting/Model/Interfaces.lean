import OnDemandRouting.Model.Frame

/-!
# Interface records

The list `get_hw_addrs` builds, one record per configured address, and the two
scans over it: `get_self_ip` and `get_hwaddr_from_int`.
-/

namespace OnDemandRouting.Model

/-- `struct hwa_info`, with the address in the text form `inet_ntop` gives. -/
structure HwaInfo where
  ifName : String
  ifHaddr : Mac
  ifIndex : Int
  ipAddr : Ip
  deriving DecidableEq

/-- `sscanf (name, "%[^:]", if_name)` into a zeroed buffer: an alias name is cut
at its colon. -/
def baseName (name : String) : String := String.ofList (name.toList.takeWhile (· ≠ ':'))

/-- `struct ifreq` as `SIOCGIFCONF` returns it: one for each configured address, an alias
under its own name. -/
structure IfReq where
  ifrName : String
  ifrAddr : Ip
  deriving DecidableEq

/-- What the kernel answers to `get_hw_addrs`: the configured addresses, and the hardware
address and index of the interface with a given name.  An index belongs to one interface. -/
structure IfConf where
  ifr : List IfReq
  hwaddr : String → Mac
  ifindex : String → Int
  ifindex_inj : ∀ a ∈ ifr, ∀ b ∈ ifr,
    ifindex (baseName a.ifrName) = ifindex (baseName b.ifrName) →
      baseName a.ifrName = baseName b.ifrName

/-- `get_hw_addrs`: a record for each address.  The name is cut at its colon before the
kernel is asked, so that an alias gets the index of its interface. -/
def getHwAddrs (conf : IfConf) : List HwaInfo :=
  conf.ifr.map fun item =>
    { ifName := item.ifrName
      ifHaddr := conf.hwaddr (baseName item.ifrName)
      ifIndex := conf.ifindex (baseName item.ifrName)
      ipAddr := item.ifrAddr }

/-- `get_self_ip`: the address of the first record whose base name is `eth0`. -/
def getSelfIp : List HwaInfo → Option Ip
  | [] => none
  | curr :: rest => if baseName curr.ifName = "eth0" then some curr.ipAddr else getSelfIp rest

/-- `get_hwaddr_from_int`: the hardware address of the first record with that index. -/
def getHwaddrFromInt (interfaceNo : Int) : List HwaInfo → Option Mac
  | [] => none
  | curr :: rest =>
      if curr.ifIndex = interfaceNo then some curr.ifHaddr else getHwaddrFromInt interfaceNo rest

/-- The test of `send_req_broadcast`: every interface but the loopback, `eth0` and
the one the packet came in on. -/
def floodsOn (recvdIntIndex : Int) (curr : HwaInfo) : Bool :=
  decide (baseName curr.ifName ≠ "lo" ∧ baseName curr.ifName ≠ "eth0" ∧
    curr.ifIndex ≠ recvdIntIndex)

/-- What a daemon is started with: its interfaces and a staleness that `main`
accepts.  A node has a canonical address, the one `get_self_ip` finds. -/
structure Config where
  hwa : List HwaInfo
  staleParam : Int
  selfIp : Ip
  stale_nonneg : 0 ≤ staleParam
  self_ip_eq : getSelfIp hwa = some selfIp

theorem getHwaddrFromInt_mem {i : Int} {hwa : List HwaInfo} {mac : Mac}
    (h : getHwaddrFromInt i hwa = some mac) : ∃ r ∈ hwa, r.ifIndex = i ∧ r.ifHaddr = mac := by
  induction hwa with
  | nil => simp [getHwaddrFromInt] at h
  | cons curr rest ih =>
      by_cases hcurr : curr.ifIndex = i
      · rw [getHwaddrFromInt, if_pos hcurr] at h
        exact ⟨curr, by simp, hcurr, by simpa using h⟩
      · rw [getHwaddrFromInt, if_neg hcurr] at h
        obtain ⟨r, hr, hindex, hmac⟩ := ih h
        exact ⟨r, by simp [hr], hindex, hmac⟩

theorem getHwaddrFromInt_of_mem {i : Int} {hwa : List HwaInfo} {r : HwaInfo}
    (hr : r ∈ hwa) (hi : r.ifIndex = i) : ∃ mac, getHwaddrFromInt i hwa = some mac := by
  induction hwa with
  | nil => simp at hr
  | cons curr rest ih =>
      by_cases hcurr : curr.ifIndex = i
      · exact ⟨curr.ifHaddr, by rw [getHwaddrFromInt, if_pos hcurr]⟩
      · rw [getHwaddrFromInt, if_neg hcurr]
        rcases List.mem_cons.mp hr with rfl | hr
        · exact absurd hi hcurr
        · exact ih hr

end OnDemandRouting.Model
