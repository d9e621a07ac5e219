import Mathlib.Algebra.Group.Int.Defs
import Mathlib.Algebra.Group.Nat.Defs
import Mathlib.Data.Int.Init
import Mathlib.Tactic.SplitIfs

/-!
# ODR frames and their byte order

The frame header of `odr.h` with the conversions of `odr_functions.c`.  A C
`int` is an `Int`.  `htonl` swaps the four bytes of its two's complement form;
outside the 32-bit range, where no C `int` lies and the program would already
have overflowed, it is the identity.
-/

namespace OnDemandRouting.Model

/-- Canonical addresses are dotted-quad strings, compared by `strcmp`. -/
abbrev Ip := String

/-- A six-byte hardware address. -/
abbrev Mac := BitVec 48

/-- The destination address with all ones. -/
def broadcastMac : Mac := BitVec.allOnes 48

/-- `__SERV_PORT`. -/
def servPort : Int := 5500

/-- `PAYLOAD_SIZE`. -/
def payloadSize : Int := 1440

/-- The four frame types. -/
inductive FrameType
  | rreq
  | rrep
  | data
  | asent
  deriving DecidableEq

/-- The constants `__RREQ`, `__RREP`, `__DATA` and `__ASENT`. -/
def FrameType.toInt : FrameType → Int
  | .rreq => 1
  | .rrep => 2
  | .data => 3
  | .asent => 4

/-- The `switch` on `frame_type`; `none` is its `default` branch. -/
def FrameType.ofInt (n : Int) : Option FrameType :=
  if n = 1 then some .rreq
  else if n = 2 then some .rrep
  else if n = 3 then some .data
  else if n = 4 then some .asent
  else none

/-- `odr_frame_t`. -/
structure OdrFrame where
  frameType : Int
  broadcastId : Int
  hopCount : Int
  payloadLen : Int
  routeDiscFlag : Int
  srcPort : Int
  dstPort : Int
  destIp : Ip
  srcIp : Ip
  payload : String
  deriving DecidableEq

/-! ## Byte order -/

/-- Reverse the four bytes of a 32-bit word. -/
def byteSwap (n : Nat) : Nat :=
  n % 256 * 2 ^ 24 + n / 2 ^ 8 % 256 * 2 ^ 16 + n / 2 ^ 16 % 256 * 2 ^ 8 + n / 2 ^ 24 % 256

/-- The `int` with the given two's complement word. -/
def signedOfWord (n : Nat) : Int := if n < 2 ^ 31 then n else n - 2 ^ 32

/-- Host to network order on a little-endian machine. -/
def htonl (x : Int) : Int :=
  if -2 ^ 31 ≤ x ∧ x < 2 ^ 31 then signedOfWord (byteSwap (x % 2 ^ 32).toNat) else x

/-- Network to host order: the same swap. -/
def ntohl (x : Int) : Int := htonl x

/-- Convert every integer of a frame with `hton`. -/
def convertOrder (hton : Int → Int) (f : OdrFrame) : OdrFrame :=
  { f with
    frameType := hton f.frameType
    broadcastId := hton f.broadcastId
    hopCount := hton f.hopCount
    payloadLen := hton f.payloadLen
    routeDiscFlag := hton f.routeDiscFlag
    srcPort := hton f.srcPort
    dstPort := hton f.dstPort }

/-- `convert_net_host_order`. -/
def convertNetHostOrder (f : OdrFrame) : OdrFrame := convertOrder ntohl f

/-- `convert_host_net_order`. -/
def convertHostNetOrder (f : OdrFrame) : OdrFrame := convertOrder htonl f

/-- `process_recvd_frame`: the frame behind the Ethernet header, in host order. -/
def processRecvdFrame (recvBuf : OdrFrame) : OdrFrame := convertNetHostOrder recvBuf

/-- `construct_odr` with `hton` for `htonl`: the frame is zeroed first, and only a DATA frame
gets the payload. -/
def constructOdrWith (hton : Int → Int)
    (type bid hopcount len rdiscFlag srcport dstport : Int) (dstip srcip : Ip)
    (payload : String) : OdrFrame where
  frameType := hton type
  hopCount := hton hopcount
  broadcastId := hton bid
  routeDiscFlag := hton rdiscFlag
  srcPort := hton srcport
  dstPort := hton dstport
  payloadLen := hton len
  destIp := dstip
  srcIp := srcip
  payload := if type = FrameType.data.toInt then payload else ""

/-- `construct_odr`. -/
def constructOdr (type bid hopcount len rdiscFlag srcport dstport : Int) (dstip srcip : Ip)
    (payload : String) : OdrFrame :=
  constructOdrWith htonl type bid hopcount len rdiscFlag srcport dstport dstip srcip payload

/-! ## What the daemon does with a frame -/

/-- The operations of the daemon on an `odr_frame_t`.  The senders and handlers are written
over them, once for every way to hold a frame: as the values of its fields, on a machine of
either byte order, or as bytes. -/
class FrameOps (Frame : Type) where
  /-- The values that are read from the fields. -/
  fields : Frame → OdrFrame
  /-- The assignment to `hop_count`. -/
  setHopCount : Int → Frame → Frame
  /-- `construct_odr`. -/
  constructOdr (type bid hopcount len rdiscFlag srcport dstport : Int) (dstip srcip : Ip)
    (payload : String) : Frame
  /-- `convert_net_host_order`. -/
  convertNetHostOrder : Frame → Frame
  /-- `convert_host_net_order`. -/
  convertHostNetOrder : Frame → Frame
  /-- `process_recvd_frame`. -/
  processRecvdFrame : Frame → Frame

/-- The frame as the values of its fields, with `hton` for `htonl` and `ntohl`: both reverse
the bytes of an `int` on a little-endian machine and do nothing on a big-endian one. -/
@[reducible] def frameOps (hton : Int → Int) : FrameOps OdrFrame where
  fields f := f
  setHopCount n f := { f with hopCount := n }
  constructOdr := constructOdrWith hton
  convertNetHostOrder := convertOrder hton
  convertHostNetOrder := convertOrder hton
  processRecvdFrame := convertOrder hton

@[default_instance] instance : FrameOps OdrFrame := frameOps htonl

section Ops

variable (f : OdrFrame)

@[simp] theorem fields_odrFrame : FrameOps.fields f = f := rfl

@[simp] theorem setHopCount_odrFrame (n : Int) :
    FrameOps.setHopCount n f = { f with hopCount := n } := rfl

@[simp] theorem processRecvdFrame_odrFrame :
    FrameOps.processRecvdFrame f = processRecvdFrame f := rfl

@[simp] theorem constructOdr_odrFrame (type bid hopcount len rdiscFlag srcport dstport : Int)
    (dstip srcip : Ip) (payload : String) :
    (FrameOps.constructOdr type bid hopcount len rdiscFlag srcport dstport dstip srcip payload :
        OdrFrame) =
      constructOdr type bid hopcount len rdiscFlag srcport dstport dstip srcip payload := rfl

end Ops

/-! ## The conversions are inverse to each other -/

theorem FrameType.ofInt_toInt (t : FrameType) : FrameType.ofInt t.toInt = some t := by
  cases t <;> rfl

theorem FrameType.toInt_of_ofInt {n : Int} {t : FrameType} (h : FrameType.ofInt n = some t) :
    n = t.toInt := by
  unfold FrameType.ofInt at h
  split_ifs at h with h1 h2 h3 h4 <;> simp at h <;> subst h
  · exact h1
  · exact h2
  · exact h3
  · exact h4

theorem FrameType.toInt_inj {t u : FrameType} (h : t.toInt = u.toInt) : t = u := by
  have hof := congrArg FrameType.ofInt h
  rw [FrameType.ofInt_toInt, FrameType.ofInt_toInt] at hof
  exact Option.some.inj hof

theorem byteSwap_lt (n : Nat) : byteSwap n < 2 ^ 32 := by
  unfold byteSwap
  omega

theorem byteSwap_bytes {a b c d : Nat} (ha : a < 256) (hb : b < 256) (hc : c < 256)
    (hd : d < 256) :
    byteSwap (a * 2 ^ 24 + b * 2 ^ 16 + c * 2 ^ 8 + d) =
      d * 2 ^ 24 + c * 2 ^ 16 + b * 2 ^ 8 + a := by
  unfold byteSwap
  omega

theorem byteSwap_byteSwap {n : Nat} (h : n < 2 ^ 32) : byteSwap (byteSwap n) = n := by
  have hswap := byteSwap_bytes (a := n % 256) (b := n / 2 ^ 8 % 256) (c := n / 2 ^ 16 % 256)
    (d := n / 2 ^ 24 % 256) (by omega) (by omega) (by omega) (by omega)
  calc byteSwap (byteSwap n)
      = n / 2 ^ 24 % 256 * 2 ^ 24 + n / 2 ^ 16 % 256 * 2 ^ 16 + n / 2 ^ 8 % 256 * 2 ^ 8
          + n % 256 := hswap
    _ = n := by omega

theorem signedOfWord_range {n : Nat} (h : n < 2 ^ 32) :
    -2 ^ 31 ≤ signedOfWord n ∧ signedOfWord n < 2 ^ 31 := by
  unfold signedOfWord
  split <;> omega

theorem word_signedOfWord {n : Nat} (h : n < 2 ^ 32) : (signedOfWord n % 2 ^ 32).toNat = n := by
  unfold signedOfWord
  split <;> omega

theorem signedOfWord_word {x : Int} (h : -2 ^ 31 ≤ x ∧ x < 2 ^ 31) :
    signedOfWord (x % 2 ^ 32).toNat = x := by
  unfold signedOfWord
  split <;> omega

theorem htonl_htonl (x : Int) : htonl (htonl x) = x := by
  by_cases h : -2 ^ 31 ≤ x ∧ x < 2 ^ 31
  · have hlt := byteSwap_lt (x % 2 ^ 32).toNat
    have hx : htonl x = signedOfWord (byteSwap (x % 2 ^ 32).toNat) := if_pos h
    rw [hx, htonl, if_pos (signedOfWord_range hlt), word_signedOfWord hlt,
      byteSwap_byteSwap (by omega), signedOfWord_word h]
  · have hx : htonl x = x := if_neg h
    rw [hx, hx]

@[simp] theorem ntohl_htonl (x : Int) : ntohl (htonl x) = x := htonl_htonl x

@[simp] theorem convertNetHostOrder_convertHostNetOrder (f : OdrFrame) :
    convertNetHostOrder (convertHostNetOrder f) = f := by
  simp [convertNetHostOrder, convertHostNetOrder, convertOrder]

/-- What a receiver reads from a frame that `construct_odr` built. -/
@[simp] theorem processRecvdFrame_constructOdr
    (type bid hopcount len rdiscFlag srcport dstport : Int) (dstip srcip : Ip)
    (payload : String) :
    processRecvdFrame
        (constructOdr type bid hopcount len rdiscFlag srcport dstport dstip srcip payload) =
      { frameType := type
        broadcastId := bid
        hopCount := hopcount
        payloadLen := len
        routeDiscFlag := rdiscFlag
        srcPort := srcport
        dstPort := dstport
        destIp := dstip
        srcIp := srcip
        payload := if type = FrameType.data.toInt then payload else "" } := by
  simp [processRecvdFrame, convertNetHostOrder, convertOrder, constructOdr, constructOdrWith]

end OnDemandRouting.Model
