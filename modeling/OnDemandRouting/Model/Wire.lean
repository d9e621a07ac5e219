import OnDemandRouting.Lib.Buffer
import OnDemandRouting.Model.Frame

/-!
# Frames as bytes

`odr_frame_t` as the 1500 bytes it occupies, and the functions that write and read it:
`construct_odr`, the two conversions, `send_raw_frame` and `process_recvd_frame`.  An
`int` is stored with its low byte first.  Assignments to fields and the calls of `strcpy`
and `memcpy` are copies into a buffer, and a string is read up to its first NUL.
-/

namespace OnDemandRouting.Model.Wire

open OnDemandRouting.Lib

/-! ## Integers and strings in memory -/

/-- The values of a C `int`. -/
def IsInt32 (x : Int) : Prop := -2 ^ 31 ≤ x ∧ x < 2 ^ 31

instance (x : Int) : Decidable (IsInt32 x) := inferInstanceAs (Decidable (_ ∧ _))

/-- The four bytes of an `int`. -/
def intBytes (x : Int) : List UInt8 :=
  let n := (x % 2 ^ 32).toNat
  [UInt8.ofNat n, UInt8.ofNat (n / 2 ^ 8), UInt8.ofNat (n / 2 ^ 16), UInt8.ofNat (n / 2 ^ 24)]

/-- The `int` with the given bytes. -/
def intOfBytes : List UInt8 → Int
  | [a, b, c, d] =>
      signedOfWord (a.toNat + b.toNat * 2 ^ 8 + c.toNat * 2 ^ 16 + d.toNat * 2 ^ 24)
  | _ => 0

/-- The C string that starts at an offset. -/
def strAt (off : Nat) (m : List UInt8) : List UInt8 := (m.drop off).takeWhile (· ≠ 0)

/-- `strcpy` to an offset. -/
def strcpy (off : Nat) (s m : List UInt8) : List UInt8 := overwrite off (s ++ [0]) m

/-- The six bytes of a hardware address, as `convert_to_mac` copies them. -/
def convertToMac (mac : Mac) : List UInt8 :=
  [40, 32, 24, 16, 8, 0].map fun i => UInt8.ofBitVec (mac.extractLsb' i 8)

/-- `htons` on a little-endian machine. -/
def htons (n : Nat) : Nat := n % 256 * 256 + n / 256 % 256

/-- The two bytes of an `unsigned short`. -/
def shortBytes (n : Nat) : List UInt8 := [UInt8.ofNat n, UInt8.ofNat (n / 256)]

/-! ## The layout of `odr_frame_t` -/

/-- The integer fields, in the order of the structure. -/
inductive IntField
  | frameType
  | broadcastId
  | hopCount
  | payloadLen
  | routeDiscFlag
  | srcPort
  | dstPort
  deriving DecidableEq

/-- The offset of an integer field. -/
def IntField.offset : IntField → Nat
  | .frameType => 0
  | .broadcastId => 4
  | .hopCount => 8
  | .payloadLen => 12
  | .routeDiscFlag => 16
  | .srcPort => 20
  | .dstPort => 24

/-- The offset of `dest_ip`, an array of `INET_ADDRSTRLEN` characters. -/
def destIpOffset : Nat := 28

/-- The offset of `src_ip`, an array of `INET_ADDRSTRLEN` characters. -/
def srcIpOffset : Nat := 44

/-- The offset of `payload`, an array of `PAYLOAD_SIZE` characters. -/
def payloadOffset : Nat := 60

/-- `sizeof (odr_frame_t)`. -/
def frameSize : Nat := 1500

/-- `ETH_FRAME_LEN`. -/
def ethFrameLen : Nat := 1514

/-- `USID_PROTO`. -/
def usidProto : Nat := 0xD77D

/-- Read an integer field. -/
def getInt (fld : IntField) (frame : List UInt8) : Int := intOfBytes (slice fld.offset 4 frame)

/-- Assign an integer field. -/
def setInt (fld : IntField) (x : Int) (frame : List UInt8) : List UInt8 :=
  overwrite fld.offset (intBytes x) frame

/-! ## The functions of `odr_functions.c` -/

/-- One line of `convert_net_host_order`. -/
def ntohlField (frame : List UInt8) (fld : IntField) : List UInt8 :=
  setInt fld (ntohl (getInt fld frame)) frame

/-- `convert_net_host_order`. -/
def convertNetHostOrder (frame : List UInt8) : List UInt8 :=
  [.frameType, .broadcastId, .hopCount, .payloadLen, .routeDiscFlag, .srcPort, .dstPort].foldl
    ntohlField frame

/-- One line of `convert_host_net_order`. -/
def htonlField (frame : List UInt8) (fld : IntField) : List UInt8 :=
  setInt fld (htonl (getInt fld frame)) frame

/-- `convert_host_net_order`. -/
def convertHostNetOrder (frame : List UInt8) : List UInt8 :=
  [.frameType, .broadcastId, .hopCount, .payloadLen, .routeDiscFlag, .srcPort, .dstPort].foldl
    htonlField frame

/-- `construct_odr`: the structure comes zeroed from `calloc`. -/
def constructOdr (type bid hopcount len rdiscFlag srcport dstport : Int)
    (dstip srcip payload : List UInt8) : List UInt8 :=
  let frame := List.replicate frameSize 0
  let frame := setInt .frameType (htonl type) frame
  let frame := setInt .hopCount (htonl hopcount) frame
  let frame := setInt .broadcastId (htonl bid) frame
  let frame := setInt .routeDiscFlag (htonl rdiscFlag) frame
  let frame := setInt .srcPort (htonl srcport) frame
  let frame := setInt .dstPort (htonl dstport) frame
  let frame := setInt .payloadLen (htonl len) frame
  let frame := strcpy destIpOffset dstip frame
  let frame := strcpy srcIpOffset srcip frame
  if type = FrameType.data.toInt then strcpy payloadOffset payload frame else frame

/-- The bytes `send_raw_frame` hands to `sendto`.  Its buffer comes from `malloc`, so it
holds anything before it is filled. -/
def sendRawFrame (buffer : List UInt8) (srcMac destMac : Mac) (frame : List UInt8) :
    List UInt8 :=
  let buffer := overwrite 0 (convertToMac destMac) buffer
  let buffer := overwrite 6 (convertToMac srcMac) buffer
  let buffer := overwrite 12 (shortBytes (htons usidProto)) buffer
  overwrite 14 (slice 0 frameSize frame) buffer

/-- `process_recvd_frame`: the frame behind the Ethernet header of a copy of the received
bytes, converted in place. -/
def processRecvdFrame (recvBuf : List UInt8) : List UInt8 :=
  convertNetHostOrder (slice 14 frameSize recvBuf)

/-- The lines of `case __DATA` that relay a received frame. -/
def relayData (recvBuf : List UInt8) (noHops : Int) (buffer : List UInt8)
    (srcMac destMac : Mac) : List UInt8 :=
  let frame := processRecvdFrame recvBuf
  let frame := setInt .hopCount noHops frame
  sendRawFrame buffer srcMac destMac (convertHostNetOrder frame)

/-! ## Bytes and values -/

/-- Bytes as the characters of a string. -/
def text (s : List UInt8) : String := String.ofList (s.map fun b => Char.ofNat b.toNat)

/-- The characters of a string as bytes. -/
def bytes (s : String) : List UInt8 := s.toList.map fun c => UInt8.ofNat c.toNat

/-- The frame that the bytes of the structure stand for. -/
def odrFrameAt (frame : List UInt8) : OdrFrame where
  frameType := getInt .frameType frame
  broadcastId := getInt .broadcastId frame
  hopCount := getInt .hopCount frame
  payloadLen := getInt .payloadLen frame
  routeDiscFlag := getInt .routeDiscFlag frame
  srcPort := getInt .srcPort frame
  dstPort := getInt .dstPort frame
  destIp := text (strAt destIpOffset frame)
  srcIp := text (strAt srcIpOffset frame)
  payload := text (strAt payloadOffset frame)

end OnDemandRouting.Model.Wire
