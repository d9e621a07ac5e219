import OnDemandRouting.Model.Wire

/-!
# The codec of the wire

What `send_raw_frame` puts on the wire for a frame of `construct_odr` is what
`process_recvd_frame` reads.  The byte-level functions are compared with the frame-level
ones field by field: a conversion reverses the four bytes of every integer field and
touches nothing else, and the strings lie in their arrays with their NUL.
-/

namespace OnDemandRouting.Proofs

open OnDemandRouting.Lib
open OnDemandRouting.Model
open OnDemandRouting.Model.Wire

/-! ## Integers -/

section Ints

variable {x : Int} {bs : List UInt8}

@[simp] theorem length_intBytes (x : Int) : (intBytes x).length = 4 := rfl

theorem isInt32_intOfBytes (bs : List UInt8) : IsInt32 (intOfBytes bs) := by
  unfold intOfBytes
  split
  · next a b c d =>
      have := a.toNat_lt
      have := b.toNat_lt
      have := c.toNat_lt
      have := d.toNat_lt
      exact signedOfWord_range (by omega)
  · unfold IsInt32
    omega

theorem htonl_of_isInt32 (hx : IsInt32 x) :
    htonl x = signedOfWord (byteSwap (x % 2 ^ 32).toNat) := if_pos hx

theorem isInt32_htonl (hx : IsInt32 x) : IsInt32 (htonl x) := by
  rw [htonl_of_isInt32 hx]
  exact signedOfWord_range (byteSwap_lt _)

theorem intOfBytes_intBytes (hx : IsInt32 x) : intOfBytes (intBytes x) = x := by
  have hword := signedOfWord_word hx
  simp only [intBytes, intOfBytes, UInt8.toNat_ofNat']
  rw [← hword]
  congr 1
  rw [hword]
  omega

theorem intBytes_intOfBytes (h : bs.length = 4) : intBytes (intOfBytes bs) = bs := by
  obtain ⟨a, b, c, d, rfl⟩ := List.length_eq_four.mp h
  have ha := a.toNat_lt
  have hb := b.toNat_lt
  have hc := c.toNat_lt
  have hd := d.toNat_lt
  have hbyte (n : Nat) (y : UInt8) (hn : n % 256 = y.toNat) : UInt8.ofNat n = y := by
    rw [← UInt8.toNat_inj, UInt8.toNat_ofNat', hn]
  rw [intBytes, intOfBytes, word_signedOfWord (by omega)]
  rw [hbyte _ a (by omega), hbyte _ b (by omega), hbyte _ c (by omega), hbyte _ d (by omega)]

/-- The conversion reverses the bytes. -/
theorem intBytes_htonl (hx : IsInt32 x) : intBytes (htonl x) = (intBytes x).reverse := by
  rw [htonl_of_isInt32 hx, intBytes, word_signedOfWord (byteSwap_lt _), intBytes]
  simp only [List.reverse_cons, List.reverse_nil, List.nil_append, List.cons_append,
    List.cons.injEq, and_true, ← UInt8.toNat_inj, UInt8.toNat_ofNat', byteSwap]
  have hbyte (n : Nat) : n % 256 < 256 := Nat.mod_lt n (by decide)
  generalize (x % 2 ^ 32).toNat = n
  have ha := hbyte n
  have hb := hbyte (n / 2 ^ 8)
  have hc := hbyte (n / 2 ^ 16)
  have hd := hbyte (n / 2 ^ 24)
  generalize n % 256 = a, n / 2 ^ 8 % 256 = b, n / 2 ^ 16 % 256 = c, n / 2 ^ 24 % 256 = d at *
  omega

theorem htonl_intOfBytes (h : bs.length = 4) : htonl (intOfBytes bs) = intOfBytes bs.reverse := by
  have hint := isInt32_intOfBytes bs
  calc htonl (intOfBytes bs)
      = intOfBytes (intBytes (htonl (intOfBytes bs))) :=
        (intOfBytes_intBytes (isInt32_htonl hint)).symm
    _ = intOfBytes bs.reverse := by rw [intBytes_htonl hint, intBytes_intOfBytes h]

end Ints

/-! ## Fields -/

section Fields

variable {fld fld' : IntField} {frame : List UInt8} {x : Int} {off : Nat}

theorem offset_add_four_le (fld : IntField) : fld.offset + 4 ≤ 28 := by
  cases fld <;> decide

theorem offset_disjoint (h : fld ≠ fld') :
    fld.offset + 4 ≤ fld'.offset ∨ fld'.offset + 4 ≤ fld.offset := by
  revert h
  cases fld <;> cases fld' <;> decide

/-- Every byte before the strings belongs to an integer field. -/
theorem exists_field {i : Nat} (h : i < 28) :
    ∃ fld : IntField, fld.offset ≤ i ∧ i < fld.offset + 4 := by
  have hcases : i < 4 ∨ (4 ≤ i ∧ i < 8) ∨ (8 ≤ i ∧ i < 12) ∨ (12 ≤ i ∧ i < 16) ∨
      (16 ≤ i ∧ i < 20) ∨ (20 ≤ i ∧ i < 24) ∨ 24 ≤ i := by omega
  rcases hcases with h | h | h | h | h | h | h
  · exact ⟨.frameType, Nat.zero_le _, h⟩
  · exact ⟨.broadcastId, h⟩
  · exact ⟨.hopCount, h⟩
  · exact ⟨.payloadLen, h⟩
  · exact ⟨.routeDiscFlag, h⟩
  · exact ⟨.srcPort, h⟩
  · exact ⟨.dstPort, h, by assumption⟩

theorem setInt_fits (fld : IntField) (x : Int) (hlen : frame.length = frameSize) :
    fld.offset + (intBytes x).length ≤ frame.length := by
  have := offset_add_four_le fld
  rw [length_intBytes, hlen, frameSize]
  omega

theorem length_setInt (hlen : frame.length = frameSize) :
    (setInt fld x frame).length = frameSize := by
  rw [setInt, length_overwrite (setInt_fits fld x hlen), hlen]

theorem slice_setInt_self (hlen : frame.length = frameSize) :
    slice fld.offset 4 (setInt fld x frame) = intBytes x :=
  slice_overwrite_self (setInt_fits fld x hlen)

theorem slice_setInt_of_ne (hlen : frame.length = frameSize) (h : fld ≠ fld') :
    slice fld.offset 4 (setInt fld' x frame) = slice fld.offset 4 frame :=
  slice_overwrite_of_disjoint (setInt_fits fld' x hlen) (offset_disjoint h)

theorem drop_setInt (hlen : frame.length = frameSize) (hoff : 28 ≤ off) :
    (setInt fld x frame).drop off = frame.drop off :=
  drop_overwrite_of_le (setInt_fits fld x hlen) (Nat.le_trans (offset_add_four_le fld) hoff)

theorem length_slice_field (fld : IntField) (hlen : frame.length = frameSize) :
    (slice fld.offset 4 frame).length = 4 := by
  have := offset_add_four_le fld
  exact length_slice (by rw [hlen, frameSize]; omega)

/-! ## Conversions -/

/-- One line of a conversion reverses the bytes of its field. -/
theorem slice_htonlField (hlen : frame.length = frameSize) :
    slice fld.offset 4 (htonlField frame fld) = (slice fld.offset 4 frame).reverse := by
  rw [htonlField, slice_setInt_self hlen, getInt, intBytes_htonl (isInt32_intOfBytes _),
    intBytes_intOfBytes (length_slice_field fld hlen)]

theorem length_foldl_htonlField {flds : List IntField} (hlen : frame.length = frameSize) :
    (flds.foldl htonlField frame).length = frameSize := by
  induction flds generalizing frame with
  | nil => exact hlen
  | cons fld' flds ih => exact ih (length_setInt hlen)

theorem drop_foldl_htonlField {flds : List IntField} (hlen : frame.length = frameSize)
    (hoff : 28 ≤ off) : (flds.foldl htonlField frame).drop off = frame.drop off := by
  induction flds generalizing frame with
  | nil => rfl
  | cons fld' flds ih => exact (ih (length_setInt hlen)).trans (drop_setInt hlen hoff)

theorem slice_foldl_htonlField {flds : List IntField} (hlen : frame.length = frameSize)
    (hnodup : flds.Nodup) :
    slice fld.offset 4 (flds.foldl htonlField frame) =
      if fld ∈ flds then (slice fld.offset 4 frame).reverse else slice fld.offset 4 frame := by
  induction flds generalizing frame with
  | nil => simp
  | cons fld' flds ih =>
      obtain ⟨hnot, hnodup⟩ := List.nodup_cons.mp hnodup
      have hlen' : (htonlField frame fld').length = frameSize := length_setInt hlen
      rw [List.foldl_cons, ih hlen' hnodup]
      by_cases heq : fld = fld'
      · subst heq
        rw [if_neg hnot, if_pos List.mem_cons_self, slice_htonlField hlen]
      · have hkeep : slice fld.offset 4 (htonlField frame fld') = slice fld.offset 4 frame :=
          slice_setInt_of_ne hlen heq
        simp [hkeep, heq]

theorem length_convertHostNetOrder (hlen : frame.length = frameSize) :
    (Wire.convertHostNetOrder frame).length = frameSize :=
  length_foldl_htonlField hlen

/-- A conversion misses no field. -/
theorem slice_convertHostNetOrder (fld : IntField) (hlen : frame.length = frameSize) :
    slice fld.offset 4 (Wire.convertHostNetOrder frame) = (slice fld.offset 4 frame).reverse := by
  rw [Wire.convertHostNetOrder, slice_foldl_htonlField hlen (by decide), if_pos]
  cases fld <;> decide

theorem drop_convertHostNetOrder (hlen : frame.length = frameSize) (hoff : 28 ≤ off) :
    (Wire.convertHostNetOrder frame).drop off = frame.drop off :=
  drop_foldl_htonlField hlen hoff

/-- Both directions are the same conversion. -/
theorem convertNetHostOrder_eq (frame : List UInt8) :
    Wire.convertNetHostOrder frame = Wire.convertHostNetOrder frame := rfl

theorem getInt_convertHostNetOrder (fld : IntField) (hlen : frame.length = frameSize) :
    getInt fld (Wire.convertHostNetOrder frame) = htonl (getInt fld frame) := by
  rw [getInt, slice_convertHostNetOrder fld hlen, getInt,
    htonl_intOfBytes (length_slice_field fld hlen)]

theorem strAt_convertHostNetOrder (hlen : frame.length = frameSize) (hoff : 28 ≤ off) :
    strAt off (Wire.convertHostNetOrder frame) = strAt off frame := by
  rw [strAt, drop_convertHostNetOrder hlen hoff, strAt]

end Fields

/-! ## Strings -/

section Strings

variable {s m : List UInt8} {off off' n : Nat}

/-- A string that lies in memory with its NUL is read back. -/
theorem strAt_of_slice (hs : 0 ∉ s) (h : slice off (s.length + 1) m = s ++ [0]) :
    strAt off m = s := by
  have hsplit : m.drop off = s ++ 0 :: (m.drop off).drop (s.length + 1) := by
    calc m.drop off
        = slice off (s.length + 1) m ++ (m.drop off).drop (s.length + 1) :=
          (List.take_append_drop _ _).symm
      _ = s ++ 0 :: (m.drop off).drop (s.length + 1) := by rw [h, List.append_assoc]; rfl
  have hall : ∀ b ∈ s, decide (b ≠ 0) = true := by
    intro b hb
    rw [decide_eq_true_eq]
    rintro rfl
    exact hs hb
  rw [strAt, hsplit, List.takeWhile_append_of_pos hall, List.takeWhile_cons_of_neg (by simp),
    List.append_nil]

theorem length_strcpy (h : off + s.length < m.length) : (strcpy off s m).length = m.length := by
  refine length_overwrite ?_
  rw [List.length_append, List.length_singleton]
  omega

theorem slice_strcpy_self (h : off + s.length < m.length) :
    slice off (s.length + 1) (strcpy off s m) = s ++ [0] := by
  have hlen : (s ++ [(0 : UInt8)]).length = s.length + 1 := by simp
  rw [strcpy, ← hlen]
  exact slice_overwrite_self (by omega)

theorem slice_strcpy_of_disjoint (h : off + s.length < m.length)
    (hdisj : off' + n ≤ off ∨ off + s.length < off') :
    slice off' n (strcpy off s m) = slice off' n m := by
  have hlen : (s ++ [(0 : UInt8)]).length = s.length + 1 := by simp
  exact slice_overwrite_of_disjoint (by omega) (by omega)

end Strings

/-! ## What `construct_odr` leaves in memory -/

section Construct

variable {fld : IntField} {v : Int} {frame : List UInt8} {l : List (IntField × Int)}

/-- Assignments of converted values to integer fields, in order. -/
def assignInts (l : List (IntField × Int)) (frame : List UInt8) : List UInt8 :=
  l.foldl (fun frame p => setInt p.1 (htonl p.2) frame) frame

theorem length_assignInts (hlen : frame.length = frameSize) :
    (assignInts l frame).length = frameSize := by
  induction l generalizing frame with
  | nil => exact hlen
  | cons p l ih => exact ih (length_setInt hlen)

theorem drop_assignInts {off : Nat} (hlen : frame.length = frameSize) (hoff : 28 ≤ off) :
    (assignInts l frame).drop off = frame.drop off := by
  induction l generalizing frame with
  | nil => rfl
  | cons p l ih => exact (ih (length_setInt hlen)).trans (drop_setInt hlen hoff)

theorem slice_assignInts_of_notMem (hlen : frame.length = frameSize)
    (h : fld ∉ l.map Prod.fst) :
    slice fld.offset 4 (assignInts l frame) = slice fld.offset 4 frame := by
  induction l generalizing frame with
  | nil => rfl
  | cons p l ih =>
      obtain ⟨hne, hnot⟩ := not_or.mp (List.mem_cons.not.mp h)
      exact (ih (length_setInt hlen) hnot).trans (slice_setInt_of_ne hlen hne)

theorem slice_assignInts (hlen : frame.length = frameSize) (hnodup : (l.map Prod.fst).Nodup)
    (hmem : (fld, v) ∈ l) :
    slice fld.offset 4 (assignInts l frame) = intBytes (htonl v) := by
  induction l generalizing frame with
  | nil => simp at hmem
  | cons p l ih =>
      obtain ⟨hnot, hnodup⟩ := List.nodup_cons.mp hnodup
      rcases List.mem_cons.mp hmem with rfl | hmem
      · exact (slice_assignInts_of_notMem (length_setInt hlen) hnot).trans
          (slice_setInt_self hlen)
      · exact ih (length_setInt hlen) hnodup hmem

/-- The arguments `construct_odr` assigns, in its order. -/
def odrArgs (type bid hopcount len rdiscFlag srcport dstport : Int) : List (IntField × Int) :=
  [(.frameType, type), (.hopCount, hopcount), (.broadcastId, bid), (.routeDiscFlag, rdiscFlag),
    (.srcPort, srcport), (.dstPort, dstport), (.payloadLen, len)]

/-- The structure once its integer fields are assigned. -/
def headed (l : List (IntField × Int)) : List UInt8 := assignInts l (List.replicate frameSize 0)

/-- The structure once the addresses are copied. -/
def addressed (l : List (IntField × Int)) (dstip srcip : List UInt8) : List UInt8 :=
  strcpy srcIpOffset srcip (strcpy destIpOffset dstip (headed l))

theorem constructOdr_eq (type bid hopcount len rdiscFlag srcport dstport : Int)
    (dstip srcip payload : List UInt8) :
    Wire.constructOdr type bid hopcount len rdiscFlag srcport dstport dstip srcip payload =
      if type = FrameType.data.toInt then
        strcpy payloadOffset payload
          (addressed (odrArgs type bid hopcount len rdiscFlag srcport dstport) dstip srcip)
      else addressed (odrArgs type bid hopcount len rdiscFlag srcport dstport) dstip srcip :=
  rfl

/-- Strings that fit into their arrays with their NUL. -/
structure StringsFit (dstip srcip payload : List UInt8) : Prop where
  dstip_nul : 0 ∉ dstip
  dstip_len : dstip.length ≤ 15
  srcip_nul : 0 ∉ srcip
  srcip_len : srcip.length ≤ 15
  payload_nul : 0 ∉ payload
  payload_len : payload.length ≤ 1439

theorem length_headed (l : List (IntField × Int)) : (headed l).length = frameSize :=
  length_assignInts List.length_replicate

variable {dstip srcip payload : List UInt8}

namespace StringsFit

variable (hfit : StringsFit dstip srcip payload)
include hfit

theorem dstip_fits (l : List (IntField × Int)) :
    destIpOffset + dstip.length < (headed l).length := by
  have := hfit.dstip_len
  rw [length_headed, destIpOffset, frameSize]
  omega

theorem srcip_fits (l : List (IntField × Int)) :
    srcIpOffset + srcip.length < (strcpy destIpOffset dstip (headed l)).length := by
  have := hfit.srcip_len
  rw [length_strcpy (hfit.dstip_fits l), length_headed, srcIpOffset, frameSize]
  omega

theorem length_addressed (l : List (IntField × Int)) :
    (addressed l dstip srcip).length = frameSize := by
  rw [addressed, length_strcpy (hfit.srcip_fits l), length_strcpy (hfit.dstip_fits l),
    length_headed]

theorem payload_fits (l : List (IntField × Int)) :
    payloadOffset + payload.length < (addressed l dstip srcip).length := by
  have := hfit.payload_len
  rw [hfit.length_addressed, payloadOffset, frameSize]
  omega

theorem length_constructOdr (type bid hopcount len rdiscFlag srcport dstport : Int) :
    (Wire.constructOdr type bid hopcount len rdiscFlag srcport dstport dstip srcip
      payload).length = frameSize := by
  rw [constructOdr_eq]
  split_ifs
  · rw [length_strcpy (hfit.payload_fits _), hfit.length_addressed]
  · exact hfit.length_addressed _

theorem slice_addressed (hnodup : (l.map Prod.fst).Nodup) (hmem : (fld, v) ∈ l) :
    slice fld.offset 4 (addressed l dstip srcip) = intBytes (htonl v) := by
  have hoff := offset_add_four_le fld
  rw [addressed,
    slice_strcpy_of_disjoint (hfit.srcip_fits l) (.inl (by rw [srcIpOffset]; omega)),
    slice_strcpy_of_disjoint (hfit.dstip_fits l) (.inl (by rw [destIpOffset]; omega)), headed,
    slice_assignInts List.length_replicate hnodup hmem]

variable (type bid hopcount len rdiscFlag srcport dstport : Int)

/-- Every argument is in its field, in network order. -/
theorem getInt_constructOdr
    (hmem : (fld, v) ∈ odrArgs type bid hopcount len rdiscFlag srcport dstport)
    (hv : IsInt32 v) :
    getInt fld (Wire.constructOdr type bid hopcount len rdiscFlag srcport dstport dstip srcip
      payload) = htonl v := by
  have hoff := offset_add_four_le fld
  have hnodup : ((odrArgs type bid hopcount len rdiscFlag srcport dstport).map Prod.fst).Nodup := by
    simp [odrArgs]
  have hslice := hfit.slice_addressed hnodup hmem
  rw [getInt, constructOdr_eq, ← intOfBytes_intBytes (isInt32_htonl hv), ← hslice]
  split_ifs
  · rw [slice_strcpy_of_disjoint (hfit.payload_fits _) (.inl (by rw [payloadOffset]; omega))]
  · rfl

theorem strAt_destIp : strAt destIpOffset (Wire.constructOdr type bid hopcount len rdiscFlag
    srcport dstport dstip srcip payload) = dstip := by
  have hd := hfit.dstip_len
  have hslice : slice destIpOffset (dstip.length + 1)
      (addressed (odrArgs type bid hopcount len rdiscFlag srcport dstport) dstip srcip) =
        dstip ++ [0] := by
    rw [addressed, slice_strcpy_of_disjoint (hfit.srcip_fits _)
      (.inl (by rw [destIpOffset, srcIpOffset]; omega)), slice_strcpy_self (hfit.dstip_fits _)]
  refine strAt_of_slice hfit.dstip_nul ?_
  rw [constructOdr_eq]
  split_ifs
  · rw [slice_strcpy_of_disjoint (hfit.payload_fits _)
      (.inl (by rw [destIpOffset, payloadOffset]; omega)), hslice]
  · exact hslice

theorem strAt_srcIp : strAt srcIpOffset (Wire.constructOdr type bid hopcount len rdiscFlag
    srcport dstport dstip srcip payload) = srcip := by
  have hs := hfit.srcip_len
  have hslice : slice srcIpOffset (srcip.length + 1)
      (addressed (odrArgs type bid hopcount len rdiscFlag srcport dstport) dstip srcip) =
        srcip ++ [0] := slice_strcpy_self (hfit.srcip_fits _)
  refine strAt_of_slice hfit.srcip_nul ?_
  rw [constructOdr_eq]
  split_ifs
  · rw [slice_strcpy_of_disjoint (hfit.payload_fits _)
      (.inl (by rw [srcIpOffset, payloadOffset]; omega)), hslice]
  · exact hslice

/-- Without a payload its array is still zero. -/
theorem slice_payload_addressed (l : List (IntField × Int)) :
    slice payloadOffset 1 (addressed l dstip srcip) = [0] := by
  have hd := hfit.dstip_len
  have hs := hfit.srcip_len
  rw [addressed, slice_strcpy_of_disjoint (hfit.srcip_fits _)
      (.inr (by rw [srcIpOffset, payloadOffset]; omega)),
    slice_strcpy_of_disjoint (hfit.dstip_fits _)
      (.inr (by rw [destIpOffset, payloadOffset]; omega)), slice, headed,
    drop_assignInts List.length_replicate (by decide)]
  rfl

theorem strAt_payload : strAt payloadOffset (Wire.constructOdr type bid hopcount len rdiscFlag
    srcport dstport dstip srcip payload) =
      if type = FrameType.data.toInt then payload else [] := by
  rw [constructOdr_eq]
  split_ifs
  · exact strAt_of_slice hfit.payload_nul (slice_strcpy_self (hfit.payload_fits _))
  · exact strAt_of_slice List.not_mem_nil (hfit.slice_payload_addressed _)

end StringsFit

end Construct

/-! ## On the wire -/

section Wire

variable {buffer frame recvBuf : List UInt8} {srcMac destMac : Mac} {i : Nat}

@[simp] theorem length_convertToMac (mac : Mac) : (convertToMac mac).length = 6 := rfl

theorem slice_frame (hlen : frame.length = frameSize) :
    slice 0 frameSize frame = frame := by
  rw [slice, List.drop_zero, ← hlen, List.take_length]

/-- The buffer once the Ethernet header is in it. -/
def withHeader (buffer : List UInt8) (srcMac destMac : Mac) : List UInt8 :=
  overwrite 12 (shortBytes (htons usidProto))
    (overwrite 6 (convertToMac srcMac) (overwrite 0 (convertToMac destMac) buffer))

theorem sendRawFrame_eq (hlen : frame.length = frameSize) :
    sendRawFrame buffer srcMac destMac frame =
      overwrite 14 frame (withHeader buffer srcMac destMac) := by
  rw [sendRawFrame, slice_frame hlen]
  rfl

theorem header_fits (srcMac destMac : Mac) (hbuf : buffer.length = ethFrameLen) :
    0 + (convertToMac destMac).length ≤ buffer.length ∧
      6 + (convertToMac srcMac).length ≤ (overwrite 0 (convertToMac destMac) buffer).length ∧
      12 + (shortBytes (htons usidProto)).length ≤ (overwrite 6 (convertToMac srcMac)
        (overwrite 0 (convertToMac destMac) buffer)).length := by
  have h₀ : 0 + (convertToMac destMac).length ≤ buffer.length := by
    rw [hbuf, length_convertToMac]
    decide
  have h₁ : 6 + (convertToMac srcMac).length ≤
      (overwrite 0 (convertToMac destMac) buffer).length := by
    rw [length_overwrite h₀, hbuf, length_convertToMac]
    decide
  refine ⟨h₀, h₁, ?_⟩
  rw [length_overwrite h₁, length_overwrite h₀, hbuf]
  decide

theorem length_withHeader (hbuf : buffer.length = ethFrameLen) :
    (withHeader buffer srcMac destMac).length = ethFrameLen := by
  obtain ⟨h₀, h₁, h₂⟩ := header_fits srcMac destMac hbuf
  rw [withHeader, length_overwrite h₂, length_overwrite h₁, length_overwrite h₀, hbuf]

/-- The header: destination, source, protocol. -/
theorem slices_withHeader (srcMac destMac : Mac) (hbuf : buffer.length = ethFrameLen) :
    slice 0 6 (withHeader buffer srcMac destMac) = convertToMac destMac ∧
      slice 6 6 (withHeader buffer srcMac destMac) = convertToMac srcMac ∧
      slice 12 2 (withHeader buffer srcMac destMac) = [0xD7, 0x7D] := by
  obtain ⟨h₀, h₁, h₂⟩ := header_fits srcMac destMac hbuf
  refine ⟨?_, ?_, slice_overwrite_self h₂⟩
  · rw [withHeader, slice_overwrite_of_disjoint h₂ (.inl (by decide)),
      slice_overwrite_of_disjoint h₁ (.inl (by decide))]
    exact slice_overwrite_self h₀
  · rw [withHeader, slice_overwrite_of_disjoint h₂ (.inl (by decide))]
    exact slice_overwrite_self h₁

theorem frame_fits (hbuf : buffer.length = ethFrameLen) (hlen : frame.length = frameSize) :
    14 + frame.length ≤ (withHeader buffer srcMac destMac).length := by
  rw [length_withHeader hbuf, hlen]
  decide

/-- Behind the header is the frame that was sent. -/
theorem slice_sendRawFrame (hbuf : buffer.length = ethFrameLen)
    (hlen : frame.length = frameSize) :
    slice 14 frameSize (sendRawFrame buffer srcMac destMac frame) = frame := by
  rw [sendRawFrame_eq hlen, ← hlen]
  exact slice_overwrite_self (frame_fits hbuf hlen)

theorem length_slice_recvd (hrecv : recvBuf.length = ethFrameLen) :
    (slice 14 frameSize recvBuf).length = frameSize :=
  length_slice (by rw [hrecv]; decide)

theorem getElem?_sendRawFrame (hbuf : buffer.length = ethFrameLen)
    (hlen : frame.length = frameSize) (hi : 12 ≤ i) :
    (sendRawFrame buffer srcMac destMac frame)[i]? =
      if i < 14 then [0xD7, 0x7D][i - 12]? else frame[i - 14]? := by
  rw [sendRawFrame_eq hlen, getElem?_overwrite (frame_fits hbuf hlen)]
  by_cases hproto : i < 14
  · have hheader : slice 12 2 (withHeader buffer srcMac destMac) = [0xD7, 0x7D] :=
      (slices_withHeader srcMac destMac hbuf).2.2
    have hcell := congrArg (fun m => m[i - 12]?) hheader
    simp only [getElem?_slice] at hcell
    rw [if_neg (by omega), if_pos hproto, ← hcell, if_pos (by omega)]
    congr 1
    omega
  · rw [if_neg hproto]
    by_cases hend : i < 14 + frame.length
    · rw [if_pos (by omega)]
    · have hover : (withHeader buffer srcMac destMac).length ≤ i := by
        rw [length_withHeader hbuf]
        rw [hlen] at hend
        exact Nat.le_of_not_lt hend
      rw [if_neg (by omega), List.getElem?_eq_none hover, List.getElem?_eq_none (by omega)]

/-- Away from the hop count, a relay puts every byte of the frame back. -/
theorem getElem?_relayed {x : Int} (hlen : frame.length = frameSize) (hi : i < 8 ∨ 12 ≤ i) :
    (Wire.convertHostNetOrder (setInt .hopCount x (Wire.convertNetHostOrder frame)))[i]? =
      frame[i]? := by
  have hlen₁ : (Wire.convertNetHostOrder frame).length = frameSize :=
    length_convertHostNetOrder hlen
  have hlen₂ : (setInt .hopCount x (Wire.convertNetHostOrder frame)).length = frameSize :=
    length_setInt hlen₁
  by_cases hint : i < 28
  · obtain ⟨fld, hle, hlt⟩ := exists_field hint
    have hne : fld ≠ .hopCount := by
      rintro rfl
      simp only [IntField.offset] at hle hlt
      omega
    have hslice : slice fld.offset 4
        (Wire.convertHostNetOrder (setInt .hopCount x (Wire.convertNetHostOrder frame))) =
          slice fld.offset 4 frame := by
      rw [slice_convertHostNetOrder fld hlen₂, slice_setInt_of_ne hlen₁ hne,
        convertNetHostOrder_eq, slice_convertHostNetOrder fld hlen, List.reverse_reverse]
    have hcell := congrArg (fun m => m[i - fld.offset]?) hslice
    simp only [getElem?_slice, if_pos (show i - fld.offset < 4 by omega)] at hcell
    rwa [Nat.add_sub_cancel' hle] at hcell
  · have hdrop : (Wire.convertHostNetOrder
        (setInt .hopCount x (Wire.convertNetHostOrder frame))).drop 28 = frame.drop 28 := by
      rw [drop_convertHostNetOrder hlen₂ Nat.le.refl, drop_setInt hlen₁ Nat.le.refl,
        convertNetHostOrder_eq, drop_convertHostNetOrder hlen Nat.le.refl]
    have hcell := congrArg (fun m => m[i - 28]?) hdrop
    simp only [List.getElem?_drop] at hcell
    rwa [Nat.add_sub_cancel' (by omega)] at hcell

/-- The header and the length of what is sent. -/
structure EthernetFrame (srcMac destMac : Mac) (wire : List UInt8) : Prop where
  length : wire.length = ethFrameLen
  dest : slice 0 6 wire = convertToMac destMac
  src : slice 6 6 wire = convertToMac srcMac
  proto : slice 12 2 wire = [0xD7, 0x7D]

theorem ethernetFrame_sendRawFrame (hbuf : buffer.length = ethFrameLen)
    (hlen : frame.length = frameSize) :
    EthernetFrame srcMac destMac (sendRawFrame buffer srcMac destMac frame) := by
  have hfits : 14 + frame.length ≤ (withHeader buffer srcMac destMac).length :=
    frame_fits hbuf hlen
  obtain ⟨hdest, hsrc, hproto⟩ := slices_withHeader srcMac destMac hbuf
  rw [sendRawFrame_eq hlen]
  refine ⟨?_, ?_, ?_, ?_⟩
  · rw [length_overwrite hfits, length_withHeader hbuf]
  · rw [slice_overwrite_of_disjoint hfits (.inl (by decide)), hdest]
  · rw [slice_overwrite_of_disjoint hfits (.inl (by decide)), hsrc]
  · rw [slice_overwrite_of_disjoint hfits (.inl (by decide)), hproto]

end Wire

/-! ## The frame level -/

section Refinement

variable {frame : List UInt8} {dstip srcip payload : List UInt8}

theorem odrFrameAt_convertHostNetOrder (hlen : frame.length = frameSize) :
    odrFrameAt (Wire.convertHostNetOrder frame) =
      Model.convertHostNetOrder (odrFrameAt frame) := by
  simp only [odrFrameAt, getInt_convertHostNetOrder _ hlen, Model.convertHostNetOrder,
    convertOrder, strAt_convertHostNetOrder hlen (show 28 ≤ destIpOffset by decide),
    strAt_convertHostNetOrder hlen (show 28 ≤ srcIpOffset by decide),
    strAt_convertHostNetOrder hlen (show 28 ≤ payloadOffset by decide)]

theorem odrFrameAt_setInt_hopCount {x : Int} (hlen : frame.length = frameSize) (hx : IsInt32 x) :
    odrFrameAt (setInt .hopCount x frame) = { odrFrameAt frame with hopCount := x } := by
  have hint (fld : IntField) (hne : fld ≠ .hopCount) :
      getInt fld (setInt .hopCount x frame) = getInt fld frame := by
    rw [getInt, slice_setInt_of_ne hlen hne, getInt]
  have hstr (off : Nat) (hoff : 28 ≤ off) :
      strAt off (setInt .hopCount x frame) = strAt off frame := by
    rw [strAt, drop_setInt hlen hoff, strAt]
  have hself : getInt .hopCount (setInt .hopCount x frame) = x := by
    rw [getInt, slice_setInt_self hlen, intOfBytes_intBytes hx]
  simp only [odrFrameAt, hself, hint .frameType (by decide), hint .broadcastId (by decide),
    hint .payloadLen (by decide), hint .routeDiscFlag (by decide), hint .srcPort (by decide),
    hint .dstPort (by decide), hstr destIpOffset (by decide), hstr srcIpOffset (by decide),
    hstr payloadOffset (by decide)]

theorem odrFrameAt_processRecvdFrame {recvBuf : List UInt8}
    (hrecv : recvBuf.length = ethFrameLen) :
    odrFrameAt (Wire.processRecvdFrame recvBuf) =
      Model.processRecvdFrame (odrFrameAt (slice 14 frameSize recvBuf)) :=
  odrFrameAt_convertHostNetOrder (length_slice_recvd hrecv)

/-- A relayed frame is, on the wire, the one of the frame level. -/
theorem odrFrameAt_relayData {recvBuf buffer : List UInt8} {noHops : Int} {srcMac destMac : Mac}
    (hrecv : recvBuf.length = ethFrameLen) (hbuf : buffer.length = ethFrameLen)
    (hhops : IsInt32 noHops) :
    odrFrameAt (slice 14 frameSize (relayData recvBuf noHops buffer srcMac destMac)) =
      Model.convertHostNetOrder
        { Model.processRecvdFrame (odrFrameAt (slice 14 frameSize recvBuf)) with
          hopCount := noHops } := by
  have hlen : (Wire.processRecvdFrame recvBuf).length = frameSize :=
    length_convertHostNetOrder (length_slice_recvd hrecv)
  have hset : (setInt .hopCount noHops (Wire.processRecvdFrame recvBuf)).length = frameSize :=
    length_setInt hlen
  rw [relayData, slice_sendRawFrame hbuf (length_convertHostNetOrder hset),
    odrFrameAt_convertHostNetOrder hset, odrFrameAt_setInt_hopCount hlen hhops,
    odrFrameAt_processRecvdFrame hrecv]

/-- The bytes `construct_odr` leaves are the frame of the frame level. -/
theorem odrFrameAt_constructOdr {type bid hopcount len rdiscFlag srcport dstport : Int}
    (hints : ∀ x ∈ [type, bid, hopcount, len, rdiscFlag, srcport, dstport], IsInt32 x)
    (hfit : StringsFit dstip srcip payload) :
    odrFrameAt (Wire.constructOdr type bid hopcount len rdiscFlag srcport dstport dstip srcip
        payload) =
      Model.constructOdr type bid hopcount len rdiscFlag srcport dstport (text dstip)
        (text srcip) (text payload) := by
  have hint (fld : IntField) (v : Int)
      (hmem : (fld, v) ∈ odrArgs type bid hopcount len rdiscFlag srcport dstport)
      (hv : v ∈ [type, bid, hopcount, len, rdiscFlag, srcport, dstport]) :=
    hfit.getInt_constructOdr type bid hopcount len rdiscFlag srcport dstport hmem (hints v hv)
  simp only [odrFrameAt, Model.constructOdr, constructOdrWith, hfit.strAt_destIp,
    hfit.strAt_srcIp, hfit.strAt_payload, hint .frameType type (by simp [odrArgs]) (by simp),
    hint .broadcastId bid (by simp [odrArgs]) (by simp),
    hint .hopCount hopcount (by simp [odrArgs]) (by simp),
    hint .payloadLen len (by simp [odrArgs]) (by simp),
    hint .routeDiscFlag rdiscFlag (by simp [odrArgs]) (by simp),
    hint .srcPort srcport (by simp [odrArgs]) (by simp),
    hint .dstPort dstport (by simp [odrArgs]) (by simp)]
  split_ifs <;> rfl

end Refinement

/-! ## The two properties of the codec -/

section Codec

variable {type bid hopcount len rdiscFlag srcport dstport : Int}
  {dstip srcip payload buffer recvBuf : List UInt8} {srcMac destMac : Mac} {noHops : Int}

/-- What a receiver reads from a frame of `construct_odr`. -/
theorem processRecvdFrame_of_constructOdr
    (hfit : StringsFit dstip srcip payload) (hbuf : buffer.length = ethFrameLen)
    {frame : List UInt8}
    (hframe : frame = Wire.processRecvdFrame (sendRawFrame buffer srcMac destMac
      (Wire.constructOdr type bid hopcount len rdiscFlag srcport dstport dstip srcip payload))) :
    (∀ fld v, (fld, v) ∈ odrArgs type bid hopcount len rdiscFlag srcport dstport → IsInt32 v →
      getInt fld frame = v) ∧
    strAt destIpOffset frame = dstip ∧ strAt srcIpOffset frame = srcip ∧
    strAt payloadOffset frame = if type = FrameType.data.toInt then payload else [] := by
  have hlen := hfit.length_constructOdr type bid hopcount len rdiscFlag srcport dstport
  rw [Wire.processRecvdFrame, slice_sendRawFrame hbuf hlen, convertNetHostOrder_eq] at hframe
  refine ⟨fun fld v hmem hv => ?_, ?_, ?_, ?_⟩
  · rw [hframe, getInt_convertHostNetOrder fld hlen,
      hfit.getInt_constructOdr _ _ _ _ _ _ _ hmem hv, htonl_htonl]
  · rw [hframe, strAt_convertHostNetOrder hlen (by decide), hfit.strAt_destIp]
  · rw [hframe, strAt_convertHostNetOrder hlen (by decide), hfit.strAt_srcIp]
  · rw [hframe, strAt_convertHostNetOrder hlen (by decide), hfit.strAt_payload]

/-- A relay changes the hardware addresses and the hop count. -/
theorem getElem?_relayData (hrecv : recvBuf.length = ethFrameLen)
    (hproto : slice 12 2 recvBuf = [0xD7, 0x7D]) (hbuf : buffer.length = ethFrameLen) {i : Nat}
    (hmac : 12 ≤ i) (hhop : i < 22 ∨ 26 ≤ i) :
    (relayData recvBuf noHops buffer srcMac destMac)[i]? = recvBuf[i]? := by
  have hlen := length_slice_recvd hrecv
  have hset : (setInt .hopCount noHops (Wire.processRecvdFrame recvBuf)).length = frameSize :=
    length_setInt (length_convertHostNetOrder hlen)
  rw [relayData, getElem?_sendRawFrame hbuf (length_convertHostNetOrder hset) hmac]
  by_cases hi : i < 14
  · rw [if_pos hi, ← hproto, getElem?_slice, if_pos (by omega), Nat.add_sub_cancel' hmac]
  · rw [if_neg hi, Wire.processRecvdFrame, getElem?_relayed hlen (by omega), getElem?_slice]
    by_cases hend : i - 14 < frameSize
    · rw [if_pos hend, Nat.add_sub_cancel' (by omega)]
    · rw [if_neg hend, List.getElem?_eq_none]
      rw [hrecv]
      simp only [frameSize, ethFrameLen] at hend ⊢
      omega

/-- The hop count of a relayed frame, in network order. -/
theorem hopCount_relayData (hrecv : recvBuf.length = ethFrameLen)
    (hbuf : buffer.length = ethFrameLen) (hhops : IsInt32 noHops) :
    getInt .hopCount (slice 14 frameSize (relayData recvBuf noHops buffer srcMac destMac)) =
      htonl noHops := by
  calc getInt .hopCount (slice 14 frameSize (relayData recvBuf noHops buffer srcMac destMac))
      = (odrFrameAt
          (slice 14 frameSize (relayData recvBuf noHops buffer srcMac destMac))).hopCount := by
        rw [odrFrameAt]
    _ = htonl noHops := by rw [odrFrameAt_relayData hrecv hbuf hhops]; rfl

end Codec

/-- The buffer built for a frame of `construct_odr` is a whole Ethernet frame from which
`process_recvd_frame` reads the same integers and addresses, and the payload of a DATA
frame.  A received frame that is relayed changes on the wire in the two hardware addresses
and the hop count only, which is that of the route to its source. -/
theorem wire_round_trip :
    (∀ (type bid hopcount len rdiscFlag srcport dstport : Int)
      (dstip srcip payload buffer : List UInt8) (srcMac destMac : Mac),
      (∀ x ∈ [type, bid, hopcount, len, rdiscFlag, srcport, dstport], IsInt32 x) →
      StringsFit dstip srcip payload → buffer.length = ethFrameLen →
      let wire := sendRawFrame buffer srcMac destMac
        (Wire.constructOdr type bid hopcount len rdiscFlag srcport dstport dstip srcip payload)
      let frame := Wire.processRecvdFrame wire
      EthernetFrame srcMac destMac wire ∧
      getInt .frameType frame = type ∧ getInt .broadcastId frame = bid ∧
      getInt .hopCount frame = hopcount ∧ getInt .payloadLen frame = len ∧
      getInt .routeDiscFlag frame = rdiscFlag ∧ getInt .srcPort frame = srcport ∧
      getInt .dstPort frame = dstport ∧
      strAt destIpOffset frame = dstip ∧ strAt srcIpOffset frame = srcip ∧
      strAt payloadOffset frame = if type = FrameType.data.toInt then payload else []) ∧
    ∀ (recvBuf buffer : List UInt8) (srcMac destMac : Mac) (noHops : Int),
      recvBuf.length = ethFrameLen → slice 12 2 recvBuf = [0xD7, 0x7D] →
      buffer.length = ethFrameLen →
      EthernetFrame srcMac destMac (relayData recvBuf noHops buffer srcMac destMac) ∧
      (∀ i, 12 ≤ i → i < 22 ∨ 26 ≤ i →
        (relayData recvBuf noHops buffer srcMac destMac)[i]? = recvBuf[i]?) ∧
      (IsInt32 noHops → getInt .hopCount
        (slice 14 frameSize (relayData recvBuf noHops buffer srcMac destMac)) =
          htonl noHops) := by
  constructor
  · intro type bid hopcount len rdiscFlag srcport dstport dstip srcip payload buffer srcMac
      destMac hints hfit hbuf wire frame
    obtain ⟨harg, hstrings⟩ := processRecvdFrame_of_constructOdr hfit hbuf rfl
    exact ⟨ethernetFrame_sendRawFrame hbuf (hfit.length_constructOdr ..),
      harg .frameType type (by simp [odrArgs]) (hints type (by simp)),
      harg .broadcastId bid (by simp [odrArgs]) (hints bid (by simp)),
      harg .hopCount hopcount (by simp [odrArgs]) (hints hopcount (by simp)),
      harg .payloadLen len (by simp [odrArgs]) (hints len (by simp)),
      harg .routeDiscFlag rdiscFlag (by simp [odrArgs]) (hints rdiscFlag (by simp)),
      harg .srcPort srcport (by simp [odrArgs]) (hints srcport (by simp)),
      harg .dstPort dstport (by simp [odrArgs]) (hints dstport (by simp)), hstrings⟩
  · intro recvBuf buffer srcMac destMac noHops hrecv hproto hbuf
    have hlen := length_convertHostNetOrder (length_slice_recvd hrecv)
    exact ⟨ethernetFrame_sendRawFrame hbuf (length_convertHostNetOrder (length_setInt hlen)),
      fun i hmac hhop => getElem?_relayData hrecv hproto hbuf hmac hhop,
      fun hhops => hopCount_relayData hrecv hbuf hhops⟩

/-- The frame of a request for the time, from 10.0.0.1 to 10.0.0.3, in its buffer. -/
def timeRequest : List UInt8 :=
  sendRawFrame (List.replicate ethFrameLen 0) 0x0A 0x0B
    (Wire.constructOdr 3 11 0 1440 0 909 5500 [49, 48, 46, 48, 46, 48, 46, 51]
      [49, 48, 46, 48, 46, 48, 46, 49] [116, 105, 109, 101, 63])

theorem timeRequest_round_trip :
    getInt .dstPort (Wire.processRecvdFrame timeRequest) = 5500 ∧
    strAt payloadOffset (Wire.processRecvdFrame timeRequest) = [116, 105, 109, 101, 63] ∧
    (∀ i, 12 ≤ i → i < 22 ∨ 26 ≤ i →
      (relayData timeRequest 1 (List.replicate ethFrameLen 0) 0x0B 0x0C)[i]? =
        timeRequest[i]?) ∧
    getInt .hopCount (slice 14 frameSize
      (relayData timeRequest 1 (List.replicate ethFrameLen 0) 0x0B 0x0C)) = 2 ^ 24 := by
  have hints : ∀ x ∈ [(3 : Int), 11, 0, 1440, 0, 909, 5500], IsInt32 x := by
    simp [IsInt32]
  have hfit : StringsFit [49, 48, 46, 48, 46, 48, 46, 51] [49, 48, 46, 48, 46, 48, 46, 49]
      [116, 105, 109, 101, 63] :=
    ⟨by decide, by decide, by decide, by decide, by decide, by decide⟩
  obtain ⟨heth, -, -, -, -, -, -, hport, -, -, hpayload⟩ :=
    wire_round_trip.1 _ _ _ _ _ _ _ _ _ _ (List.replicate ethFrameLen 0) 0x0A 0x0B hints hfit
      List.length_replicate
  obtain ⟨-, hrelay, hhops⟩ := wire_round_trip.2 timeRequest (List.replicate ethFrameLen 0) 0x0B
    0x0C 1 heth.length heth.proto List.length_replicate
  have hone : htonl 1 = 2 ^ 24 := by decide
  exact ⟨hport, hpayload, hrelay, (hhops (by decide)).trans hone⟩

end OnDemandRouting.Proofs
