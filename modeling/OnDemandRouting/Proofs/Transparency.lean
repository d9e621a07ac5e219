import OnDemandRouting.Model.Text
import OnDemandRouting.Model.Wiring
import OnDemandRouting.Proofs.WireCodec

/-!
# Messages that arrive as they were sent

A message passes two formats with commas between the fields and, on its way to another
node, the wire between them.  It arrives as it was sent, with the address and the port of
its sender, exactly when it is not empty and contains neither a comma nor a quote.
-/

namespace OnDemandRouting.Proofs

open OnDemandRouting.Lib
open OnDemandRouting.Model
open OnDemandRouting.Model.Wire (IsInt32)

/-! ## Strings that are fields, and strings that are bytes -/

/-- A string that a scanset reads as one field. -/
structure IsField (s : String) : Prop where
  ne_empty : s ≠ ""
  clean : ∀ c ∈ s.toList, notSeparator c = true

/-- A NUL-terminated string: its characters are bytes other than NUL. -/
def IsCString (s : String) : Prop := ∀ c ∈ s.toList, 0 < c.toNat ∧ c.toNat < 256

/-- The text form of an address. -/
def dottedQuad (a b c d : UInt8) : String :=
  String.ofList (Nat.toDigits 10 a.toNat ++ '.' :: (Nat.toDigits 10 b.toNat ++ '.' ::
    (Nat.toDigits 10 c.toNat ++ '.' :: Nat.toDigits 10 d.toNat)))

/-- The string is an address. -/
def IsDottedQuad (ip : Ip) : Prop := ∃ a b c d, ip = dottedQuad a b c d

section Strings

variable {s ip : String}

theorem isField_iff :
    IsField s ↔ s ≠ "" ∧ ',' ∉ s.toList ∧ '\x27' ∉ s.toList := by
  constructor
  · rintro ⟨hne, hclean⟩
    exact ⟨hne, fun h => absurd (hclean _ h) (by decide), fun h => absurd (hclean _ h) (by decide)⟩
  · rintro ⟨hne, hcomma, hquote⟩
    refine ⟨hne, fun c hc => ?_⟩
    have h₁ : c ≠ ',' := fun h => hcomma (h ▸ hc)
    have h₂ : c ≠ '\x27' := fun h => hquote (h ▸ hc)
    simp [notSeparator, h₁, h₂]

theorem toList_ne_nil (h : s ≠ "") : s.toList ≠ [] := by
  intro hnil
  exact h (String.toList_inj.mp hnil)

/-- The characters of an address. -/
theorem mem_dottedQuad {a b c d : UInt8} {ch : Char} (h : ch ∈ (dottedQuad a b c d).toList) :
    ch = '.' ∨ ch.isDigit = true := by
  simp only [dottedQuad, String.toList_ofList, List.mem_append, List.mem_cons] at h
  rcases h with h | rfl | h | rfl | h | rfl | h
  · exact .inr (isDigit_of_mem_toDigits_ten h)
  · exact .inl rfl
  · exact .inr (isDigit_of_mem_toDigits_ten h)
  · exact .inl rfl
  · exact .inr (isDigit_of_mem_toDigits_ten h)
  · exact .inl rfl
  · exact .inr (isDigit_of_mem_toDigits_ten h)

theorem toNat_of_isDigit {c : Char} (h : c.isDigit = true) : 48 ≤ c.toNat ∧ c.toNat ≤ 57 := by
  simpa [Char.isDigit, UInt32.le_iff_toNat_le] using h

theorem notSeparator_of_isDigit {c : Char} (h : c.isDigit = true) : notSeparator c = true := by
  have hrange := toNat_of_isDigit h
  have h₁ : c ≠ ',' := by
    rintro rfl
    exact absurd hrange (by decide)
  have h₂ : c ≠ '\x27' := by
    rintro rfl
    exact absurd hrange (by decide)
  simp [notSeparator, h₁, h₂]

theorem IsDottedQuad.isField (h : IsDottedQuad ip) : IsField ip := by
  obtain ⟨a, b, c, d, rfl⟩ := h
  refine ⟨fun hempty => ?_, fun ch hch => ?_⟩
  · have := congrArg String.toList hempty
    simp [dottedQuad] at this
  · rcases mem_dottedQuad hch with rfl | h
    · decide
    · exact notSeparator_of_isDigit h

theorem IsDottedQuad.isCString (h : IsDottedQuad ip) : IsCString ip := by
  obtain ⟨a, b, c, d, rfl⟩ := h
  intro ch hch
  rcases mem_dottedQuad hch with rfl | h
  · decide
  · have := toNat_of_isDigit h
    omega

theorem IsDottedQuad.length_le (h : IsDottedQuad ip) : ip.toList.length ≤ 15 := by
  obtain ⟨a, b, c, d, rfl⟩ := h
  have hbyte (n : UInt8) : (Nat.toDigits 10 n.toNat).length ≤ 3 := by
    have := n.toNat_lt
    exact (Nat.length_toDigits_le_iff (by decide) (by decide)).mpr (by omega)
  have := hbyte a
  have := hbyte b
  have := hbyte c
  have := hbyte d
  simp only [dottedQuad, String.toList_ofList, List.length_append, List.length_cons]
  omega

theorem text_bytes (h : IsCString s) : Wire.text (Wire.bytes s) = s := by
  have hchar : ∀ c ∈ s.toList, Char.ofNat (UInt8.ofNat c.toNat).toNat = c := by
    intro c hc
    rw [UInt8.toNat_ofNat_of_lt' (h c hc).2, Char.ofNat_toNat]
  have hmap : (Wire.bytes s).map (fun b => Char.ofNat b.toNat) = s.toList := by
    rw [Wire.bytes, List.map_map]
    exact (List.map_congr_left hchar).trans (List.map_id _)
  rw [Wire.text, hmap, String.ofList_toList]

theorem zero_notMem_bytes (h : IsCString s) : 0 ∉ Wire.bytes s := by
  intro hmem
  obtain ⟨c, hc, hzero⟩ := List.mem_map.mp hmem
  have hnat := congrArg UInt8.toNat hzero
  rw [UInt8.toNat_ofNat_of_lt' (h c hc).2] at hnat
  have := (h c hc).1
  simp at hnat
  omega

theorem length_bytes (s : String) : (Wire.bytes s).length = s.toList.length :=
  List.length_map ..

end Strings

/-! ## The two formats -/

section Formats

variable {destip srcIp msg path payload : String} {destport flag : Int}

theorem notSeparator_of_mem_formatInt {x : Int} {c : Char} (h : c ∈ formatInt x) :
    notSeparator c = true := by
  rcases mem_formatInt h with rfl | h
  · decide
  · exact notSeparator_of_isDigit h

theorem sscanf_isField {fmt : List Directive} {rest : List Char} (h : IsField msg) :
    sscanf (.set notSeparator :: .literal ',' :: fmt) (msg.toList ++ ',' :: rest) =
      msg.toList :: sscanf fmt rest :=
  sscanf_field (toList_ne_nil h.ne_empty) h.clean (by decide)

theorem sscanf_formatInt {x : Int} {fmt : List Directive} {rest : List Char} :
    sscanf (.set notSeparator :: .literal ',' :: fmt) (formatInt x ++ ',' :: rest) =
      formatInt x :: sscanf fmt rest :=
  sscanf_field (formatInt_ne_nil x) (fun _ h => notSeparator_of_mem_formatInt h) (by decide)

theorem sscanf_lastInt (x : Int) : sscanf [.word] (formatInt x ++ ['\n']) = [formatInt x] :=
  sscanf_word (formatInt_ne_nil x) (fun _ h => isSpace_of_mem_formatInt h) (by decide)

/-- A request whose message is a field is scanned as it was printed. -/
theorem getSendParams_msgSend (hdest : IsField destip) (hmsg : IsField msg)
    (hpath : IsField path) :
    getSendParams (msgSend destip destport msg flag path) =
      some { destip := destip
             filename := path
             msg := msg
             destport := destport
             routeDiscFlag := flag } := by
  have hscan : sscanf sendFormat (msgSend destip destport msg flag path).toList =
      [destip.toList, formatInt destport, msg.toList, path.toList, formatInt flag] := by
    rw [msgSend, String.toList_ofList, sendFormat, sscanf_isField hdest, sscanf_formatInt,
      sscanf_isField hmsg, sscanf_isField hpath, sscanf_lastInt]
  rw [getSendParams, hscan]
  simp only [String.ofList_toList, atoi_formatInt]

/-- Whatever the message, only its part before the first separator is taken, and there is
one. -/
theorem msg_of_getSendParams {sparams : SendParams} (hdest : IsField destip)
    (h : getSendParams (msgSend destip destport msg flag path) = some sparams) :
    sparams.destip = destip ∧ IsField sparams.msg ∧
      sparams.msg.toList = msg.toList.takeWhile notSeparator := by
  have hscan : sscanf sendFormat (msgSend destip destport msg flag path).toList =
      destip.toList :: formatInt destport ::
        sscanf [.set notSeparator, .literal ',', .set notSeparator, .literal ',', .word]
          (msg.toList ++ ',' :: (path.toList ++ ',' :: (formatInt flag ++ ['\n']))) := by
    rw [msgSend, String.toList_ofList, sendFormat, sscanf_isField hdest, sscanf_formatInt]
  rw [getSendParams, hscan] at h
  split at h
  · next dstip dstport msg' filename flag' hfields =>
      obtain ⟨rfl, -, hrest⟩ := by simpa only [List.cons.injEq] using hfields
      obtain ⟨hne, tail, htail⟩ := sscanf_set_head (by rw [hrest]; simp) (by decide)
      obtain ⟨rfl, -⟩ := List.cons.inj (hrest.symm.trans htail)
      obtain rfl := Option.some.inj h
      refine ⟨String.ofList_toList, ⟨fun hempty => ?_, fun c hc => ?_⟩, String.toList_ofList⟩
      · exact hne (by simpa using congrArg String.toList hempty)
      · rw [String.toList_ofList] at hc
        exact List.mem_takeWhile_imp hc
  · simp at h

/-- A message that is a field reaches the application. -/
theorem msgRecv_peerSequence {srcPort : Int} (hsrc : IsField srcIp) (hpayload : IsField payload) :
    msgRecv (peerSequence srcIp srcPort payload) =
      some { msg := payload, cliIp := srcIp, port := srcPort } := by
  have hscan : sscanf recvFormat (peerSequence srcIp srcPort payload).toList =
      [srcIp.toList, formatInt srcPort, payload.toList, formatInt 0] := by
    rw [peerSequence, String.toList_ofList, recvFormat, sscanf_isField hsrc, sscanf_formatInt,
      sscanf_isField hpayload, sscanf_lastInt]
  rw [msgRecv, hscan]
  simp only [String.ofList_toList, atoi_formatInt]

end Formats

/-! ## The two ways -/

section Paths

variable {cfg : Config} {env : Env} {st : NodeState} {via : Carriage}
  {destPorts ports : List MapPortSp} {str : String} {sparams : SendParams} {r : MsgParams}
  {mapEntry : MapPortSp} {nextPortno : Int} {event : PeerEvent}

/-- The message an application is handed is the payload, if anything. -/
theorem msg_of_received {path : String} {m : AppMsg} (hsrc : IsField m.srcIp)
    (hpayload : IsField m.payload) (hevent : (sendToPeerProcess env path m).received = some r) :
    r.msg = m.payload := by
  unfold sendToPeerProcess at hevent
  split_ifs at hevent
  · rw [PeerEvent.received, msgRecv_peerSequence hsrc hpayload] at hevent
    rw [← Option.some.inj hevent]
  · simp [PeerEvent.received] at hevent

theorem received_of_succeeds (henv : env.Succeeds) (path : String) (m : AppMsg) :
    (sendToPeerProcess env path m).received =
      msgRecv (peerSequence m.srcIp m.srcPort m.payload) := by
  rw [sendToPeerProcess, if_pos henv.peerOk, PeerEvent.received]

/-- Registering a path loses no port. -/
theorem fetchEntryPort_of_fetchEntryPath {path : String} {port : Int} {e : MapPortSp}
    (hpath : fetchEntryPath path st.ports st.nextPortno = some (mapEntry, ports, nextPortno))
    (hport : fetchEntryPort port st.ports = some e) :
    ∃ e', fetchEntryPort port ports = some e' := by
  obtain ⟨hmem, hkey⟩ := mem_of_findKey hport
  refine findKey_isSome_of_mem (a := e) ?_ hkey
  rw [fetchEntryPath, if_neg (List.ne_nil_of_mem hmem)] at hpath
  split at hpath
  · obtain ⟨-, rfl, -⟩ := by simpa only [Option.some.injEq, Prod.mk.injEq] using hpath
    exact hmem
  · obtain ⟨-, rfl, -⟩ := by simpa only [Option.some.injEq, Prod.mk.injEq] using hpath
    exact List.mem_cons_of_mem _ hmem

theorem localPath_of_scanned (henv : env.Succeeds) (hself : cfg.selfIp = sparams.destip)
    (hget : getSendParams str = some sparams)
    (hpath : fetchEntryPath sparams.filename st.ports st.nextPortno =
      some (mapEntry, ports, nextPortno))
    (hport : ∃ e, fetchEntryPort sparams.destport ports = some e) :
    localPath cfg env st str =
      msgRecv (peerSequence cfg.selfIp mapEntry.portno sparams.msg) := by
  obtain ⟨e, he⟩ := hport
  have hevents : (handlePeerMsg cfg env sparams st).events =
      [sendToPeerProcess env e.sunPath (sparams.message cfg.selfIp mapEntry.portno)] := by
    simp [handlePeerMsg, hpath, henv.resolves, hself, handleLocalMsg, he]
  rw [localPath, hget]
  simp only [hevents, received_of_succeeds henv]
  rfl

theorem msg_of_localPath (hself : cfg.selfIp = sparams.destip)
    (hget : getSendParams str = some sparams) (hip : IsField cfg.selfIp)
    (hmsg : IsField sparams.msg) (h : localPath cfg env st str = some r) :
    r.msg = sparams.msg := by
  rw [localPath, hget] at h
  simp only [handlePeerMsg] at h
  split at h
  · next event hevents =>
      split at hevents
      · simp at hevents
      · split_ifs at hevents
        · unfold handleLocalMsg at hevents
          split at hevents
          · simp at hevents
          · obtain rfl := List.singleton_inj.mp hevents
            exact msg_of_received hip hmsg h
  · simp at h

theorem stringsFit_of_scanned (hself : IsDottedQuad cfg.selfIp)
    (hdest : IsDottedQuad sparams.destip) (hmsg : IsCString sparams.msg)
    (hlen : sparams.msg.toList.length ≤ 1439) :
    StringsFit (Wire.bytes sparams.destip) (Wire.bytes cfg.selfIp) (Wire.bytes sparams.msg) where
  dstip_nul := zero_notMem_bytes hdest.isCString
  dstip_len := by
    rw [length_bytes]
    exact hdest.length_le
  srcip_nul := zero_notMem_bytes hself.isCString
  srcip_len := by
    rw [length_bytes]
    exact hself.length_le
  payload_nul := zero_notMem_bytes hmsg
  payload_len := by
    rw [length_bytes]
    exact hlen

/-- What the wire leaves of a request. -/
theorem carry_spec (sparams : SendParams) (hself : IsDottedQuad cfg.selfIp)
    (hdest : IsDottedQuad sparams.destip) (hmsg : IsCString sparams.msg)
    (hlen : sparams.msg.toList.length ≤ 1439) (hbuf : via.buffer.length = Wire.ethFrameLen)
    (portno : Int) :
    (carry via cfg.selfIp portno sparams).srcIp = cfg.selfIp ∧
      (carry via cfg.selfIp portno sparams).payload = sparams.msg ∧
      (IsInt32 portno → (carry via cfg.selfIp portno sparams).srcPort = portno) ∧
      (IsInt32 sparams.destport →
        (carry via cfg.selfIp portno sparams).dstPort = sparams.destport) := by
  have hfit := stringsFit_of_scanned hself hdest hmsg hlen
  obtain ⟨frame, hframe⟩ : ∃ frame, frame = Wire.processRecvdFrame (Wire.sendRawFrame via.buffer
      via.srcMac via.destMac (Wire.constructOdr FrameType.data.toInt via.broadcastId via.hopCount
        payloadSize via.routeDiscFlag portno sparams.destport (Wire.bytes sparams.destip)
        (Wire.bytes cfg.selfIp) (Wire.bytes sparams.msg))) := ⟨_, rfl⟩
  have hcarry : carry via cfg.selfIp portno sparams = Wire.odrFrameAt frame := by
    rw [hframe]
    rfl
  obtain ⟨hargs, -, hsrc, hpayload⟩ := processRecvdFrame_of_constructOdr hfit hbuf hframe
  rw [hcarry]
  refine ⟨?_, ?_, fun hport => hargs .srcPort portno (by simp [odrArgs]) hport,
    fun hport => hargs .dstPort sparams.destport (by simp [odrArgs]) hport⟩
  · simp only [Wire.odrFrameAt, hsrc, text_bytes hself.isCString]
  · simp only [Wire.odrFrameAt, hpayload, if_true, text_bytes hmsg]

/-- What `process_data_message` hands over is the payload, if anything. -/
theorem msg_of_processDataMessage {f : OdrFrame} (hsrc : IsField f.srcIp)
    (hpayload : IsField f.payload)
    (h : (processDataMessage env destPorts f).received = some r) : r.msg = f.payload := by
  unfold processDataMessage at h
  split at h
  · simp [PeerEvent.received] at h
  · exact msg_of_received (m := f.message) hsrc hpayload h

theorem received_processDataMessage {f : OdrFrame} {e : MapPortSp} (henv : env.Succeeds)
    (hport : fetchEntryPort f.dstPort destPorts = some e) :
    (processDataMessage env destPorts f).received =
      msgRecv (peerSequence f.srcIp f.srcPort f.payload) := by
  rw [processDataMessage, hport]
  exact received_of_succeeds henv e.sunPath f.message

theorem remotePath_of_scanned (henv : env.Succeeds) (hself : IsDottedQuad cfg.selfIp)
    (hdest : IsDottedQuad sparams.destip) (hmsg : IsCString sparams.msg)
    (hlen : sparams.msg.toList.length ≤ 1439) (hbuf : via.buffer.length = Wire.ethFrameLen)
    (hget : getSendParams str = some sparams)
    (hpath : fetchEntryPath sparams.filename st.ports st.nextPortno =
      some (mapEntry, ports, nextPortno))
    (hportno : IsInt32 mapEntry.portno) (hdestport : IsInt32 sparams.destport)
    (hport : ∃ e, fetchEntryPort sparams.destport destPorts = some e) :
    remotePath cfg env st via destPorts str =
      msgRecv (peerSequence cfg.selfIp mapEntry.portno sparams.msg) := by
  obtain ⟨e, he⟩ := hport
  obtain ⟨hsrc, hpayload, hsrcPort, hdstPort⟩ :=
    carry_spec sparams hself hdest hmsg hlen hbuf mapEntry.portno
  have hfetch : fetchEntryPort (carry via cfg.selfIp mapEntry.portno sparams).dstPort destPorts =
      some e := by
    rw [hdstPort hdestport]
    exact he
  simp only [remotePath, hget, hpath]
  rw [received_processDataMessage henv hfetch, hsrc, hpayload, hsrcPort hportno]

theorem msg_of_remotePath (hself : IsDottedQuad cfg.selfIp) (hdest : IsDottedQuad sparams.destip)
    (hmsg : IsCString sparams.msg) (hlen : sparams.msg.toList.length ≤ 1439)
    (hbuf : via.buffer.length = Wire.ethFrameLen) (hget : getSendParams str = some sparams)
    (hfield : IsField sparams.msg) (h : remotePath cfg env st via destPorts str = some r) :
    r.msg = sparams.msg := by
  rw [remotePath, hget] at h
  simp only at h
  split at h
  · simp at h
  · next entry _ _ _ =>
      obtain ⟨hsrc, hpayload, -⟩ := carry_spec sparams hself hdest hmsg hlen hbuf entry.portno
      have heq := msg_of_processDataMessage (by rw [hsrc]; exact hself.isField)
        (by rw [hpayload]; exact hfield) h
      exact heq.trans hpayload

end Paths

/-! ## Both ways, for every message -/

section Transparent

variable {cfg : Config} {env : Env} {st : NodeState} {msg path : String} {destport flag : Int}
  {mapEntry : MapPortSp} {ports : List MapPortSp} {nextPortno : Int}

theorem isCString_of_takeWhile {msg' : String} (hmsg : IsCString msg)
    (htake : msg'.toList = msg.toList.takeWhile notSeparator) : IsCString msg' := by
  intro c hc
  rw [htake] at hc
  exact hmsg c ((List.takeWhile_sublist _).subset hc)

theorem localPath_transparent_iff (henv : env.Succeeds) (hself : IsDottedQuad cfg.selfIp)
    (hpath : IsField path)
    (hsender : fetchEntryPath path st.ports st.nextPortno = some (mapEntry, ports, nextPortno))
    (hport : ∃ e, fetchEntryPort destport st.ports = some e) :
    localPath cfg env st (msgSend cfg.selfIp destport msg flag path) =
        some { msg := msg, cliIp := cfg.selfIp, port := mapEntry.portno } ↔ IsField msg := by
  constructor
  · intro h
    cases hget : getSendParams (msgSend cfg.selfIp destport msg flag path) with
    | none => simp [localPath, hget] at h
    | some sparams =>
        obtain ⟨hdest, hfield, -⟩ := msg_of_getSendParams hself.isField hget
        have heq : msg = sparams.msg := msg_of_localPath hdest.symm hget hself.isField hfield h
        exact heq ▸ hfield
  · intro hmsg
    obtain ⟨e, he⟩ := hport
    rw [localPath_of_scanned henv rfl (getSendParams_msgSend hself.isField hmsg hpath) hsender
      (fetchEntryPort_of_fetchEntryPath hsender he)]
    exact msgRecv_peerSequence hself.isField hmsg

theorem remotePath_transparent_iff {destip : Ip} {destPorts : List MapPortSp} {via : Carriage}
    (henv : env.Succeeds) (hself : IsDottedQuad cfg.selfIp) (hdest : IsDottedQuad destip)
    (hpath : IsField path) (hmsg : IsCString msg) (hlen : msg.length ≤ 1439)
    (hsender : fetchEntryPath path st.ports st.nextPortno = some (mapEntry, ports, nextPortno))
    (hportno : IsInt32 mapEntry.portno) (hdestport : IsInt32 destport)
    (hport : ∃ e, fetchEntryPort destport destPorts = some e)
    (hbuf : via.buffer.length = Wire.ethFrameLen) :
    remotePath cfg env st via destPorts (msgSend destip destport msg flag path) =
        some { msg := msg, cliIp := cfg.selfIp, port := mapEntry.portno } ↔ IsField msg := by
  rw [← String.length_toList] at hlen
  constructor
  · intro h
    cases hget : getSendParams (msgSend destip destport msg flag path) with
    | none => simp [remotePath, hget] at h
    | some sparams =>
        obtain ⟨hdestip, hfield, htake⟩ := msg_of_getSendParams hdest.isField hget
        have hlen' : sparams.msg.toList.length ≤ 1439 := by
          rw [htake]
          exact ((List.takeWhile_sublist _).length_le).trans hlen
        have heq : msg = sparams.msg := msg_of_remotePath hself (hdestip.symm ▸ hdest)
          (isCString_of_takeWhile hmsg htake) hlen' hbuf hget hfield h
        exact heq ▸ hfield
  · intro hfield
    rw [remotePath_of_scanned henv hself hdest hmsg hlen hbuf
      (getSendParams_msgSend hdest.isField hfield hpath) hsender hportno hdestport hport]
    exact msgRecv_peerSequence hself.isField hfield

/-- A text of `msg_send` is scanned, carried within the node or to another one, printed and
scanned again.  The application it is for reads the same message, the sender's address and
the sender's port exactly when the message is not empty and holds neither a comma nor a
quote. -/
theorem message_transparent_iff (henv : env.Succeeds) (hself : IsDottedQuad cfg.selfIp)
    (hpath : path ≠ "" ∧ ',' ∉ path.toList ∧ '\x27' ∉ path.toList)
    (hmsg : IsCString msg) (hlen : msg.length ≤ 1439)
    (hsender : fetchEntryPath path st.ports st.nextPortno = some (mapEntry, ports, nextPortno))
    (hportno : IsInt32 mapEntry.portno) (hdestport : IsInt32 destport) :
    ((∃ e, fetchEntryPort destport st.ports = some e) →
      (localPath cfg env st (msgSend cfg.selfIp destport msg flag path) =
          some { msg := msg, cliIp := cfg.selfIp, port := mapEntry.portno } ↔
        msg ≠ "" ∧ ',' ∉ msg.toList ∧ '\x27' ∉ msg.toList)) ∧
    ∀ (destip : Ip) (destPorts : List MapPortSp) (via : Carriage), IsDottedQuad destip →
      (∃ e, fetchEntryPort destport destPorts = some e) →
      via.buffer.length = Wire.ethFrameLen →
      (remotePath cfg env st via destPorts (msgSend destip destport msg flag path) =
          some { msg := msg, cliIp := cfg.selfIp, port := mapEntry.portno } ↔
        msg ≠ "" ∧ ',' ∉ msg.toList ∧ '\x27' ∉ msg.toList) := by
  rw [← isField_iff] at hpath ⊢
  exact ⟨fun hport => localPath_transparent_iff henv hself hpath hsender hport,
    fun destip destPorts via hdest hport hbuf => remotePath_transparent_iff henv hself hdest hpath
      hmsg hlen hsender hportno hdestport hport hbuf⟩

end Transparent

/-- The first client of node 0 of the line asks the server of node 0, and that of node 2. -/
theorem timeMessage_transparent :
    localPath (lineNet.cfg 0) (.reliable 0) .initial
        (msgSend "10.0.0.1" servPort "time?" 0 "/tmp/client") =
      some { msg := "time?", cliIp := "10.0.0.1", port := 909 } ∧
    remotePath (lineNet.cfg 0) (.reliable 0) .initial
        { broadcastId := 11, hopCount := 0, routeDiscFlag := 0, srcMac := 0x0A, destMac := 0x0B,
          buffer := List.replicate Wire.ethFrameLen 0 }
        NodeState.initial.ports (msgSend "10.0.0.3" servPort "time?" 0 "/tmp/client") =
      some { msg := "time?", cliIp := "10.0.0.1", port := 909 } := by
  have hself : IsDottedQuad (lineNet.cfg 0).selfIp := ⟨10, 0, 0, 1, by decide +kernel⟩
  have hport : ∃ e, fetchEntryPort servPort NodeState.initial.ports = some e := ⟨_, rfl⟩
  have hmsg : IsCString "time?" := by
    have hall : "time?".toList.all (fun c => decide (0 < c.toNat ∧ c.toNat < 256)) = true := by
      decide +kernel
    exact fun c hc => of_decide_eq_true (List.all_eq_true.mp hall c hc)
  have hsender : fetchEntryPath "/tmp/client" NodeState.initial.ports
      NodeState.initial.nextPortno = some (⟨909, "/tmp/client"⟩,
        ⟨909, "/tmp/client"⟩ :: NodeState.initial.ports, 910) := rfl
  have hdest : IsDottedQuad "10.0.0.3" := ⟨10, 0, 0, 3, by decide +kernel⟩
  exact ⟨((message_transparent_iff (Env.reliable_succeeds 0) hself (by decide) hmsg (by decide)
      hsender (by decide) (by decide)).1 hport).mpr (by decide),
    ((message_transparent_iff (Env.reliable_succeeds 0) hself (by decide) hmsg (by decide)
      hsender (by decide) (by decide)).2 _ _ _ hdest hport List.length_replicate).mpr
        (by decide)⟩

end OnDemandRouting.Proofs
