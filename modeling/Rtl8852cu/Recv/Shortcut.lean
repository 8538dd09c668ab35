import Rtl8852cu.Recv.Forged

/-!
# The receive shortcut

`core/rtw_recv_shortcut.c`, and the part of `core/rtw_recv.c` it replaces: `validate_recv_frame` up to
the address check, `rtw_recv_llc_parse`, `wlanhdr_to_ethhdr` and `core_rx_process_msdu`.

`wlanhdr_to_ethhdr` caches where the payload of a frame began, its Ethernet header and its attributes.
A later frame with the same three addresses and the same LLC header at that place is delivered with
what was cached: of all that the slow path checks, only the packet number of a CCMP frame is looked
at again.  `Conform` lists what has to be true of the frame, and `shortcut_agrees_iff` says that the slow
path delivers the same exactly then; a retransmission, which the slow path drops, is delivered twice.
-/

namespace Rtl8852cu.Recv

/-! ### The slow path -/

/-- The `n` bytes at offset `i`. -/
def bytesAt (d : List UInt8) (i n : ℕ) : List UInt8 := (List.range n).map fun j => byteAt d (i + j)

/-- `_rtw_memcpy` to the start of a buffer. -/
def overwrite (d hdr : List UInt8) : List UInt8 := (hdr ++ d.drop hdr.length).take d.length

/-- The frame control field: bits of its two bytes. -/
def RecvFrame.fcBit (f : RecvFrame) (byte bit : ℕ) : Bool :=
  (byteAt f.rxData byte).toNat.testBit bit

def RecvFrame.ver (f : RecvFrame) : ℕ := (byteAt f.rxData 0).toNat % 4

/-- `GetFrameType(pframe) == WIFI_DATA_TYPE`. -/
def RecvFrame.isData (f : RecvFrame) : Bool := (byteAt f.rxData 0).toNat / 4 % 4 = 2

/-- What `validate_recv_frame` takes from the header of a data frame. -/
def parseHeader (f : RecvFrame) : RecvFrame :=
  let sc := (byteAt f.rxData 22).toNat + 256 * (byteAt f.rxData 23).toNat
  { f with
    attrib :=
      { f.attrib with
        toFrDs := 2 * (f.fcBit 1 0).toNat + (f.fcBit 1 1).toNat
        fragNum := sc % 16
        seqNum := sc / 16
        mfrag := f.fcBit 1 2
        privacy := f.fcBit 1 6
        order := f.fcBit 1 7
        qos := f.fcBit 0 7 } }

/-- `validate_recv_frame`; only a data frame can pass. -/
def validateRecvFrameData (env : RxEnv) (f : RecvFrame) (st : RecvPriv) : Option (StaId × RecvFrame) × RecvPriv :=
  if f.ver ≠ 0 ∨ ¬ f.isData then (none, st) else validateRecvDataFrame env (parseHeader f) st

inductive RxLlcHdl where
  | keep
  | remove
  deriving DecidableEq, Repr

def rfc1042Header : List UInt8 := [0xaa, 0xaa, 0x03, 0x00, 0x00, 0x00]
def bridgeTunnelHeader : List UInt8 := [0xaa, 0xaa, 0x03, 0x00, 0x00, 0xf8]
def ethPAarp : ℕ := 0x80f3
def ethPIpx : ℕ := 0x8137
def ethPArp : ℕ := 0x0806

/-- The 16 bits at offset `i`, the high byte first. -/
def be16At (d : List UInt8) (i : ℕ) : ℕ := (byteAt d i).toNat * 256 + (byteAt d (i + 1)).toNat

def RxPktAttrib.msduOffset (a : RxPktAttrib) : ℕ := a.hdrlen + a.ivLen

def RxPktAttrib.trailer (a : RxPktAttrib) : ℕ := if a.encrypt = .noPrivacy then 0 else a.icvLen

/-- `msdu_len`, a `u16`. -/
def RecvFrame.msduLen (f : RecvFrame) : ℕ :=
  (f.len + 2 ^ 32 - f.attrib.msduOffset - f.attrib.trailer) % 2 ^ 16

/-- `rtw_recv_llc_parse`, of the MSDU of a frame. -/
def rtwRecvLlcParse (f : RecvFrame) : RxLlcHdl :=
  let off := f.attrib.msduOffset
  let ethType := be16At f.rxData (off + 6)
  if f.msduLen < 8 then .keep
  else if (bytesAt f.rxData off 6 = rfc1042Header ∧ ethType ≠ ethPAarp ∧ ethType ≠ ethPIpx) ∨
      bytesAt f.rxData off 6 = bridgeTunnelHeader then .remove
  else .keep

/-- `rmv_len` of `wlanhdr_to_ethhdr`. -/
def RxPktAttrib.rmvLen (a : RxPktAttrib) (llc : RxLlcHdl) : ℕ :=
  a.msduOffset + if llc = .remove then 6 else 0

/-- The attributes `wlanhdr_to_ethhdr` adds.  The bytes of the tail it has pulled are still there. -/
def setEthType (llc : RxLlcHdl) (f : RecvFrame) : RecvFrame :=
  { f with
    attrib :=
      { f.attrib with
        ethType := be16At f.rxData (f.attrib.rmvLen llc)
        bsnaphdr := decide (llc = .remove) } }

/-- `wlanhdr_to_ethhdr`; `none` is `_FAIL`. -/
def wlanhdrToEthhdr (llc : RxLlcHdl) (f : RecvFrame) : Option RecvFrame :=
  let f := setEthType llc f
  let f := if f.attrib.encrypt = .noPrivacy then f else recvframePullTail f f.attrib.icvLen
  let sz := f.attrib.rmvLen llc - 14 + if llc = .remove then 2 else 0
  let len := f.len - f.attrib.rmvLen llc
  if f.len < sz then none
  else
    let hdr := f.attrib.dst ++ f.attrib.src ++
      if llc = .remove then [] else [UInt8.ofNat (len / 256), UInt8.ofNat len]
    some { f with rxData := overwrite (f.rxData.drop sz) hdr }

/-- What `rtw_ap_rx_msdu_act_check` has done with an MSDU. -/
structure MsduAct where
  indicate : Bool
  forward : Bool
  deriving DecidableEq, Repr

/-- What the two paths look at beside an `RxEnv`: the station of an address, and what becomes of an
MSDU from a station by its destination and source (it is indicated unless the interface is an AP). -/
structure RxscEnv extends RxEnv where
  getStainfo : List UInt8 → Option StaId
  msduAct : Option StaId → List UInt8 → List UInt8 → MsduAct

/-- What becomes of a frame; `indicated` is a packet given to the OS with the attributes it has then, and
whether it is forwarded as well. -/
inductive RxResult where
  | dropped
  | queued
  | amsdu (f : RecvFrame)
  | forwarded
  | indicated (f : RecvFrame) (forward : Bool)
  deriving DecidableEq

def coreRxProcessMsdu (env : RxscEnv) (f : RecvFrame) : RxResult :=
  let llc := rtwRecvLlcParse f
  let act := env.msduAct f.psta f.attrib.dst f.attrib.src
  if ¬ act.indicate ∧ ¬ act.forward then .dropped
  else
    match wlanhdrToEthhdr llc f with
    | none => .dropped
    | some f => if act.indicate then .indicated f act.forward else .forwarded

/-- `rtw_core_rx_process` without the shortcut. -/
def slowPath (env : RxscEnv) (f : RecvFrame) (st : RecvPriv) : RxResult :=
  match validateRecvFrameData env.toRxEnv f st with
  | (none, _) => .dropped
  | (some (s, f), st) =>
    match (rxDataPreProcess env.toRxEnv s f st).1 with
    | .passed f => if f.attrib.amsdu then .amsdu f else coreRxProcessMsdu env f
    | .queued => .queued
    | _ => .dropped

/-! ### The cache -/

/-- `struct core_rxsc_entry`: `addrs` is `addr1` to `addr3` of `rxsc_wlanhdr`. -/
structure RxscEntry where
  payloadOffset : ℕ
  trimPad : ℕ
  addrs : List UInt8
  ethhdr : List UInt8
  attrib : RxPktAttrib
  deriving DecidableEq

def coreRxscCheckAlloc (f : RecvFrame) : Bool :=
  let a := f.attrib
  ¬ a.amsdu ∧ a.bdecrypted ∧ ¬ a.mfrag ∧ a.toFrDs ≠ 3 ∧ a.bsnaphdr ∧
    a.ethType ≠ ethPArp ∧ a.ethType ≠ eapolType ∧ a.ethType ≠ 0x8899 ∧
    f.psta.isSome ∧ ¬ isMcast a.ra ∧ ¬ isMcast a.dst

/-- The entry `wlanhdr_to_ethhdr` fills when the frame is converted. -/
def cachedEntry (llc : RxLlcHdl) (f : RecvFrame) : Option RxscEntry :=
  let g := setEthType llc f
  let payloadOffset := g.attrib.rmvLen llc - 14 + if g.attrib.bsnaphdr then 2 else 0
  if coreRxscCheckAlloc g ∧ (wlanhdrToEthhdr llc f).isSome then
    some
      { payloadOffset
        trimPad := g.attrib.trailer
        addrs := bytesAt g.rxData 4 18
        -- the ether type of the LLC header is in its place behind the addresses
        ethhdr := g.attrib.dst ++ g.attrib.src ++ bytesAt g.rxData (payloadOffset + 12) 2
        attrib := g.attrib }
  else none

/-- The valid entries of a station in the order in which `core_rxsc_get_entry` goes over them. -/
abbrev RxscCache := StaId → List RxscEntry

/-- The comparison of `core_rxsc_get_entry`. -/
def rxscEqual (f : RecvFrame) (e : RxscEntry) : Bool :=
  bytesAt f.rxData 4 18 = e.addrs ∧ bytesAt f.rxData (e.payloadOffset + 6) 6 = rfc1042Header ∧
    bytesAt f.rxData (e.payloadOffset + 12) 2 = (e.ethhdr.drop 12).take 2

def coreRxscGetEntry (env : RxscEnv) (cache : RxscCache) (f : RecvFrame) : Option (StaId × RxscEntry) :=
  if f.isData then
    match env.getStainfo (bytesAt f.rxData 10 6) with
    | none => none
    | some s => ((cache s).find? (rxscEqual f)).map fun e => (s, e)
  else none

/-- The attributes of a frame on the shortcut. -/
def rxscAttrib (e : RxscEntry) (f : RecvFrame) : RecvFrame :=
  { f with
    attrib := if e.attrib.encrypt = .aes
      then { e.attrib with
        priority := if e.attrib.qos then (byteAt f.rxData 24).toNat % 16 else 0 }
      else e.attrib }

/-- The packet number check of `core_rxsc_apply_shortcut`. -/
def rxscPnDecache (env : RxscEnv) (s : StaId) (f : RecvFrame) (st : RecvPriv) : Bool :=
  if f.attrib.encrypt = .aes then (pnDecache env.toRxEnv s f st).1 else true

/-- `core_rxsc_apply_shortcut`: the packet given to the OS, `none` when nothing is (the slow path takes
a frame that fails the check; a frame too short to be pulled makes the source write to NULL). -/
def coreRxscApplyShortcut (env : RxscEnv) (s : StaId) (e : RxscEntry) (f : RecvFrame)
    (st : RecvPriv) : Option RecvFrame :=
  let f := rxscAttrib e f
  if ¬ rxscPnDecache env s f st then none
  else
    let f := if e.trimPad = 0 then f else recvframePullTail f e.trimPad
    if f.len < e.payloadOffset then none
    else some { f with
      psta := some s, rxData := overwrite (f.rxData.drop e.payloadOffset) e.ethhdr }

/-! ### Agreement -/

/-- The entry was filled from an earlier frame. -/
def Filled (e : RxscEntry) : Prop :=
  ∃ llc f, f.attrib.dst.length = 6 ∧ f.attrib.src.length = 6 ∧ cachedEntry llc f = some e

/-- The same attributes but for the number of the frame and the key it was protected with. -/
def SameAttrib (a b : RxPktAttrib) : Prop :=
  { a with seqNum := 0, keyIndex := 0 } = { b with seqNum := 0, keyIndex := 0 }

/-- The attributes the header of a frame decides: without those that are set on the way, and without
the TID where the shortcut takes it from the frame. -/
def RxPktAttrib.fromHeader (a : RxPktAttrib) : RxPktAttrib :=
  { a with
    seqNum := 0, keyIndex := 0, bdecrypted := true, ethType := 0, bsnaphdr := true
    priority := if a.encrypt = .aes then 0 else a.priority }

/-- The slow path gives the OS, and nobody else, the packet `d` of the same station and attributes. -/
def DeliversToo (env : RxscEnv) (f : RecvFrame) (st : RecvPriv) (d : RecvFrame) : Prop :=
  ∃ d', slowPath env f st = .indicated d' false ∧ d'.psta = d.psta ∧ d'.rxData = d.rxData ∧
    SameAttrib d'.attrib d.attrib

/-- The ciphers of the software decrypt a frame in place. -/
def DecryptsInPlace (env : RxEnv) : Prop :=
  ∀ f g, swDecrypt env f = some g → ∃ x : List UInt8, x.length = f.len ∧ g = { f with rxData := x }

/-- The frames that wait to be put together are followed by a fragment. -/
def QueuesFragments (st : RecvPriv) : Prop := ∀ s, ∀ g ∈ st.defragQ s, g.attrib.mfrag = true

/-- The bytes that are left when `n` are pulled from the tail. -/
def withoutTail (d : List UInt8) (n : ℕ) : List UInt8 :=
  d.take (if n ≤ d.length then d.length - n else d.length)

/-- A frame from `s` as it is before decryption, `a` being what the address check gives. -/
def validated (env : RxscEnv) (s : StaId) (f : RecvFrame) (a : RxPktAttrib) : RecvFrame :=
  setEncrypt env.toRxEnv s (parseQc s { f with attrib := a })

/-- What the shortcut leaves unchecked of a frame from `s` whose address check gives `a`, and whose bytes
are `x` when it is decrypted. -/
structure Conform (env : RxscEnv) (s : StaId) (e : RxscEntry) (f : RecvFrame) (st : RecvPriv)
    (a : RxPktAttrib) (x : List UInt8) : Prop where
  version : f.ver = 0
  addresses : env.validateHdr (setAmsdu (parseHeader f)) = .success (some s) a
  /-- The bits of the header the key leaves out, and the cipher of the station, are as they were. -/
  header : (validated env s f a).attrib.fromHeader = e.attrib.fromHeader
  unfragmented : a.fragNum = 0
  /-- No duplicate. -/
  fresh : (recvDecache (st.sta s) (parseQc s { f with attrib := a }).attrib).isSome
  plaintext : plaintextDrop env.toRxEnv s (validated env s f a) = false
  /-- The MIC of a TKIP frame is not cut off. -/
  cipher : e.attrib.encrypt ≠ .tkip
  decrypts : (decryptor env.toRxEnv (validated env s f a)).map RecvFrame.rxData = some x
  /-- The LLC header is one that is removed, and what is behind it was not left to the software to
  decrypt. -/
  llc : rtwRecvLlcParse { validated env s f a with rxData := x } = .remove
  ethType : be16At x (e.attrib.rmvLen .remove) = e.attrib.ethType
  payload : (withoutTail x e.trimPad).drop (e.attrib.rmvLen .remove) =
    (withoutTail f.rxData e.trimPad).drop (e.attrib.rmvLen .remove)
  port : portctrl env.toRxEnv { validated env s f a with rxData := x }
  act : env.msduAct (some s) e.attrib.dst e.attrib.src = ⟨true, false⟩

section

variable {env : RxscEnv} {s : StaId} {e : RxscEntry} {f d : RecvFrame} {st : RecvPriv}
  {a : RxPktAttrib} {x : List UInt8}

/-! ### Bytes -/

theorem byteAt_eq {d : List UInt8} {i : ℕ} (h : i < d.length) : byteAt d i = d[i] := by
  simp [byteAt, h]

theorem length_bytesAt (d : List UInt8) (i n : ℕ) : (bytesAt d i n).length = n := by
  simp [bytesAt]

variable {d' : List UInt8}

theorem be16At_congr {d : List UInt8} {i i' : ℕ} (h : bytesAt d i 2 = bytesAt d' i' 2) :
    be16At d i = be16At d' i' := by
  simp only [bytesAt, List.range_succ, List.range_zero, List.map_cons, List.map_nil,
    List.nil_append, List.cons_append, List.cons.injEq, and_true, Nat.add_zero] at h
  unfold be16At
  rw [h.1, h.2]

theorem overwrite_etherType {d adr : List UInt8} {n i : ℕ} (hd : d = (d'.take n).drop i) (hadr : adr.length = 12) :
    overwrite d (adr ++ bytesAt d' (i + 12) 2) = overwrite d adr := by
  refine List.ext_getElem (by simp [overwrite, hadr, length_bytesAt]; omega) fun j h₁ h₂ => ?_
  have hj : j < d.length := by
    simp only [overwrite, List.length_take] at h₂; omega
  simp only [overwrite, List.getElem_take]
  by_cases hlt : j < 12
  · rw [List.getElem_append_left (by simp [hadr, length_bytesAt]; omega),
      List.getElem_append_left (by omega), List.getElem_append_left (by omega)]
  · rw [List.getElem_append_right (show adr.length ≤ j by omega), List.getElem_drop]
    by_cases hlt' : j < 14
    · have hlen : i + j < d'.length := by
        simp only [hd, List.length_drop, List.length_take] at hj; omega
      rw [List.getElem_append_left (by simp [hadr, length_bytesAt]; omega), List.getElem_append_right (by omega)]
      simp only [bytesAt, List.getElem_map, List.getElem_range, hd, List.getElem_drop, List.getElem_take, hadr]
      rw [byteAt_eq (by omega)]
      congr 1
      omega
    · rw [List.getElem_append_right (by simp [hadr, length_bytesAt]; omega), List.getElem_drop]
      congr 1
      simp [hadr, length_bytesAt]
      omega

/-! ### The entry -/

structure EntryOk (e : RxscEntry) : Prop where
  amsdu : e.attrib.amsdu = false
  mfrag : e.attrib.mfrag = false
  toFrDs : e.attrib.toFrDs ≠ 3
  bsnaphdr : e.attrib.bsnaphdr = true
  bdecrypted : e.attrib.bdecrypted = true
  ra : isMcast e.attrib.ra = false
  payloadOffset : e.payloadOffset = e.attrib.rmvLen .remove - 14 + 2
  trimPad : e.trimPad = e.attrib.trailer
  ethhdr : ∃ x, e.ethhdr = e.attrib.dst ++ e.attrib.src ++ bytesAt x (e.payloadOffset + 12) 2 ∧
    be16At x (e.attrib.rmvLen .remove) = e.attrib.ethType
  dst : e.attrib.dst.length = 6
  src : e.attrib.src.length = 6

theorem Filled.ok (h : Filled e) : EntryOk e := by
  obtain ⟨llc, f, hdst, hsrc, h⟩ := h
  unfold cachedEntry at h
  simp only at h
  split at h
  · rename_i hc
    cases h
    simp only [coreRxscCheckAlloc, setEthType, decide_eq_true_eq] at hc
    obtain ⟨⟨hamsdu, hdec, hmfrag, hds, hsnap, -, -, -, -, hra, -⟩, -⟩ := hc
    obtain rfl : llc = .remove := by simpa using hsnap
    exact ⟨by simpa [setEthType] using hamsdu, by simpa [setEthType] using hmfrag, hds, rfl, hdec,
      by simpa [setEthType] using hra, rfl, rfl, ⟨f.rxData, rfl, rfl⟩, hdst, hsrc⟩
  · cases h

theorem rxscEqual_llc (he : EntryOk e) (hoff : 8 ≤ e.attrib.msduOffset) (h : rxscEqual f e) :
    bytesAt f.rxData e.attrib.msduOffset 6 = rfc1042Header ∧
      e.ethhdr = e.attrib.dst ++ e.attrib.src ++ bytesAt f.rxData (e.payloadOffset + 12) 2 ∧
      be16At f.rxData (e.attrib.rmvLen .remove) = e.attrib.ethType := by
  obtain ⟨-, hllc, htype⟩ := of_decide_eq_true h
  obtain ⟨x, hx, hxt⟩ := he.ethhdr
  have hadr : (e.attrib.dst ++ e.attrib.src).length = 12 := by simp [he.dst, he.src]
  have hp := he.payloadOffset
  have hbytes : bytesAt f.rxData (e.payloadOffset + 12) 2 = bytesAt x (e.payloadOffset + 12) 2 := by
    rw [htype, hx, List.drop_left' hadr, List.take_of_length_le (by simp [length_bytesAt])]
  have hrmv : e.payloadOffset + 12 = e.attrib.rmvLen .remove := by
    unfold RxPktAttrib.rmvLen at hp ⊢
    simp only [if_true] at hp ⊢; omega
  refine ⟨?_, by rw [hx, hbytes], ?_⟩
  · have hoff' : e.payloadOffset + 6 = e.attrib.msduOffset := by
      unfold RxPktAttrib.rmvLen at hrmv
      simp only [if_true] at hrmv; omega
    rw [← hoff', hllc]
  · rw [← hxt]
    rw [hrmv] at hbytes; exact be16At_congr hbytes

/-! ### The slow path on a frame that conforms -/

theorem parseQc_hdrlen (f : RecvFrame) : 24 ≤ (parseQc s f).attrib.hdrlen := by
  unfold parseQc
  simp only
  split_ifs <;> omega

theorem setEncrypt_hdrlen (f : RecvFrame) : (setEncrypt env.toRxEnv s f).attrib.hdrlen = f.attrib.hdrlen := by
  unfold setEncrypt
  split_ifs <;> rfl

theorem setEncrypt_privacy (f : RecvFrame) (h : (setEncrypt env.toRxEnv s f).attrib.encrypt ≠ .noPrivacy) :
    (setEncrypt env.toRxEnv s f).attrib.privacy = true := by
  unfold setEncrypt at h ⊢
  split_ifs at h ⊢ with hp
  · exact hp
  · exact absurd rfl h

theorem setEncrypt_attrib (f : RecvFrame) : (setEncrypt env.toRxEnv s f).attrib.fragNum = f.attrib.fragNum ∧
      (setEncrypt env.toRxEnv s f).attrib.amsdu = f.attrib.amsdu ∧
      (setEncrypt env.toRxEnv s f).attrib.toFrDs = f.attrib.toFrDs ∧
      (setEncrypt env.toRxEnv s f).attrib.qos = f.attrib.qos ∧
      (setEncrypt env.toRxEnv s f).attrib.priority = f.attrib.priority ∧
      (setEncrypt env.toRxEnv s f).attrib.ra = f.attrib.ra := by
  unfold setEncrypt
  split_ifs <;> exact ⟨rfl, rfl, rfl, rfl, rfl, rfl⟩

variable {g : RecvFrame}

theorem decryptor_some (hin : DecryptsInPlace env.toRxEnv) (h : decryptor env.toRxEnv f = some g) :
    ∃ k x, x.length = f.len ∧ g = { f with
      rxData := x, attrib := { f.attrib with keyIndex := k, bdecrypted := true } } := by
  unfold decryptor at h
  simp only at h
  obtain ⟨g', hg', rfl⟩ := Option.map_eq_some_iff.1 h
  have hkey : ∃ k, (if f.attrib.encrypt ≠ .noPrivacy
      then ({ f with attrib := { f.attrib with keyIndex := f.keyId } } : RecvFrame) else f) =
      { f with attrib := { f.attrib with keyIndex := k } } := by
    split_ifs
    · exact ⟨_, rfl⟩
    · exact ⟨f.attrib.keyIndex, rfl⟩
  obtain ⟨k, hk⟩ := hkey
  rw [hk] at hg'
  split at hg'
  · obtain ⟨x, hx, rfl⟩ := hin _ _ hg'; exact ⟨k, x, hx, rfl⟩
  · cases hg'; exact ⟨k, f.rxData, rfl, rfl⟩

theorem rxDataPreProcess_whole (hdec : decryptor env.toRxEnv f = some g)
    (hm : g.attrib.mfrag = false) (hn : g.attrib.fragNum = 0) (hc : g.attrib.encrypt ≠ .tkip)
    (hp : portctrl env.toRxEnv g) : (rxDataPreProcess env.toRxEnv s f st).1 = .passed g := by
  simp [rxDataPreProcess, hdec, markKeytrack, recvframeChkDefrag, chkDefragQueue, recvframeChkmic, hm, hn, hc, hp]

theorem pnDecache_unicast (f : RecvFrame) (hra : isMcast f.attrib.ra = false) :
    (pnDecache env.toRxEnv s (parseQc s f) st).1 = true := by
  have hle : (parseQc s f).attrib.priority ≤ 15 := by
    unfold parseQc
    simp only
    split_ifs <;> omega
  have hsome : ∃ p, recvUcastPnDecache (st.sta s) (parseQc s f) = some p := by
    unfold recvUcastPnDecache
    simp only
    rw [if_neg (by omega)]
    split
    · split_ifs <;> exact ⟨_, rfl⟩
    · exact ⟨_, rfl⟩
  obtain ⟨p, hp⟩ := hsome
  have hra' : isMcast (parseQc s f).attrib.ra = false := hra
  simp [pnDecache, hra', hp]

theorem Conform.passed (hc : Conform env s e f st a x) (he : EntryOk e)
    (hin : DecryptsInPlace env.toRxEnv) (hd : f.isData) :
    x.length = f.len ∧ ∃ k, slowPath env f st = coreRxProcessMsdu env
      { validated env s f a with
        rxData := x
        attrib := { (validated env s f a).attrib with keyIndex := k, bdecrypted := true } } := by
  have hh := hc.header
  simp only [RxPktAttrib.fromHeader, RxPktAttrib.mk.injEq] at hh
  obtain ⟨-, -, hamsdu, -, -, -, -, hmfrag, -, -, -, hencrypt, -, -, -, -, -, hra, -⟩ := hh
  obtain ⟨hfrag, hqam, -, -, -, hqra⟩ :=
    setEncrypt_attrib (s := s) (parseQc s { f with attrib := a })
  have ha : a.amsdu = false := hqam.symm.trans (hamsdu.trans he.amsdu)
  have hmcast : isMcast a.ra = false := by
    rw [show a.ra = e.attrib.ra from hqra.symm.trans hra, he.ra]
  obtain ⟨p, hfresh⟩ := Option.isSome_iff_exists.1 hc.fresh
  have hpn : (pnDecache env.toRxEnv s (parseQc s { f with attrib := a }) (st.setSta s p)).1 = true :=
    pnDecache_unicast { f with attrib := a } hmcast
  generalize hout : pnDecache env.toRxEnv s (parseQc s { f with attrib := a }) (st.setSta s p) = out
    at hpn
  obtain ⟨ok, st'⟩ := out
  obtain rfl : ok = true := hpn
  obtain ⟨g, hg, hgx⟩ := Option.map_eq_some_iff.1 hc.decrypts
  obtain ⟨k, x', hx', rfl⟩ := decryptor_some hin hg
  obtain rfl : x' = x := hgx
  have hpass : (rxDataPreProcess env.toRxEnv s (validated env s f a) st').1 = _ :=
    rxDataPreProcess_whole hg (hmfrag.trans he.mfrag) (hfrag.trans hc.unfragmented)
      (fun ht => hc.cipher (hencrypt.symm.trans ht)) hc.port
  have hplain := hc.plaintext
  have hval : validateRecvFrameData env.toRxEnv f st = (some (s, validated env s f a), st') := by
    unfold validateRecvFrameData validateRecvDataFrame
    rw [if_neg (by simp [hc.version, hd]), hc.addresses]
    simp only
    rw [if_neg (by simp [ha]), show ({ parseHeader f with attrib := a } : RecvFrame) =
      { f with attrib := a } from rfl, hfresh]
    unfold validated at hplain ⊢
    simp only [hout, hplain]; rfl
  have hnot : (validated env s f a).attrib.amsdu = false := hqam.trans ha
  refine ⟨hx', k, ?_⟩
  simp only [slowPath, hval, hpass]
  rw [if_neg (by simp [hnot])]

/-! ### The two packets -/

theorem pullTail_parts (f : RecvFrame) (n : ℕ) : (recvframePullTail f n).rxData = withoutTail f.rxData n ∧
      (recvframePullTail f n).attrib = f.attrib ∧ (recvframePullTail f n).psta = f.psta := by
  unfold recvframePullTail withoutTail
  split_ifs <;> simp

theorem withoutTail_zero (d : List UInt8) : withoutTail d 0 = d := by simp [withoutTail]

theorem wlanhdrToEthhdr_remove (f : RecvFrame) :
    ∃ g, g.rxData = overwrite ((withoutTail f.rxData f.attrib.trailer).drop
        (f.attrib.rmvLen .remove - 14 + 2)) (f.attrib.dst ++ f.attrib.src) ∧
      g.attrib = (setEthType .remove f).attrib ∧ g.psta = f.psta ∧
      wlanhdrToEthhdr .remove f =
        if (withoutTail f.rxData f.attrib.trailer).length < f.attrib.rmvLen .remove - 14 + 2 then none
        else some g := by
  unfold wlanhdrToEthhdr
  simp only [if_true, List.append_nil]
  generalize hg : (if (setEthType .remove f).attrib.encrypt = .noPrivacy then setEthType .remove f
    else recvframePullTail (setEthType .remove f) (setEthType .remove f).attrib.icvLen) = g
  have hgt : g.rxData = withoutTail f.rxData f.attrib.trailer ∧
      g.attrib = (setEthType .remove f).attrib ∧ g.psta = f.psta := by
    rw [← hg]
    unfold RxPktAttrib.trailer
    by_cases hn : f.attrib.encrypt = .noPrivacy
    · rw [if_pos (show (setEthType .remove f).attrib.encrypt = .noPrivacy from hn), if_pos hn, withoutTail_zero]
      exact ⟨rfl, rfl, rfl⟩
    · rw [if_neg (show (setEthType .remove f).attrib.encrypt ≠ .noPrivacy from hn), if_neg hn]
      exact pullTail_parts _ _
  have hrmv : g.attrib.rmvLen .remove = f.attrib.rmvLen .remove := by rw [hgt.2.1]; rfl
  refine ⟨{ g with
    rxData := overwrite (g.rxData.drop (g.attrib.rmvLen .remove - 14 + 2))
      (g.attrib.dst ++ g.attrib.src) }, ?_, hgt.2.1, hgt.2.2, ?_⟩
  · rw [hrmv, hgt.1, hgt.2.1]; rfl
  · rw [← hrmv, ← hgt.1]

theorem coreRxscApplyShortcut_eq (h : coreRxscApplyShortcut env s e f st = some d) :
    e.payloadOffset ≤ (withoutTail f.rxData e.trimPad).length ∧
      d.rxData = overwrite ((withoutTail f.rxData e.trimPad).drop e.payloadOffset) e.ethhdr ∧
      d.attrib = (rxscAttrib e f).attrib ∧ d.psta = some s := by
  unfold coreRxscApplyShortcut at h
  simp only at h
  split at h
  · cases h
  generalize hg : (if e.trimPad = 0 then rxscAttrib e f
    else recvframePullTail (rxscAttrib e f) e.trimPad) = g at h
  have hgt : g.rxData = withoutTail f.rxData e.trimPad ∧ g.attrib = (rxscAttrib e f).attrib := by
    rw [← hg]
    by_cases h0 : e.trimPad = 0
    · rw [if_pos h0, h0, withoutTail_zero]; exact ⟨rfl, rfl⟩
    · rw [if_neg h0]; exact ⟨(pullTail_parts _ _).1, (pullTail_parts _ _).2.1⟩
  split at h
  · cases h
  · rename_i hlen
    cases h
    refine ⟨?_, ?_, hgt.2, rfl⟩
    · rw [← hgt.1]; exact Nat.not_lt.1 hlen
    · simp only; rw [hgt.1]

theorem fromHeader_eq {x y : RxPktAttrib} {p : ℕ} (h : x.fromHeader = y.fromHeader)
    (hdec : y.bdecrypted = true) (hsnap : y.bsnaphdr = true) :
    { x with
      priority := p, seqNum := 0, keyIndex := 0, bdecrypted := true, ethType := y.ethType
      bsnaphdr := true } = { y with priority := p, seqNum := 0, keyIndex := 0 } := by
  cases x
  cases y
  simp only [RxPktAttrib.fromHeader, RxPktAttrib.mk.injEq] at h hdec hsnap ⊢
  simp [h, hdec, hsnap]

theorem Conform.sameAttrib (hc : Conform env s e f st a x) (he : EntryOk e) {k : ℕ} : SameAttrib
      { (validated env s f a).attrib with
        keyIndex := k, bdecrypted := true, ethType := e.attrib.ethType, bsnaphdr := true }
      (rxscAttrib e f).attrib := by
  have hh := hc.header
  simp only [RxPktAttrib.fromHeader, RxPktAttrib.mk.injEq] at hh
  obtain ⟨-, hds, -, hqos, htid, -, -, -, -, -, -, henc, -⟩ := hh
  obtain ⟨-, -, hsds, hsqos, hsprio, -⟩ :=
    setEncrypt_attrib (s := s) (parseQc s { f with attrib := a })
  -- the TID of the slow path
  have hprio : (validated env s f a).attrib.priority = (rxscAttrib e f).attrib.priority := by
    unfold rxscAttrib
    by_cases haes : e.attrib.encrypt = .aes
    · have hds' : a.toFrDs ≠ 3 := fun h3 => he.toFrDs (hds.symm.trans (hsds.trans h3))
      have hqos' : a.qos = e.attrib.qos := hsqos.symm.trans hqos
      rw [validated, hsprio]
      simp [haes, parseQc, hqos', RecvFrame.qosByte, RxPktAttrib.a4Shift, hds']
    · rw [if_neg haes]
      rw [henc, if_neg haes, if_neg haes] at htid; exact htid
  have hfast : (rxscAttrib e f).attrib = { e.attrib with priority := (rxscAttrib e f).attrib.priority } := by
    unfold rxscAttrib
    by_cases haes : e.attrib.encrypt = .aes
    · simp [haes]
    · simp [haes]
  have hx := fromHeader_eq (p := (rxscAttrib e f).attrib.priority) hc.header he.bdecrypted he.bsnaphdr
  unfold SameAttrib
  rw [hfast, ← hx, ← hprio]

theorem length_withoutTail {d : List UInt8} (h : d.length = d'.length) (n : ℕ) :
    (withoutTail d n).length = (withoutTail d' n).length := by
  simp only [withoutTail, List.length_take, h]

theorem overwrite_drop (d hdr : List UInt8) : (overwrite d hdr).drop hdr.length = d.drop hdr.length := by
  unfold overwrite
  rw [List.drop_take, List.drop_left, List.take_of_length_le (by simp)]

theorem length_overwrite (d hdr : List UInt8) : (overwrite d hdr).length = d.length := by
  simp only [overwrite, List.length_take, List.length_append, List.length_drop]; omega

theorem overwrite_congr {d hdr : List UInt8} (hlen : d.length = d'.length)
    (h : d.drop hdr.length = d'.drop hdr.length) : overwrite d hdr = overwrite d' hdr := by
  unfold overwrite
  rw [hlen, h]

theorem shortcut_bytes (he : EntryOk e) (hmin : 8 ≤ e.attrib.msduOffset) (heq : rxscEqual f e)
    (happly : coreRxscApplyShortcut env s e f st = some d) :
    d.rxData = overwrite ((withoutTail f.rxData e.trimPad).drop e.payloadOffset)
      (e.attrib.dst ++ e.attrib.src) := by
  obtain ⟨-, hethhdr, -⟩ := rxscEqual_llc he hmin heq
  rw [(coreRxscApplyShortcut_eq happly).2.1, hethhdr]
  exact overwrite_etherType rfl (by simp [he.dst, he.src])

variable {h : RecvFrame}

theorem coreRxProcessMsdu_agrees (he : EntryOk e) (heq : rxscEqual f e)
    (happly : coreRxscApplyShortcut env s e f st = some d) (hlen : h.len = f.len)
    (hpsta : h.psta = some s) (hoff : h.attrib.msduOffset = e.attrib.msduOffset)
    (hmin : 8 ≤ e.attrib.msduOffset) (htrail : h.attrib.trailer = e.attrib.trailer)
    (hdst : h.attrib.dst = e.attrib.dst) (hsrc : h.attrib.src = e.attrib.src)
    (hparse : rtwRecvLlcParse h = .remove)
    (hpayload : (withoutTail h.rxData e.trimPad).drop (e.attrib.rmvLen .remove) =
      (withoutTail f.rxData e.trimPad).drop (e.attrib.rmvLen .remove))
    (hact : env.msduAct (some s) e.attrib.dst e.attrib.src = ⟨true, false⟩) :
    ∃ d', coreRxProcessMsdu env h = .indicated d' false ∧ d'.psta = h.psta ∧ d'.rxData = d.rxData ∧
      d'.attrib = (setEthType .remove h).attrib := by
  obtain ⟨hpull, -⟩ := coreRxscApplyShortcut_eq happly
  have hrmv : h.attrib.rmvLen .remove = e.attrib.rmvLen .remove := by
    unfold RxPktAttrib.rmvLen
    rw [hoff]
  have hsz : h.attrib.rmvLen .remove - 14 + 2 = e.payloadOffset := by rw [hrmv, he.payloadOffset]
  have htail := length_withoutTail hlen e.trimPad
  have htrim : h.attrib.trailer = e.trimPad := htrail.trans he.trimPad.symm
  obtain ⟨d', hbytes, hattr, hsta, hd'⟩ := wlanhdrToEthhdr_remove h
  rw [if_neg (by rw [hsz, htrim, htail]; omega)] at hd'
  refine ⟨d', ?_, hsta, ?_, hattr⟩
  · unfold coreRxProcessMsdu
    simp only [hparse, hpsta, hdst, hsrc, hact, hd']; simp
  · have hadr : (e.attrib.dst ++ e.attrib.src).length = 12 := by simp [he.dst, he.src]
    have hp := he.payloadOffset
    have hoffset : e.payloadOffset + 12 = e.attrib.rmvLen .remove := by
      unfold RxPktAttrib.rmvLen at hp ⊢
      simp only [if_true] at hp ⊢; omega
    rw [hbytes, shortcut_bytes he hmin heq happly, hsz, htrim, hdst, hsrc]
    refine overwrite_congr (by simp only [List.length_drop, htail]) ?_
    rw [List.drop_drop, List.drop_drop, hadr, hoffset, hpayload]

/-! ### Only frames that conform -/

variable {r : RecvFrame} {q : List RecvFrame}

theorem defragLoop_mfrag {pr : RecvFrame} {n : ℕ} {pn : BitVec 64}
    (h : defragLoop pr n pn q = some r) : r.attrib.mfrag = pr.attrib.mfrag := by
  induction q generalizing pr n pn with
  | nil =>
    cases h
    rfl
  | cons nf q ih =>
    unfold defragLoop at h
    split_ifs at h
    all_goals
      rw [ih h]
      unfold joinFragment recvframePut recvframePullTail
      split_ifs <;> rfl

theorem recvframeDefrag_mfrag (hn : f.attrib.fragNum ≠ 0)
    (hq : ∀ g ∈ q, g.attrib.mfrag = true) (h : recvframeDefrag (q ++ [f]) = some r) :
    r.attrib.mfrag = true := by
  cases q with
  | nil => simp [recvframeDefrag, hn] at h
  | cons pr q =>
    simp only [List.cons_append, recvframeDefrag] at h
    split at h
    · cases h
    · rw [defragLoop_mfrag h]; exact hq pr (by simp)

theorem chkmic_some {env : RxEnv} (hm : (if r.attrib.privacy then recvframeChkmic env r else some r) = some h) :
    h = if r.attrib.privacy ∧ r.attrib.encrypt = .tkip then recvframePullTail r 8 else r := by
  unfold recvframeChkmic at hm
  split_ifs at hm with hp ht hf
  · cases hm; rw [if_pos ⟨hp, ht⟩]
  · cases hm; rw [if_neg fun hc => ht hc.2]
  · cases hm; rw [if_neg fun hc => hp hc.1]

theorem rxDataPreProcess_passed {g₁ : RecvFrame} (hdec : decryptor env.toRxEnv g = some g₁)
    (hq : ∀ g ∈ st.defragQ s, g.attrib.mfrag = true)
    (hp : (rxDataPreProcess env.toRxEnv s g st).1 = .passed h) :
    h.attrib.mfrag = true ∨ g₁.attrib.fragNum = 0 ∧ portctrl env.toRxEnv h ∧
      h = if g₁.attrib.privacy ∧ g₁.attrib.encrypt = .tkip then recvframePullTail g₁ 8 else g₁ := by
  simp only [rxDataPreProcess, hdec] at hp
  generalize hg₂ : markKeytrack true (env.toRxEnv.sta s).keytrack g₁ = g₂ at hp
  have hattr : g₂.attrib = g₁.attrib := by
    rw [← hg₂]
    unfold markKeytrack
    split_ifs <;> rfl
  -- the frame that passes comes out of `recvframe_chk_defrag`
  have hout : ∃ f, (recvframeChkDefrag id (some (st.defragQ s)) g₂).ret = .cont ∧
      (recvframeChkDefrag id (some (st.defragQ s)) g₂).frame = some f ∧
      portctrl env.toRxEnv h ∧
      (if ((recvframeChkDefrag id (some (st.defragQ s)) g₂).whole.getD f).attrib.privacy then
        recvframeChkmic env.toRxEnv ((recvframeChkDefrag id (some (st.defragQ s)) g₂).whole.getD f)
      else some ((recvframeChkDefrag id (some (st.defragQ s)) g₂).whole.getD f)) = some h := by
    split at hp
    · rename_i f hret hframe
      refine ⟨f, hret, hframe, ?_⟩
      split at hp
      · cases hp
      · rename_i r hr
        split at hp
        · rename_i hport
          cases hp
          exact ⟨hport, hr⟩
        · cases hp
    · cases hp
    · cases hp
  obtain ⟨f, hret, hframe, hport, hmic⟩ := hout
  by_cases hm : g₂.attrib.mfrag
  · -- a fragment that is followed by others is queued
    unfold recvframeChkDefrag chkDefragQueue at hret
    simp only [id, hm, if_true, not_true_eq_false, false_and, if_false] at hret
    split_ifs at hret
  · by_cases hn : g₂.attrib.fragNum = 0
    · have hmark : g₂ = g₁ := by
        rw [← hg₂, markKeytrack, if_neg]
        rw [← hattr]
        simp [hm, hn]
      subst hmark
      simp [recvframeChkDefrag, chkDefragQueue, hm, hn] at hframe hmic
      subst hframe; exact .inr ⟨hn, hport, chkmic_some hmic⟩
    · refine .inl ?_
      -- the last fragment: the message is put together
      have hdefrag : ∀ ret, (chkDefragQueue id (some (st.defragQ s)) g₂ ret) =
          match recvframeDefrag (st.defragQ s ++ [g₂]) with
          | none => ⟨.drop, none, none, [], true, st.defragQ s ++ [g₂]⟩
          | some r => ⟨.cont, (st.defragQ s ++ [g₂]).head?, some r, [], true,
              (st.defragQ s ++ [g₂]).tail⟩ := fun ret => by
        unfold chkDefragQueue
        simp only [id, hm, hn, if_false, ne_eq, not_false_iff, if_true, Bool.false_eq_true]
        rewrite [List.map_id]
        cases recvframeDefrag (st.defragQ s ++ [g₂]) with
        | none => rfl
        | some r => rfl
      have hchk : ∃ r, recvframeDefrag (st.defragQ s ++ [g₂]) = some r ∧
          (recvframeChkDefrag id (some (st.defragQ s)) g₂).whole = some r := by
        unfold recvframeChkDefrag at hret ⊢
        simp only [id, hm, hn, and_false, if_false, hdefrag] at hret ⊢
        cases hr : recvframeDefrag (st.defragQ s ++ [g₂]) with
        | none => simp [hr] at hret
        | some r => exact ⟨r, rfl, by split_ifs <;> rfl⟩
      obtain ⟨r, hr, hwhole⟩ := hchk
      rw [hwhole] at hmic
      have hrm := recvframeDefrag_mfrag hn hq hr
      rw [chkmic_some hmic]
      split
      · rw [(pullTail_parts _ _).2.1]; exact hrm
      · exact hrm

theorem coreRxscGetEntry_some {cache : RxscCache} (hcache : ∀ s, ∀ e ∈ cache s, Filled e)
    (hget : coreRxscGetEntry env cache f = some (s, e)) :
    f.isData ∧ EntryOk e ∧ rxscEqual f e := by
  unfold coreRxscGetEntry at hget
  split at hget
  · rename_i hdata
    split at hget
    · cases hget
    · rename_i s' hs'
      obtain ⟨e', hfind, heq⟩ := Option.map_eq_some_iff.1 hget
      cases heq
      exact ⟨hdata, (hcache s e (List.mem_of_find?_eq_some hfind)).ok, List.find?_some hfind⟩
  · cases hget

theorem Conform.agrees (hc : Conform env s e f st a x) (he : EntryOk e)
    (hin : DecryptsInPlace env.toRxEnv) (hdata : f.isData) (heq : rxscEqual f e)
    (happly : coreRxscApplyShortcut env s e f st = some d) : DeliversToo env f st d := by
  have hhdrlen : 24 ≤ (validated env s f a).attrib.hdrlen := by
    rw [validated, setEncrypt_hdrlen]; exact parseQc_hdrlen _
  obtain ⟨hlenx, k, hslow⟩ := hc.passed he hin hdata
  have hsame := hc.sameAttrib he (k := k)
  have hpsta : (validated env s f a).psta = some s := rfl
  have hh := hc.header
  have hparse := hc.llc
  have htype := hc.ethType
  generalize validated env s f a = g at *
  simp only [RxPktAttrib.fromHeader, RxPktAttrib.mk.injEq] at hh
  obtain ⟨hlen, -, -, -, -, -, -, -, -, -, -, henc, hiv, hicv, hdst, hsrc, -⟩ := hh
  have hoff : g.attrib.msduOffset = e.attrib.msduOffset := by
    unfold RxPktAttrib.msduOffset
    rw [hlen, hiv]
  have htrail : g.attrib.trailer = e.attrib.trailer := by
    unfold RxPktAttrib.trailer
    rw [henc, hicv]
  have hmin : 8 ≤ e.attrib.msduOffset := by
    rw [← hoff]
    unfold RxPktAttrib.msduOffset; omega
  obtain ⟨d', hd', hsta, hbytes, hattr⟩ := coreRxProcessMsdu_agrees
    (h := { g with
      rxData := x, attrib := { g.attrib with keyIndex := k, bdecrypted := true } })
    he heq happly hlenx hpsta hoff hmin htrail hdst hsrc hparse hc.payload hc.act
  obtain ⟨-, -, hfast, hfsta⟩ := coreRxscApplyShortcut_eq happly
  refine ⟨d', hslow.trans hd', hsta.trans (hpsta.trans hfsta.symm), hbytes, ?_⟩
  have htype' : be16At x (g.attrib.rmvLen .remove) = e.attrib.ethType := by
    rw [← htype]
    unfold RxPktAttrib.rmvLen
    rw [hoff]
  rw [hattr, hfast]
  unfold setEthType
  rw [show (RecvFrame.mk { g.attrib with keyIndex := k, bdecrypted := true } x g.room g.psta
    g.keytrack).attrib.rmvLen .remove = g.attrib.rmvLen .remove from rfl]
  simp only [htype', decide_true]; exact hsame

theorem coreRxProcessMsdu_indicated {d' : RecvFrame} (hi : coreRxProcessMsdu env h = .indicated d' false) :
    env.msduAct h.psta h.attrib.dst h.attrib.src = ⟨true, false⟩ ∧
      wlanhdrToEthhdr (rtwRecvLlcParse h) h = some d' := by
  unfold coreRxProcessMsdu at hi
  simp only at hi
  generalize hact : env.msduAct h.psta h.attrib.dst h.attrib.src = act at hi ⊢
  obtain ⟨indicate, forward⟩ := act
  split at hi
  · cases hi
  · split at hi
    · cases hi
    · rename_i g hg
      split at hi
      · rename_i hind
        cases hi
        obtain rfl : indicate = true := hind
        exact ⟨rfl, hg⟩
      · cases hi

theorem wlanhdrToEthhdr_attrib {llc : RxLlcHdl} (h : wlanhdrToEthhdr llc f = some g) :
    g.attrib = (setEthType llc f).attrib ∧ g.psta = f.psta := by
  unfold wlanhdrToEthhdr at h
  simp only at h
  split_ifs at h
  all_goals cases h
  all_goals first
    | exact ⟨rfl, rfl⟩
    | exact (pullTail_parts (setEthType _ f) _).2

theorem slowPath_indicated {d' : RecvFrame} (h : slowPath env f st = .indicated d' false) :
    ∃ s a st' g, f.ver = 0 ∧ env.validateHdr (setAmsdu (parseHeader f)) = .success (some s) a ∧
      (recvDecache (st.sta s) (parseQc s { f with attrib := a }).attrib).isSome ∧
      plaintextDrop env.toRxEnv s (validated env s f a) = false ∧ st'.defragQ = st.defragQ ∧
      (rxDataPreProcess env.toRxEnv s (validated env s f a) st').1 = .passed g ∧
      coreRxProcessMsdu env g = .indicated d' false := by
  unfold slowPath at h
  split at h
  · cases h
  · rename_i s g st' hval
    unfold validateRecvFrameData at hval
    split at hval
    · cases hval
    · rename_i hv
      obtain ⟨a, p, haddr, hdecache, hpn, rfl, hplain⟩ := validateRecvDataFrame_some hval
      have hkeep := pnDecache_defragQ env.toRxEnv s (parseQc s { parseHeader f with attrib := a })
        (st.setSta s p)
      rw [hpn] at hkeep
      split at h
      · rename_i g hg
        split at h
        · cases h
        · exact ⟨s, a, st', g, by simpa using not_or.1 hv |>.1, haddr, by
            rw [Option.isSome_iff_exists]; exact ⟨p, hdecache⟩, hplain, hkeep, hg, h⟩
      · cases h
      · cases h

theorem rxscEqual_len (he : EntryOk e) (hmin : 8 ≤ e.attrib.msduOffset) (heq : rxscEqual f e) :
    e.attrib.msduOffset + 2 < f.len := by
  obtain ⟨hhdr, -⟩ := rxscEqual_llc he hmin heq
  by_contra hlt
  have hbyte : byteAt f.rxData (e.attrib.msduOffset + 2) = 3 := by
    have := congrArg (fun l => l[2]?) hhdr
    simpa [bytesAt, rfc1042Header] using this
  have hzero : byteAt f.rxData (e.attrib.msduOffset + 2) = 0 := by
    rw [byteAt, List.getD_eq_getElem?_getD, List.getElem?_eq_none (Nat.not_lt.1 hlt)]; rfl
  rw [hzero] at hbyte; exact absurd hbyte (by decide)

theorem withoutTail_len (d : List UInt8) (n : ℕ) :
    (withoutTail d n).length = if n ≤ d.length then d.length - n else d.length := by
  simp only [withoutTail, List.length_take]
  split_ifs <;> omega

theorem SameAttrib.parts {u : RxPktAttrib} (h : SameAttrib u (rxscAttrib e f).attrib) :
    u.fromHeader = e.attrib.fromHeader ∧ u.ethType = e.attrib.ethType ∧ u.bsnaphdr = e.attrib.bsnaphdr := by
  obtain ⟨_, _, _, _, b⟩ := e
  unfold SameAttrib rxscAttrib at h
  simp only at h
  by_cases haes : b.encrypt = .aes
  all_goals
    simp only [haes, if_true, if_false] at h
    cases u
    cases b
    simp only [RxPktAttrib.mk.injEq] at h haes
    simp [RxPktAttrib.fromHeader, h, haes]

theorem payload_of_agrees {d' : RecvFrame} (he : EntryOk e) (hmin : 8 ≤ e.attrib.msduOffset)
    (heq : rxscEqual f e) (happly : coreRxscApplyShortcut env s e f st = some d)
    (hhdr : wlanhdrToEthhdr .remove h = some d') (hoff : h.attrib.msduOffset = e.attrib.msduOffset)
    (htrail : h.attrib.trailer = e.trimPad) (hdst : h.attrib.dst = e.attrib.dst)
    (hsrc : h.attrib.src = e.attrib.src) (hbytes : d'.rxData = d.rxData) :
    (withoutTail h.rxData e.trimPad).length = (withoutTail f.rxData e.trimPad).length ∧
      (withoutTail h.rxData e.trimPad).drop (e.attrib.rmvLen .remove) =
        (withoutTail f.rxData e.trimPad).drop (e.attrib.rmvLen .remove) := by
  obtain ⟨hpull, -⟩ := coreRxscApplyShortcut_eq happly
  have hrmv : h.attrib.rmvLen .remove = e.attrib.rmvLen .remove := by
    unfold RxPktAttrib.rmvLen
    rw [hoff]
  have hsz : h.attrib.rmvLen .remove - 14 + 2 = e.payloadOffset := by rw [hrmv, he.payloadOffset]
  have hp := he.payloadOffset
  have hoffset : e.payloadOffset + 12 = e.attrib.rmvLen .remove := by
    unfold RxPktAttrib.rmvLen at hp ⊢
    simp only [if_true] at hp ⊢; omega
  have hadr : (e.attrib.dst ++ e.attrib.src).length = 12 := by simp [he.dst, he.src]
  obtain ⟨g, hgb, -, -, hgm⟩ := wlanhdrToEthhdr_remove h
  rw [hgm, hsz, htrail] at hhdr
  split_ifs at hhdr with hfits
  obtain rfl : g = d' := Option.some.inj hhdr
  rw [hsz, htrail, hbytes, shortcut_bytes he hmin heq happly, hdst, hsrc] at hgb
  constructor
  · have := congrArg List.length hgb
    rw [length_overwrite, length_overwrite, List.length_drop, List.length_drop] at this; omega
  · have := congrArg (List.drop (e.attrib.dst ++ e.attrib.src).length) hgb
    rw [overwrite_drop, overwrite_drop, List.drop_drop, List.drop_drop, hadr, hoffset] at this
    exact this.symm

theorem conform_of_agrees (he : EntryOk e) (hin : DecryptsInPlace env.toRxEnv)
    (hq : QueuesFragments st) (heq : rxscEqual f e)
    (happly : coreRxscApplyShortcut env s e f st = some d) (h : DeliversToo env f st d) :
    ∃ a x, Conform env s e f st a x := by
  obtain ⟨d', hslow, hsta, hbytes, hattr⟩ := h
  obtain ⟨hpull, -, hfast, hfsta⟩ := coreRxscApplyShortcut_eq happly
  obtain ⟨s', a, st', h, hver, haddr, hfresh, hplain, hkeep, hpass, hmsdu⟩ := slowPath_indicated hslow
  obtain ⟨hact, hhdr⟩ := coreRxProcessMsdu_indicated hmsdu
  obtain ⟨hattr', hsta'⟩ := wlanhdrToEthhdr_attrib hhdr
  -- the attributes of what comes out of the slow path are those of the entry
  rw [hattr', hfast] at hattr
  obtain ⟨hheader, htype, hsnap⟩ := hattr.parts
  have hllc : rtwRecvLlcParse h = .remove := by
    rw [he.bsnaphdr] at hsnap; exact of_decide_eq_true hsnap
  rw [hllc] at hhdr htype
  have hh := hheader
  simp only [RxPktAttrib.fromHeader, setEthType, RxPktAttrib.mk.injEq] at hh
  obtain ⟨hlen, -, -, -, -, -, -, hmfrag, -, -, -, henc, hiv, hicv, hdst, hsrc, -⟩ := hh
  have hoff : h.attrib.msduOffset = e.attrib.msduOffset := by
    unfold RxPktAttrib.msduOffset
    rw [hlen, hiv]
  have htrail : h.attrib.trailer = e.trimPad := by
    rw [he.trimPad]
    unfold RxPktAttrib.trailer
    rw [henc, hicv]
  -- so it was not put together from fragments
  cases hdec : decryptor env.toRxEnv (validated env s' f a) with
  | none => simp [rxDataPreProcess, hdec] at hpass
  | some g =>
    obtain ⟨k, x, hx, rfl⟩ := decryptor_some hin hdec
    rcases rxDataPreProcess_passed hdec (by rw [hkeep]; exact hq s') hpass with
      hfrag | ⟨hnum, hport, hchk⟩
    · rw [hmfrag, he.mfrag] at hfrag; cases hfrag
    · have hhdrlen : 24 ≤ (validated env s' f a).attrib.hdrlen := by
        rw [validated, setEncrypt_hdrlen]; exact parseQc_hdrlen _
      have hmin : 24 ≤ e.attrib.msduOffset := by
        have : (validated env s' f a).attrib.hdrlen = h.attrib.hdrlen := by
          rw [hchk]
          split_ifs
          · rw [(pullTail_parts _ _).2.1]
          · rfl
        rw [← hoff, RxPktAttrib.msduOffset]; omega
      obtain ⟨hcut, hpayload⟩ := payload_of_agrees he (by omega) heq happly hhdr hoff htrail hdst hsrc
        hbytes
      -- a TKIP frame is eight bytes shorter behind the check of its MIC
      have hnot : ¬ ((validated env s' f a).attrib.privacy ∧
          (validated env s' f a).attrib.encrypt = .tkip) := fun ht => by
        rw [if_pos ht] at hchk
        have hlong : e.attrib.msduOffset + 2 < f.rxData.length := rxscEqual_len he (by omega) heq
        have hx' : x.length = f.rxData.length := hx
        rw [hchk, (pullTail_parts _ _).1, withoutTail_len, withoutTail_len, withoutTail_len] at hcut
        simp only at hcut
        split_ifs at hcut <;> omega
      rw [if_neg hnot] at hchk
      subst hchk
      obtain rfl : s' = s := Option.some.inj (hsta'.symm.trans (hsta.trans hfsta))
      refine ⟨a, x, hver, haddr, ?_, ?_, hfresh, hplain, ?_, ?_, hllc, ?_, hpayload, hport, ?_⟩
      · exact hheader
      · exact ((setEncrypt_attrib _).1).symm.trans hnum
      · intro ht
        have ht' : (validated env s' f a).attrib.encrypt = .tkip := henc.trans ht
        exact hnot ⟨setEncrypt_privacy _ (by rw [← validated, ht']; decide), ht'⟩
      · rw [hdec]; rfl
      · rw [← htype, RxPktAttrib.rmvLen, ← hoff]; rfl
      · rw [← hact, ← hdst, ← hsrc]; rfl

theorem chkDefrag_queue (hq : ∀ f ∈ q, f.attrib.mfrag = true) :
    ∀ f ∈ (recvframeChkDefrag id (some q) g).queue, f.attrib.mfrag = true := by
  have hall : ∀ ret, ∀ f ∈ (chkDefragQueue id (some q) g ret).queue, f.attrib.mfrag = true := by
    intro ret f hf
    unfold chkDefragQueue at hf
    simp only [id] at hf
    split_ifs at hf with hm hn hn
    · simp only [List.mem_singleton] at hf
      rw [hf]; exact hm
    · rcases List.mem_append.1 hf with hf | hf
      · exact hq f hf
      · rw [List.mem_singleton.1 hf]; exact hm
    · split at hf <;> cases hf
    · exact hq f hf
  unfold recvframeChkDefrag
  simp only
  split_ifs
  · exact hall _
  · exact hall _
  · exact hall _

theorem rxDataFrame_queuesFragments {env : RxEnv} (f : RecvFrame) (hq : QueuesFragments st) :
    QueuesFragments (rxDataFrame env f st).2 := by
  have hval : (validateRecvDataFrame env f st).2.defragQ = st.defragQ := by
    unfold validateRecvDataFrame
    split
    · rename_i s a ha
      simp only
      split
      · rfl
      · split
        · rfl
        · rename_i p hp
          have hkeep := pnDecache_defragQ env s (parseQc s { f with attrib := a }) (st.setSta s p)
          split
          · rename_i st' hst
            rw [hst] at hkeep; exact hkeep
          · rename_i st' hst
            rw [hst] at hkeep
            split <;> exact hkeep
    · rfl
  unfold rxDataFrame
  split
  · rename_i st' hst
    rw [hst] at hval
    unfold QueuesFragments
    rw [hval]; exact hq
  · rename_i s g st' hst
    rw [hst] at hval
    have hq' : QueuesFragments st' := by
      unfold QueuesFragments
      rw [hval]; exact hq
    unfold rxDataPreProcess
    cases decryptor env g with
    | none => exact hq'
    | some g =>
      simp only
      have hupd : ∀ r, QueuesFragments { st' with
          defragQ := Function.update st'.defragQ s
            (recvframeChkDefrag id (some (st'.defragQ s)) r).queue } := fun r t => by
        simp only
        by_cases ht : t = s
        · rw [ht, Function.update_self]; exact chkDefrag_queue (hq' s)
        · rw [Function.update_of_ne ht]; exact hq' t
      split
      · split
        · exact hupd _
        · split <;> exact hupd _
      · exact hupd _
      · exact hupd _

/-- **The shortcut agrees with the slow path on the frames that conform, and on no others**: there the
slow path gives the OS the same bytes with the same attributes. -/
theorem shortcut_agrees_iff (cache : RxscCache) (hcache : ∀ s, ∀ e ∈ cache s, Filled e)
    (hin : DecryptsInPlace env.toRxEnv) (hq : QueuesFragments st)
    (hget : coreRxscGetEntry env cache f = some (s, e))
    (happly : coreRxscApplyShortcut env s e f st = some d) :
    DeliversToo env f st d ↔ ∃ a x, Conform env s e f st a x := by
  obtain ⟨hdata, he, heq⟩ := coreRxscGetEntry_some hcache hget
  exact ⟨conform_of_agrees he hin hq heq happly, fun ⟨_, _, hc⟩ => hc.agrees he hin hdata heq happly⟩

end

/-! ### A retransmission -/

/-- A station of an access point with CCMP, whose hardware decrypts. -/
def hwDecrypting : RxscEnv where
  __ := ccmpStation
  validateHdr := fun f => .success (some 0)
    { f.attrib with
      ra := bytesAt f.rxData 4 6, ta := bytesAt f.rxData 10 6, bssid := bytesAt f.rxData 10 6
      dst := bytesAt f.rxData 4 6, src := bytesAt f.rxData 16 6 }
  aesDecrypt := some
  getStainfo := fun _ => some 0
  msduAct := fun _ _ _ => ⟨true, false⟩

/-- A frame of 20 bytes of IPv4 from the access point, with TID 0. -/
def ipv4Frame (seqNum : ℕ) : RecvFrame where
  attrib := ⟨0, 0, false, false, 0, 0, 0, false, false, false, true, .noPrivacy, 0, 0, [], [], [], [], [],
    0, 0, false⟩
  rxData := [0x88, 0x42, 0, 0] ++ [2, 0, 0, 0, 0, 1] ++ [2, 0, 0, 0, 0, 2] ++ [2, 0, 0, 0, 0, 3] ++
    [UInt8.ofNat (16 * seqNum), UInt8.ofNat (seqNum / 16)] ++ [0, 0] ++
    [UInt8.ofNat seqNum, 0, 0, 0x20, 0, 0, 0, 0] ++ rfc1042Header ++ [0x08, 0x00] ++
    List.replicate 20 0x45 ++ List.replicate 8 0
  room := 0
  psta := none
  keytrack := 0

/-- The state in which the frame with sequence number `n` has been received. -/
def afterFrame (n : ℕ) : RecvPriv :=
  (rxDataFrame hwDecrypting.toRxEnv (parseHeader (ipv4Frame n)) .init).2

/-- What `wlanhdr_to_ethhdr` has of the first frame. -/
def firstFrame : RecvFrame :=
  match (rxDataFrame hwDecrypting.toRxEnv (parseHeader (ipv4Frame 1)) .init).1 with
  | .passed f => f
  | _ => ipv4Frame 1

def firstEntry : RxscEntry := (cachedEntry .remove firstFrame).get (by decide)

theorem firstEntry_filled : ∀ s, ∀ e ∈ (fun _ => [firstEntry] : RxscCache) s, Filled e := by
  intro s e he
  obtain rfl : e = firstEntry := by simpa using he
  exact ⟨.remove, firstFrame, by decide, by decide, by simp [firstEntry]⟩

theorem hwDecrypting_inPlace : DecryptsInPlace hwDecrypting.toRxEnv := by
  intro f g h
  unfold swDecrypt at h
  refine ⟨f.rxData, rfl, ?_⟩
  split at h <;> cases h <;> rfl

theorem afterFrame_queuesFragments (n : ℕ) : QueuesFragments (afterFrame n) := rxDataFrame_queuesFragments _ nofun

/-- What the shortcut delivers of a frame. -/
def delivered (n : ℕ) : Option RecvFrame :=
  coreRxscApplyShortcut hwDecrypting 0 firstEntry (ipv4Frame n) (afterFrame 1)

theorem shortcut_agrees_iff_next :
    DeliversToo hwDecrypting (ipv4Frame 2) (afterFrame 1) ((delivered 2).get (by decide)) ↔
      ∃ a x, Conform hwDecrypting 0 firstEntry (ipv4Frame 2) (afterFrame 1) a x :=
  shortcut_agrees_iff (fun _ => [firstEntry]) firstEntry_filled hwDecrypting_inPlace
    (afterFrame_queuesFragments 1) (by decide) (by simp [delivered])

/-- The first frame once more: `recv_decache` drops it, and the shortcut delivers it again. -/
theorem not_shortcut_agrees : ¬ ∀ (env : RxscEnv) (cache : RxscCache) (s : StaId) (e : RxscEntry) (f d : RecvFrame)
      (st : RecvPriv), (∀ s, ∀ e ∈ cache s, Filled e) → DecryptsInPlace env.toRxEnv →
        QueuesFragments st → coreRxscGetEntry env cache f = some (s, e) →
        coreRxscApplyShortcut env s e f st = some d → DeliversToo env f st d := by
  intro h
  obtain ⟨d', hslow, -⟩ := h hwDecrypting (fun _ => [firstEntry]) 0 firstEntry (ipv4Frame 1)
    ((delivered 1).get (by decide)) (afterFrame 1) firstEntry_filled hwDecrypting_inPlace
    (afterFrame_queuesFragments 1) (by decide) (by simp [delivered])
  have hdrop : slowPath hwDecrypting (ipv4Frame 1) (afterFrame 1) = .dropped := by decide
  rw [hdrop] at hslow; cases hslow

end Rtl8852cu.Recv
