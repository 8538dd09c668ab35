import Mathlib.Logic.Function.Basic
import Rtl8852cu.Recv.Defrag
import Rtl8852cu.Recv.Replay

/-!
# The way of a data frame up to `portctrl`

`recv_decache`, `recv_ucast_pn_decache`, `validate_recv_data_frame`, `decryptor`,
`recvframe_chkmic`, `portctrl` and `rtw_core_rx_data_pre_process` of `core/rtw_recv.c`.

What the path looks at and does not change is an `RxEnv`: the mode of the interface, its security
settings, the stations, and, as functions, the check of the addresses for the mode
(`rtw_sta_rx_data_validate_hdr` and its siblings) and the ciphers.  What it reads and writes is a
`RecvPriv`.
-/

namespace Rtl8852cu.Recv

/-! ### Settings -/

/-- `dot11AuthAlgrthm`. -/
inductive AuthAlgrthm where
  | openSystem
  | shared
  | ieee8021X
  | auto
  | wapi
  deriving DecidableEq, Repr

/-- The fields of `struct sta_info` that the path only reads. -/
structure StaInfo where
  /-- `WLAN_STA_AMSDU_DISABLE`. -/
  amsduDisable : Bool
  /-- `dot118021XPrivacy`. -/
  privacy : SecurityType
  /-- `ieee8021x_blocked`. -/
  blocked : Bool
  keytrack : Int

/-- What the check of the addresses says. -/
inductive HdrRet where
  | fail
  | handled
  /-- `_SUCCESS`, with the sender, if it is known, and `ra`, `ta`, `dst`, `src` and `bssid` set. -/
  | success (psta : Option StaId) (attrib : RxPktAttrib)

structure RxEnv where
  mlmeIsSta : Bool
  mlmeIsApOrMesh : Bool
  /-- `dot11AuthAlgrthm`. -/
  authAlgrthm : AuthAlgrthm
  /-- `dot11PrivacyAlgrthm`. -/
  privacyAlgrthm : SecurityType
  /-- `dot118021XGrpPrivacy`. -/
  grpPrivacy : SecurityType
  sta : StaId → StaInfo
  validateHdr : RecvFrame → HdrRet
  /-- `rtw_match_self_addr`. -/
  matchSelfAddr : List UInt8 → Bool
  wepDecrypt : RecvFrame → RecvFrame
  tkipDecrypt : RecvFrame → Option RecvFrame
  aesDecrypt : RecvFrame → Option RecvFrame
  gcmpDecrypt : RecvFrame → Option RecvFrame
  /-- The MIC of a TKIP frame is the one in it, and the key to compute it is installed. -/
  tkipMic : RecvFrame → Bool

/-- `GET_ENCRY_ALGO`. -/
def RxEnv.encryAlgo (env : RxEnv) (s : StaId) (bmcst : Bool) : SecurityType :=
  match env.authAlgrthm with
  | .ieee8021X => if bmcst then env.grpPrivacy else (env.sta s).privacy
  | _ => env.privacyAlgrthm

/-- `SET_ICE_IV_LEN`: `iv_len` and `icv_len`. -/
def ivIcvLen : SecurityType → ℕ × ℕ
  | .wep40 | .wep104 => (4, 4)
  | .tkip => (8, 4)
  | .aes => (8, 8)
  | .gcmp | .gcmp256 | .ccmp256 => (8, 16)
  | .sms4 => (18, 16)
  | .noPrivacy | .tkipWtmic => (0, 0)

/-! ### The duplicate and replay state -/

/-- The fields of `struct sta_recv_priv` for duplicates and packet numbers.  `iv` is `rxcache.iv`. -/
structure StaRecvPriv where
  tidRxseq : ℕ → ℕ
  bmcTidRxseq : ℕ → ℕ
  nonqosRxseq : ℕ
  nonqosBmcRxseq : ℕ
  iv : ℕ → List UInt8
  lastTid : ℕ

/-- What the path reads and writes beside the frame: the state of every station, the packet numbers of
the group keys and the fragments. -/
structure RecvPriv where
  sta : StaId → StaRecvPriv
  ivSeq : ℕ → BitVec 64
  defragQ : StaId → List RecvFrame

/-- `seq_ctrl` of `recv_decache`. -/
def RxPktAttrib.seqCtrl (a : RxPktAttrib) : ℕ :=
  (a.seqNum % 2 ^ 16 * 16 + a.fragNum % 16) % 2 ^ 16

/-- `*prxseq`. -/
def StaRecvPriv.rxseq (p : StaRecvPriv) (a : RxPktAttrib) : ℕ :=
  match a.qos, isMcast a.ra with
  | true, true => p.bmcTidRxseq a.priority
  | true, false => p.tidRxseq a.priority
  | false, true => p.nonqosBmcRxseq
  | false, false => p.nonqosRxseq

def StaRecvPriv.setRxseq (p : StaRecvPriv) (a : RxPktAttrib) (seqCtrl : ℕ) : StaRecvPriv :=
  match a.qos, isMcast a.ra with
  | true, true => { p with bmcTidRxseq := Function.update p.bmcTidRxseq a.priority seqCtrl }
  | true, false => { p with tidRxseq := Function.update p.tidRxseq a.priority seqCtrl }
  | false, true => { p with nonqosBmcRxseq := seqCtrl }
  | false, false => { p with nonqosRxseq := seqCtrl }

/-- `recv_decache`; `none` is `_FAIL`. -/
def recvDecache (p : StaRecvPriv) (a : RxPktAttrib) : Option StaRecvPriv :=
  if 15 < a.priority then none
  else if a.seqCtrl = p.rxseq a then none
  else some (p.setRxseq a a.seqCtrl)

/-- `recv_ucast_pn_decache`; a packet number that is not valid is let through. -/
def recvUcastPnDecache (p : StaRecvPriv) (f : RecvFrame) : Option StaRecvPriv :=
  let tid := f.attrib.priority
  if 15 < tid then none
  else
    match rtwIvToPn f.iv f.attrib.encrypt, rtwIvToPn (p.iv tid) f.attrib.encrypt with
    | some (pktPn, _), some (currPn, _) =>
      if validPnChk (getLe64 pktPn) (getLe64 currPn) then
        some { p with lastTid := tid, iv := Function.update p.iv tid (f.iv.take 8) }
      else some p
    | _, _ => some p

def RecvPriv.setSta (st : RecvPriv) (s : StaId) (p : StaRecvPriv) : RecvPriv :=
  { st with sta := Function.update st.sta s p }

/-! ### validate_recv_data_frame -/

/-- `(to_fr_ds == 3) ? ETH_ALEN : 0`. -/
def RxPktAttrib.a4Shift (a : RxPktAttrib) : ℕ := if a.toFrDs = 3 then 6 else 0

def RecvFrame.qosByte (f : RecvFrame) : ℕ := (byteAt f.rxData (24 + f.attrib.a4Shift)).toNat

/-- `amsdu` from the header. -/
def setAmsdu (f : RecvFrame) : RecvFrame :=
  { f with attrib := { f.attrib with amsdu := f.attrib.qos ∧ f.qosByte / 128 % 2 = 1 } }

/-- The sender, the priority and the length of the header. -/
def parseQc (s : StaId) (f : RecvFrame) : RecvFrame :=
  let hdrlen := if f.attrib.qos then 26 + f.attrib.a4Shift else 24 + f.attrib.a4Shift
  { f with
    psta := some s
    attrib :=
      { f.attrib with
        priority := if f.attrib.qos then f.qosByte % 16 else 0
        -- HT-CTRL 11n
        hdrlen := if f.attrib.order then hdrlen + 4 else hdrlen } }

/-- The cipher and the lengths that belong to it. -/
def setEncrypt (env : RxEnv) (s : StaId) (f : RecvFrame) : RecvFrame :=
  let e := env.encryAlgo s (isMcast f.attrib.ra)
  { f with
    attrib := if f.attrib.privacy
      then { f.attrib with encrypt := e, ivLen := (ivIcvLen e).1, icvLen := (ivIcvLen e).2 }
      else { f.attrib with encrypt := .noPrivacy, ivLen := 0, icvLen := 0 } }

/-- The ether type behind the LLC header. -/
def RecvFrame.etherType (f : RecvFrame) : ℕ :=
  let i := f.attrib.hdrlen + f.attrib.ivLen + 6
  (byteAt f.rxData i).toNat * 256 + (byteAt f.rxData (i + 1)).toNat

abbrev eapolType : ℕ := 0x888e

/-- What is dropped in a protected network. -/
def plaintextDrop (env : RxEnv) (s : StaId) (f : RecvFrame) : Bool :=
  let a := f.attrib
  if env.privacyAlgrthm = .noPrivacy then false
  else if isMcast a.ra then ¬ a.privacy
  else if env.authAlgrthm = .ieee8021X then
    -- let eapol packet go through
    (¬ a.privacy ∧ f.etherType ≠ eapolType) ∨
    -- plaintext A-MSDU
    (¬ a.privacy ∧ a.amsdu) ∨
    -- an eapol packet to be forwarded before the 4-way handshake is done
    (f.etherType = eapolType ∧ env.mlmeIsApOrMesh ∧ (env.sta s).privacy = .noPrivacy ∧ ¬ env.matchSelfAddr a.dst)
  else ¬ a.privacy

/-- The packet number checks behind `recv_decache`: `false` is `_FAIL`. -/
def pnDecache (env : RxEnv) (s : StaId) (f : RecvFrame) (st : RecvPriv) : Bool × RecvPriv :=
  if ¬ isMcast f.attrib.ra then
    match recvUcastPnDecache (st.sta s) f with
    | some p => (true, st.setSta s p)
    | none => (false, st)
  else
    let (ok, ivSeq) := recvBcastPnDecache env.mlmeIsSta st.ivSeq f
    (ok, { st with ivSeq := ivSeq })

/-- `validate_recv_data_frame`: the sender and the frame it leaves, `none` for anything but
`_SUCCESS`. -/
def validateRecvDataFrame (env : RxEnv) (f : RecvFrame) (st : RecvPriv) : Option (StaId × RecvFrame) × RecvPriv :=
  match env.validateHdr (setAmsdu f) with
  | .success (some s) a =>
    let f := { f with attrib := a }
    if (env.sta s).amsduDisable ∧ f.attrib.amsdu then (none, st)
    else
      let f := parseQc s f
      -- decache, drop duplicate recv packets
      match recvDecache (st.sta s) f.attrib with
      | none => (none, st)
      | some p =>
        match pnDecache env s f (st.setSta s p) with
        | (false, st) => (none, st)
        | (true, st) =>
          let f := setEncrypt env s f
          if plaintextDrop env s f then (none, st) else (some (s, f), st)
  | _ => (none, st)

theorem validateRecvDataFrame_some {env : RxEnv} {f g : RecvFrame} {s : StaId} {st st' : RecvPriv}
    (h : validateRecvDataFrame env f st = (some (s, g), st')) :
    ∃ a p, env.validateHdr (setAmsdu f) = .success (some s) a ∧
      recvDecache (st.sta s) (parseQc s { f with attrib := a }).attrib = some p ∧
      pnDecache env s (parseQc s { f with attrib := a }) (st.setSta s p) = (true, st') ∧
      g = setEncrypt env s (parseQc s { f with attrib := a }) ∧ plaintextDrop env s g = false := by
  unfold validateRecvDataFrame at h
  split at h
  · rename_i s' a hv
    simp only at h
    split at h
    · cases h
    · cases hd : recvDecache (st.sta s') (parseQc s' { f with attrib := a }).attrib with
      | none => simp [hd] at h
      | some p =>
        simp only [hd] at h
        rcases hpn : pnDecache env s' (parseQc s' { f with attrib := a }) (st.setSta s' p) with
          ⟨ok, st₂⟩
        cases ok with
        | false => simp [hpn] at h
        | true =>
          simp only [hpn] at h
          split at h
          · cases h
          · rename_i hplain
            cases h
            exact ⟨a, p, hv, hd, hpn, rfl, by simpa using hplain⟩
  · cases h

theorem pnDecache_defragQ (env : RxEnv) (s : StaId) (f : RecvFrame) (st : RecvPriv) :
    (pnDecache env s f st).2.defragQ = st.defragQ := by
  unfold pnDecache
  split
  · split <;> rfl
  · rfl

/-! ### rtw_core_rx_data_pre_process -/

/-- The software decryption of `decryptor`. -/
def swDecrypt (env : RxEnv) (f : RecvFrame) : Option RecvFrame :=
  match f.attrib.encrypt with
  | .wep40 | .wep104 => some (env.wepDecrypt f)
  | .tkip => env.tkipDecrypt f
  | .aes | .ccmp256 => env.aesDecrypt f
  | .gcmp | .gcmp256 => env.gcmpDecrypt f
  | _ => some f

/-- `decryptor`; `none` is NULL. -/
def decryptor (env : RxEnv) (f : RecvFrame) : Option RecvFrame :=
  let f := if f.attrib.encrypt ≠ .noPrivacy
    then { f with attrib := { f.attrib with keyIndex := f.keyId } } else f
  let out := if f.attrib.encrypt ≠ .noPrivacy ∧ ¬ f.attrib.bdecrypted then swDecrypt env f
    else some f
  out.map fun f => { f with attrib := { f.attrib with bdecrypted := true } }

/-- `recvframe_chkmic`; `none` is `_FAIL`. -/
def recvframeChkmic (env : RxEnv) (f : RecvFrame) : Option RecvFrame :=
  if f.attrib.encrypt = .tkip then
    if f.psta ≠ none ∧ ¬ env.tkipMic f then none else some (recvframePullTail f 8)
  else some f

/-- `portctrl` lets the frame pass. -/
def portctrl (env : RxEnv) (f : RecvFrame) : Bool :=
  match env.authAlgrthm, f.psta with
  | .ieee8021X, some s => ¬ (env.sta s).blocked ∨ f.etherType = eapolType
  | _, _ => true

inductive RxEnd where
  | dropValidate
  | dropDecrypt
  | queued
  | dropDefrag
  | dropMic
  | dropPort
  | passed (f : RecvFrame)
  deriving DecidableEq

/-- `rtw_core_rx_data_pre_process` on a frame from `s`. -/
def rxDataPreProcess (env : RxEnv) (s : StaId) (f : RecvFrame) (st : RecvPriv) : RxEnd × RecvPriv :=
  match decryptor env f with
  | none => (.dropDecrypt, st)
  | some f =>
    let f := markKeytrack true (env.sta s).keytrack f
    let out := recvframeChkDefrag id (some (st.defragQ s)) f
    let st := { st with defragQ := Function.update st.defragQ s out.queue }
    match out.ret, out.frame with
    | .cont, some f =>
      let f := out.whole.getD f
      -- Rx TKIP MIC
      match if f.attrib.privacy then recvframeChkmic env f else some f with
      | none => (.dropMic, st)
      | some f => if portctrl env f then (.passed f, st) else (.dropPort, st)
    | .defrag, _ => (.queued, st)
    | _, _ => (.dropDefrag, st)

/-- A data frame in `rtw_core_rx_process` from `validate_recv_data_frame` to the end of
`rtw_core_rx_data_pre_process`. -/
def rxDataFrame (env : RxEnv) (f : RecvFrame) (st : RecvPriv) : RxEnd × RecvPriv :=
  match validateRecvDataFrame env f st with
  | (none, st) => (.dropValidate, st)
  | (some (s, f), st) => rxDataPreProcess env s f st

end Rtl8852cu.Recv
