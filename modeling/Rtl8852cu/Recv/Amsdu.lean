import Rtl8852cu.Recv.DefragBuf
import Rtl8852cu.Recv.Shortcut
import Rtl8852cu.Lib.Reach

/-!
# The MSDUs of an A-MSDU

`amsdu_to_msdu` on the buffer of a frame, with every read of it.

`CONFIG_RTW_MESH`, `CONFIG_RTW_WDS` and `CONFIG_WAPI_SUPPORT` are not set.  What becomes of a packet that is forwarded,
and what the upper layers read of the copies, is left out.
-/

namespace Rtl8852cu.Recv

open Lib

/-! ### Constants of the headers -/

def ethHlen : ℕ := 14

def maxSubframeCount : ℕ := 64

def ethPIp : ℕ := 0x0800

/-- `htons` -/
def be16 (n : ℕ) : List UInt8 := [UInt8.ofNat (n / 256), UInt8.ofNat n]

/-- `registrypriv.amsdu_mode` -/
inductive AmsduMode where
  | nonSpp
  | spp
  | allDrop
deriving DecidableEq, Repr

inductive MlmeRole where
  | ap
  | sta
  | other
deriving DecidableEq, Repr

/-- What the function looks up outside of the frame.  `forward k` and `alloc k` say whether there is a frame to forward the
subframe `k` in, and memory for its packet. -/
structure AmsduEnv where
  amsduMode : AmsduMode
  dot11PrivacyAlgrthm : SecurityType
  role : MlmeRole
  /-- `adapter_mac_addr` -/
  mac : List UInt8
  /-- `rtw_get_stainfo` -/
  isPeer : List UInt8 → Bool
  asocListCnt : ℕ
  forward : ℕ → Bool
  alloc : ℕ → Bool

/-! ### One subframe -/

def validateAmsduContent (env : AmsduEnv) (attrib : RxPktAttrib) (da sa : List UInt8) : Bool :=
  if env.amsduMode = .nonSpp ∧ env.dot11PrivacyAlgrthm ≠ .noPrivacy then
    decide (¬ (attrib.toFrDs = 1 ∧ da ≠ attrib.ra) ∧ ¬ (attrib.toFrDs = 2 ∧ sa ≠ attrib.ta) ∧ da ≠ rfc1042Header)
  else true

/-- `rtw_recv_llc_parse`, of the bytes of an MSDU -/
def msduLlcParse (msdu : List UInt8) : RxLlcHdl :=
  if msdu.length < 8 then .keep
  else if (msdu.take 6 = rfc1042Header ∧ be16At msdu 6 ≠ ethPAarp ∧ be16At msdu 6 ≠ ethPIpx) ∨
      msdu.take 6 = bridgeTunnelHeader then .remove
  else .keep

/-- What it reads of an MSDU at `p`. -/
def llcParseReads (p : ℕ) (msdu : List UInt8) : List (ℕ × ℕ) := if msdu.length < 8 then [] else [(p, 8)]

/-- What `rtw_os_recv_select_queue` reads: the type, and the TOS field of an IP header. -/
def selectQueueReads (p : ℕ) (msdu : List UInt8) (llcHdl : RxLlcHdl) : List (ℕ × ℕ) :=
  if llcHdl = .remove then (p + 6, 2) :: if be16At msdu 6 = ethPIp then [(p + 9, 1)] else []
  else []

/-- `fwd_chk` goes on to the queue. -/
def FwdChecked (env : AmsduEnv) (da sa : List UInt8) : Prop :=
  sa ≠ env.mac ∧ (isMcast da = true ∨ da ≠ env.mac) ∧ 1 < env.asocListCnt

instance (env : AmsduEnv) (da sa : List UInt8) : Decidable (FwdChecked env da sa) :=
  inferInstanceAs (Decidable (_ ∧ _ ∧ _))

/-- `rtw_ap_rx_msdu_act_check` of the subframe `k` -/
def rtwApRxMsduActCheck (env : AmsduEnv) (k : ℕ) (da sa : List UInt8) : MsduAct :=
  if sa = env.mac then ⟨false, false⟩
  else if isMcast da then ⟨true, decide (1 < env.asocListCnt) && env.forward k⟩
  else if da = env.mac then ⟨true, false⟩
  else ⟨!env.isPeer da, decide (1 < env.asocListCnt) && env.forward k⟩

/-- `act` of the subframe `k` -/
def msduAct (env : AmsduEnv) (k : ℕ) (da sa : List UInt8) : MsduAct :=
  match env.role with
  | .ap => rtwApRxMsduActCheck env k da sa
  | .sta | .other => ⟨true, false⟩

/-- `rtw_os_alloc_msdu_pkt`: the Ethernet frame, of a copy or of a clone. -/
def rtwOsAllocMsduPkt (da sa msdu : List UInt8) (llcHdl : RxLlcHdl) : List UInt8 :=
  match llcHdl with
  | .remove => da ++ sa ++ msdu.drop 6
  | .keep => da ++ sa ++ be16 msdu.length ++ msdu

/-- The state at the head of the loop; `k` counts the subframes. -/
structure AmsduHead where
  pdata : ℕ
  aLen : ℕ
  subframes : List (List UInt8)
  k : ℕ

/-- What one round reads and leaves; `none` is `break`. -/
structure AmsduRound where
  reads : List (ℕ × ℕ)
  subframes : List (List UInt8)
  next : Option (ℕ × ℕ)

def paddingLen (n : ℕ) : ℕ :=
  let paddingLen := 4 - (n + ethHlen) % 4
  if paddingLen = 4 then 0 else paddingLen

def moveToNext (pdata aLen nSubframeLength : ℕ) (subframes : List (List UInt8)) : Option (ℕ × ℕ) :=
  if maxSubframeCount ≤ subframes.length then none
  else
    let pdata := pdata + ethHlen + nSubframeLength
    let aLen := aLen - ethHlen - nSubframeLength
    if aLen ≠ 0 then
      if aLen < paddingLen nSubframeLength then none
      else some (pdata + paddingLen nSubframeLength, aLen - paddingLen nSubframeLength)
    else some (pdata, aLen)

variable (env : AmsduEnv) (attrib : RxPktAttrib) (mem : ℕ → UInt8)

def nSubframeLength (pdata : ℕ) : ℕ := be16At (slice mem (pdata + 12) 2) 0

def amsduBody (s : AmsduHead) : AmsduRound :=
  let nSub := nSubframeLength mem s.pdata
  let reads := [(s.pdata + 12, 2)]
  if s.aLen < ethHlen + nSub then ⟨reads, s.subframes, none⟩
  else
    let da := slice mem s.pdata 6
    let sa := slice mem (s.pdata + 6) 6
    let reads := reads ++ [(s.pdata, 6), (s.pdata + 6, 6)]
    if validateAmsduContent env attrib da sa = false then ⟨reads, s.subframes, none⟩
    else
      let p := s.pdata + ethHlen
      let msdu := slice mem p nSub
      let llcHdl := msduLlcParse msdu
      let act := msduAct env s.k da sa
      let reads := reads ++ llcParseReads p msdu ++
        if env.role = .ap ∧ FwdChecked env da sa then selectQueueReads p msdu llcHdl else []
      if act.indicate = false ∧ act.forward = false then
        ⟨reads, s.subframes, moveToNext s.pdata s.aLen nSub s.subframes⟩
      else if env.alloc s.k = false then ⟨reads, s.subframes, none⟩
      else
        let reads := reads ++ [(p, nSub)]
        if act.indicate = false then ⟨reads, s.subframes, moveToNext s.pdata s.aLen nSub s.subframes⟩
        else
          let subframes := s.subframes ++ [rtwOsAllocMsduPkt da sa msdu llcHdl]
          ⟨reads, subframes, moveToNext s.pdata s.aLen nSub subframes⟩

variable {n : ℕ} {q : ℕ × ℕ}

theorem moveToNext_lt {pdata aLen : ℕ} {subframes : List (List UInt8)} (hlen : ethHlen < aLen)
    (h : moveToNext pdata aLen n subframes = some q) : q.2 < aLen := by
  unfold ethHlen at hlen
  unfold moveToNext ethHlen at h
  dsimp only at h
  split at h
  · cases h
  split at h
  · split at h
    · cases h
    · cases h
      dsimp only; omega
  · cases h
    dsimp only; omega

theorem amsduBody_lt {s : AmsduHead} (hlen : ethHlen < s.aLen) (h : (amsduBody env attrib mem s).next = some q) :
    q.2 < s.aLen := by
  unfold amsduBody at h
  dsimp only at h
  split at h
  · cases h
  split at h
  · cases h
  split at h
  · exact moveToNext_lt hlen h
  split at h
  · cases h
  split at h
  · exact moveToNext_lt hlen h
  · exact moveToNext_lt hlen h

/-- `while (a_len > ETH_HLEN)`: the packets, and what is read. -/
def amsduLoop (s : AmsduHead) : List (List UInt8) × List (ℕ × ℕ) :=
  if _ : ethHlen < s.aLen then
    let r := amsduBody env attrib mem s
    match _ : r.next with
    | none => (r.subframes, r.reads)
    | some q =>
      let out := amsduLoop ⟨q.1, q.2, r.subframes, s.k + 1⟩
      (out.1, r.reads ++ out.2)
  else (s.subframes, [])
termination_by s.aLen
decreasing_by exact amsduBody_lt env attrib mem ‹_› ‹_›

/-- The frame without its header, IV and ICV. -/
def amsduFrame (f : RecvBuf) : RecvBuf :=
  let f := recvframePullBuf f f.attrib.hdrlen
  let f := if 0 < f.attrib.ivLen then recvframePullBuf f f.attrib.ivLen else f
  if f.attrib.encrypt ≠ .noPrivacy then recvframePullTailBuf f f.attrib.icvLen else f

def amsduStart (f : RecvBuf) : AmsduHead := ⟨(amsduFrame f).rxData, (amsduFrame f).len, [], 0⟩

/-- `amsdu_to_msdu`: the packets that are indicated, and what is read. -/
def amsduToMsdu (f : RecvBuf) : List (List UInt8) × List (ℕ × ℕ) :=
  amsduLoop env (amsduFrame f).attrib (amsduFrame f).mem (amsduStart f)

variable {env attrib mem} {s : AmsduHead}

theorem amsduLoop_stop (hlen : ¬ ethHlen < s.aLen) : amsduLoop env attrib mem s = (s.subframes, []) := by
  rw [amsduLoop, dif_neg hlen]

theorem amsduLoop_break (hlen : ethHlen < s.aLen) (h : (amsduBody env attrib mem s).next = none) :
    amsduLoop env attrib mem s = ((amsduBody env attrib mem s).subframes, (amsduBody env attrib mem s).reads) := by
  rw [amsduLoop, dif_pos hlen]
  dsimp only
  split
  · rfl
  · rename_i hq
    rw [h] at hq; cases hq

theorem amsduLoop_next (hlen : ethHlen < s.aLen) (h : (amsduBody env attrib mem s).next = some q) :
    amsduLoop env attrib mem s =
      ((amsduLoop env attrib mem ⟨q.1, q.2, (amsduBody env attrib mem s).subframes, s.k + 1⟩).1,
        (amsduBody env attrib mem s).reads ++
          (amsduLoop env attrib mem ⟨q.1, q.2, (amsduBody env attrib mem s).subframes, s.k + 1⟩).2) := by
  rw [amsduLoop, dif_pos hlen]
  dsimp only
  split
  · rename_i hq
    rw [h] at hq; cases hq
  · rename_i hq
    rw [h] at hq
    cases hq
    rfl

/-! ### The MSDUs -/

structure Msdu where
  da : List UInt8
  sa : List UInt8
  payload : List UInt8
  length_da : da.length = 6
  length_sa : sa.length = 6
  length_payload : payload.length < 65536

def Msdu.subframe (m : Msdu) : List UInt8 := m.da ++ m.sa ++ be16 m.payload.length ++ m.payload

/-- The Ethernet frame of an MSDU: the type is in the place of the SNAP header, if there is one. -/
def Msdu.packet (m : Msdu) : List UInt8 :=
  m.da ++ m.sa ++ match msduLlcParse m.payload with
    | .remove => m.payload.drop 6
    | .keep => be16 m.payload.length ++ m.payload

/-- The bodies that carry these MSDUs: all subframes but the last are padded to four bytes. -/
inductive Encodes : List Msdu → List UInt8 → Prop
  | nil : Encodes [] []
  | last (m : Msdu) : Encodes [m] m.subframe
  | cons (m m' : Msdu) (ms : List Msdu) (pad body : List UInt8) (hpad : pad.length < 4)
      (hfour : (m.subframe ++ pad).length % 4 = 0) (hrest : Encodes (m' :: ms) body) :
      Encodes (m :: m' :: ms) (m.subframe ++ pad ++ body)

/-- The checks of the addresses let an MSDU pass. -/
structure Passes (env : AmsduEnv) (attrib : RxPktAttrib) (m : Msdu) : Prop where
  content : validateAmsduContent env attrib m.da m.sa = true
  act : ∀ k, (msduAct env k m.da m.sa).indicate = true

def carried : List Msdu → List Msdu
  | [] => []
  | [m] => if m.payload = [] then [] else [m]
  | m :: m' :: ms => m :: carried (m' :: ms)

theorem Msdu.length_subframe (m : Msdu) : m.subframe.length = ethHlen + m.payload.length := by
  unfold Msdu.subframe be16 ethHlen
  rw [List.length_append, List.length_append, List.length_append, m.length_da, m.length_sa]; rfl

theorem be16At_be16 (h : n < 65536) : be16At (be16 n) 0 = n := by
  have hhi : (UInt8.ofNat (n / 256)).toNat = n / 256 := by
    rw [UInt8.toNat_ofNat']; exact Nat.mod_eq_of_lt (by omega)
  have hlo : (UInt8.ofNat n).toNat = n % 256 := UInt8.toNat_ofNat'
  show (UInt8.ofNat (n / 256)).toNat * 256 + (UInt8.ofNat n).toNat = n
  omega

variable {a : ℕ}

theorem subframe_read {m : Msdu} (h : slice mem a m.subframe.length = m.subframe) :
    nSubframeLength mem a = m.payload.length ∧ slice mem a 6 = m.da ∧ slice mem (a + 6) 6 = m.sa ∧
      slice mem (a + ethHlen) m.payload.length = m.payload := by
  obtain ⟨hhead, hpayload⟩ := slice_append h
  obtain ⟨haddr, hlen⟩ := slice_append hhead
  obtain ⟨hda, hsa⟩ := slice_append haddr
  have htwelve : (m.da ++ m.sa).length = 12 := by rw [List.length_append, m.length_da, m.length_sa]
  rw [m.length_da] at hda hsa
  rw [m.length_sa] at hsa
  rw [htwelve] at hlen
  rw [List.length_append, htwelve] at hpayload
  refine ⟨?_, hda, hsa, hpayload⟩
  unfold nSubframeLength; exact (congrArg (be16At · 0) hlen).trans (be16At_be16 m.length_payload)

theorem amsduBody_delivers {m : Msdu} (h : slice mem s.pdata m.subframe.length = m.subframe)
    (hfit : m.subframe.length ≤ s.aLen) (hpass : Passes env attrib m) (halloc : env.alloc s.k = true) :
    (amsduBody env attrib mem s).subframes = s.subframes ++ [m.packet] ∧ (amsduBody env attrib mem s).next =
        moveToNext s.pdata s.aLen m.payload.length (s.subframes ++ [m.packet]) := by
  obtain ⟨hlen, hda, hsa, hpayload⟩ := subframe_read h
  have hpacket : rtwOsAllocMsduPkt m.da m.sa m.payload (msduLlcParse m.payload) = m.packet := by
    unfold rtwOsAllocMsduPkt Msdu.packet
    cases msduLlcParse m.payload
    · simp only [List.append_assoc]
    · rfl
  have hact := hpass.act s.k
  rw [m.length_subframe] at hfit
  unfold amsduBody
  dsimp only
  rw [hlen, if_neg (by omega), hda, hsa, if_neg (by rw [hpass.content]; nofun), hpayload, if_neg (by rw [hact]; nofun),
    if_neg (by rw [halloc]; nofun), if_neg (by rw [hact]; nofun), hpacket]
  exact ⟨rfl, rfl⟩

theorem paddingLen_eq {k : ℕ} (hk : k < 4) (h : (ethHlen + n + k) % 4 = 0) : paddingLen n = k := by
  unfold paddingLen ethHlen at *
  dsimp only
  split
  · omega
  · omega

variable {ms : List Msdu} {body : List UInt8}

theorem Encodes.length_pos {m : Msdu} (h : Encodes (m :: ms) body) : 0 < body.length := by
  have hsub := m.length_subframe
  unfold ethHlen at hsub
  cases h with
  | last => omega
  | cons m' ms pad body hpad hfour hrest =>
    rw [List.length_append, List.length_append]; omega

theorem amsduLoop_delivers (henc : Encodes ms body)
    (hbody : slice mem s.pdata s.aLen = body) (hpass : ∀ m ∈ ms, Passes env attrib m) (halloc : ∀ k, env.alloc k = true)
    (hcount : s.subframes.length + ms.length ≤ maxSubframeCount) :
    (amsduLoop env attrib mem s).1 = s.subframes ++ (carried ms).map Msdu.packet := by
  have hlen : s.aLen = body.length := by rw [← hbody, length_slice]
  induction henc generalizing s with
  | nil =>
    rw [amsduLoop_stop (by rw [hlen]; exact Nat.not_lt_zero _)]
    exact (List.append_nil _).symm
  | last m =>
    rw [m.length_subframe] at hlen
    unfold carried
    by_cases hempty : m.payload = []
    · rw [if_pos hempty, amsduLoop_stop (by rw [hlen, hempty]; exact Nat.lt_irrefl _)]
      exact (List.append_nil _).symm
    · have hpos : 0 < m.payload.length := List.length_pos_iff.mpr hempty
      have hmore : ethHlen < s.aLen := by omega
      have hsub := m.length_subframe
      have hb : slice mem s.pdata m.subframe.length = m.subframe := by rw [hsub, ← hlen, hbody]
      obtain ⟨hsubs, hnext⟩ := amsduBody_delivers hb (by omega) (hpass m (List.mem_singleton_self m)) (halloc s.k)
      rw [if_neg hempty]
      -- the loop ends behind the last subframe, whether all places are taken or not
      by_cases hfull : maxSubframeCount ≤ (s.subframes ++ [m.packet]).length
      · have hstop : moveToNext s.pdata s.aLen m.payload.length (s.subframes ++ [m.packet]) = none := by
          unfold moveToNext
          rw [if_pos hfull]
        rw [amsduLoop_break hmore (hnext.trans hstop)]; exact hsubs
      · have hzero : s.aLen - ethHlen - m.payload.length = 0 := by omega
        have hgo : moveToNext s.pdata s.aLen m.payload.length (s.subframes ++ [m.packet]) =
            some (s.pdata + ethHlen + m.payload.length, 0) := by
          unfold moveToNext
          rw [if_neg hfull]
          dsimp only
          rw [hzero, if_neg (fun h => h rfl)]
        rw [amsduLoop_next hmore (hnext.trans hgo), amsduLoop_stop (Nat.not_lt_zero _)]; exact hsubs
  | cons m m' ms pad body hpad hfour hrest ih =>
    have hpos := hrest.length_pos
    have hsub := m.length_subframe
    rw [List.length_append, List.length_append] at hlen
    rw [List.length_append, hsub] at hfour
    have hmore : ethHlen < s.aLen := by omega
    obtain ⟨hfront, hbehind⟩ := slice_append hbody
    obtain ⟨hfirst, -⟩ := slice_append hfront
    obtain ⟨hsubs, hnext⟩ := amsduBody_delivers hfirst (by omega) (hpass m List.mem_cons_self) (halloc s.k)
    have hpadding := paddingLen_eq hpad hfour
    rw [List.length_cons, List.length_cons] at hcount
    have hroom : ¬ maxSubframeCount ≤ (s.subframes ++ [m.packet]).length := by
      rw [List.length_append, List.length_singleton]; omega
    have hgo : moveToNext s.pdata s.aLen m.payload.length (s.subframes ++ [m.packet]) =
        some (s.pdata + (m.subframe ++ pad).length, body.length) := by
      unfold moveToNext
      rw [if_neg hroom, hpadding, List.length_append, hsub]
      dsimp only
      rw [if_pos (by omega), if_neg (by omega)]
      congr 2
      · omega
      · omega
    rw [amsduLoop_next hmore (hnext.trans hgo)]
    have hloop := ih (s := ⟨_, _, (amsduBody env attrib mem s).subframes, s.k + 1⟩) hbehind
      (fun m' hm' => hpass m' (List.mem_cons_of_mem m hm')) (by
        dsimp only
        rw [hsubs, List.length_append, List.length_singleton, List.length_cons]
        omega) rfl
    dsimp only at hloop ⊢
    rw [hloop, hsubs, List.append_assoc]; rfl

theorem carried_eq_iff : (carried ms).map Msdu.packet = ms.map Msdu.packet ↔ ∀ m ∈ ms.getLast?, m.payload ≠ [] := by
  induction ms with
  | nil => exact ⟨fun _ => nofun, fun _ => rfl⟩
  | cons m ms ih =>
    cases ms with
    | nil =>
      unfold carried
      by_cases hempty : m.payload = []
      · rw [if_pos hempty]; exact ⟨nofun, fun h => absurd hempty (h m rfl)⟩
      · rw [if_neg hempty]; exact ⟨fun _ n hn => by cases hn; exact hempty, fun _ => rfl⟩
    | cons m' ms =>
      rw [List.getLast?_cons_cons, ← ih]
      show m.packet :: (carried (m' :: ms)).map Msdu.packet = m.packet :: (m' :: ms).map Msdu.packet ↔ _
      exact ⟨fun h => (List.cons.inj h).2, congrArg _⟩

/-! ### What is read -/

variable (env attrib mem) in
/-- The subframe is an IPv4 packet without its TOS field, at the end of the frame, and the check of an AP takes it to the
choice of a queue. -/
structure ForwardedRunt (s : AmsduHead) : Prop where
  fits : ethHlen + nSubframeLength mem s.pdata ≤ s.aLen
  short : s.aLen < ethHlen + 10
  content : validateAmsduContent env attrib (slice mem s.pdata 6) (slice mem (s.pdata + 6) 6) = true
  ap : env.role = .ap
  checked : FwdChecked env (slice mem s.pdata 6) (slice mem (s.pdata + 6) 6)
  snap : msduLlcParse (slice mem (s.pdata + ethHlen) (nSubframeLength mem s.pdata)) = .remove
  ip : be16At (slice mem (s.pdata + ethHlen) (nSubframeLength mem s.pdata)) 6 = ethPIp

/-- The reads are between two addresses. -/
def ReadsWithin (a e : ℕ) (reads : List (ℕ × ℕ)) : Prop := ∀ r ∈ reads, a ≤ r.1 ∧ r.1 + r.2 ≤ e

variable {e : ℕ}

theorem readsWithin_append {l₁ l₂ : List (ℕ × ℕ)} :
    ReadsWithin a e (l₁ ++ l₂) ↔ ReadsWithin a e l₁ ∧ ReadsWithin a e l₂ := List.forall_mem_append

theorem readsWithin_nil (a e : ℕ) : ReadsWithin a e [] := nofun

theorem readsWithin_cons {r : ℕ × ℕ} {l : List (ℕ × ℕ)} :
    ReadsWithin a e (r :: l) ↔ (a ≤ r.1 ∧ r.1 + r.2 ≤ e) ∧ ReadsWithin a e l := List.forall_mem_cons

variable {msdu : List UInt8}

theorem llcParse_remove (h : msduLlcParse msdu = .remove) : 8 ≤ msdu.length := by
  unfold msduLlcParse at h
  split at h
  · cases h
  · omega

theorem llcParseReads_within {p : ℕ} (h : p + msdu.length ≤ e) : ReadsWithin p e (llcParseReads p msdu) := by
  unfold llcParseReads
  split
  · exact readsWithin_nil p e
  · exact readsWithin_cons.mpr ⟨⟨le_rfl, by dsimp only; omega⟩, readsWithin_nil p e⟩

theorem selectQueueReads_within {p : ℕ} (h : p + msdu.length ≤ e) :
    ReadsWithin p e (selectQueueReads p msdu (msduLlcParse msdu)) ↔
      ¬ (msduLlcParse msdu = .remove ∧ be16At msdu 6 = ethPIp ∧ e < p + 10) := by
  unfold selectQueueReads
  by_cases hremove : msduLlcParse msdu = .remove
  · have hlen := llcParse_remove hremove
    rw [if_pos hremove, readsWithin_cons]
    dsimp only
    by_cases hip : be16At msdu 6 = ethPIp
    · rw [if_pos hip, readsWithin_cons]
      dsimp only
      constructor
      · rintro ⟨-, ⟨-, htos⟩, -⟩ ⟨-, -, hshort⟩; omega
      · intro h
        refine ⟨⟨Nat.le_add_right p 6, by omega⟩, ⟨Nat.le_add_right p 9, ?_⟩, readsWithin_nil p e⟩
        have : ¬ e < p + 10 := fun hshort => h ⟨hremove, hip, hshort⟩
        omega
    · rw [if_neg hip]
      exact ⟨fun _ h => hip h.2.1, fun _ => ⟨⟨Nat.le_add_right p 6, by omega⟩, readsWithin_nil p e⟩⟩
  · rw [if_neg hremove]; exact ⟨fun _ h => hremove h.1, fun _ => readsWithin_nil p e⟩

theorem ReadsWithin.mono {b : ℕ} {l : List (ℕ × ℕ)} (h : ReadsWithin b e l) (hab : a ≤ b) : ReadsWithin a e l :=
  fun r hr => ⟨hab.trans (h r hr).1, (h r hr).2⟩

theorem amsduBody_reads (ha : a ≤ s.pdata) (hlen : ethHlen < s.aLen) :
    ReadsWithin a (s.pdata + s.aLen) (amsduBody env attrib mem s).reads ↔ ¬ ForwardedRunt env attrib mem s := by
  have hhead : ReadsWithin a (s.pdata + s.aLen) [(s.pdata + 12, 2)] :=
    readsWithin_cons.mpr ⟨⟨ha.trans (Nat.le_add_right _ _), by unfold ethHlen at hlen; dsimp only; omega⟩, readsWithin_nil _ _⟩
  have haddr : ReadsWithin a (s.pdata + s.aLen) ([(s.pdata + 12, 2)] ++ [(s.pdata, 6), (s.pdata + 6, 6)]) := by
    unfold ethHlen at hlen
    refine readsWithin_append.mpr ⟨hhead, readsWithin_cons.mpr ⟨⟨ha, by dsimp only; omega⟩, ?_⟩⟩
    exact readsWithin_cons.mpr ⟨⟨ha.trans (Nat.le_add_right _ _), by dsimp only; omega⟩, readsWithin_nil _ _⟩
  unfold amsduBody
  dsimp only
  by_cases hfit : s.aLen < ethHlen + nSubframeLength mem s.pdata
  · rw [if_pos hfit]; exact iff_of_true hhead fun h => absurd h.fits (by omega)
  rw [if_neg hfit]
  by_cases hcontent : validateAmsduContent env attrib (slice mem s.pdata 6) (slice mem (s.pdata + 6) 6) = false
  · rw [if_pos hcontent]
    exact iff_of_true haddr fun h => by
      have := h.content
      rw [hcontent] at this; cases this
  rw [if_neg hcontent]
  have hend : s.pdata + ethHlen + (slice mem (s.pdata + ethHlen) (nSubframeLength mem s.pdata)).length ≤
      s.pdata + s.aLen := by
    rw [length_slice]; omega
  have hpayload : ReadsWithin a (s.pdata + s.aLen) [(s.pdata + ethHlen, nSubframeLength mem s.pdata)] :=
    readsWithin_cons.mpr ⟨⟨ha.trans (Nat.le_add_right _ _), by dsimp only; omega⟩, readsWithin_nil _ _⟩
  have hllc := (llcParseReads_within hend).mono (ha.trans (Nat.le_add_right s.pdata ethHlen))
  have hqueue := selectQueueReads_within hend
  -- the reads of the checks, which all the rest of the round shares
  have hchecks : ReadsWithin a (s.pdata + s.aLen)
      ([(s.pdata + 12, 2)] ++ [(s.pdata, 6), (s.pdata + 6, 6)] ++
        llcParseReads (s.pdata + ethHlen) (slice mem (s.pdata + ethHlen) (nSubframeLength mem s.pdata)) ++
        if env.role = .ap ∧ FwdChecked env (slice mem s.pdata 6) (slice mem (s.pdata + 6) 6) then
          selectQueueReads (s.pdata + ethHlen) (slice mem (s.pdata + ethHlen) (nSubframeLength mem s.pdata))
            (msduLlcParse (slice mem (s.pdata + ethHlen) (nSubframeLength mem s.pdata)))
        else []) ↔ ¬ ForwardedRunt env attrib mem s := by
    rw [readsWithin_append, readsWithin_append]
    by_cases hap : env.role = .ap ∧ FwdChecked env (slice mem s.pdata 6) (slice mem (s.pdata + 6) 6)
    · rw [if_pos hap]
      constructor
      · rintro ⟨-, h⟩ hrunt
        have hshort := hrunt.short
        refine hqueue.mp (fun r hr => ⟨?_, (h r hr).2⟩) ⟨hrunt.snap, hrunt.ip, by omega⟩
        unfold selectQueueReads at hr
        rw [if_pos hrunt.snap, if_pos hrunt.ip] at hr
        rcases List.mem_cons.mp hr with rfl | hr
        · exact Nat.le_add_right _ _
        · rw [List.mem_singleton.mp hr]; exact Nat.le_add_right _ _
      · intro hno
        refine ⟨⟨haddr, hllc⟩, (hqueue.mpr ?_).mono (ha.trans (Nat.le_add_right s.pdata ethHlen))⟩
        rintro ⟨hsnap, hip, hshort⟩
        exact hno ⟨by omega, by omega, by simpa using hcontent, hap.1, hap.2, hsnap, hip⟩
    · rw [if_neg hap]
      exact iff_of_true ⟨⟨haddr, hllc⟩, readsWithin_nil _ _⟩ fun h => hap ⟨h.ap, h.checked⟩
  split
  · exact hchecks
  split
  · exact hchecks
  · have hall := readsWithin_append.trans ((and_iff_left hpayload).trans hchecks)
    split
    · exact hall
    · exact hall

variable (env attrib mem) in
def AmsduNext (s t : AmsduHead) : Prop :=
  ethHlen < s.aLen ∧ ∃ q, (amsduBody env attrib mem s).next = some q ∧
    t = ⟨q.1, q.2, (amsduBody env attrib mem s).subframes, s.k + 1⟩

theorem moveToNext_sum {pdata aLen : ℕ} {subframes : List (List UInt8)} (hfit : ethHlen + n ≤ aLen)
    (h : moveToNext pdata aLen n subframes = some q) :
    pdata ≤ q.1 ∧ q.1 + q.2 = pdata + aLen ∧ subframes.length < maxSubframeCount := by
  unfold moveToNext at h
  split at h
  · cases h
  rename_i hroom
  dsimp only at h
  split at h
  · split at h
    · cases h
    · cases h
      dsimp only; omega
  · cases h
    dsimp only; omega

theorem amsduBody_next (s : AmsduHead) : (amsduBody env attrib mem s).subframes.length ≤ s.subframes.length + 1 ∧
      ∀ q, (amsduBody env attrib mem s).next = some q → s.pdata ≤ q.1 ∧ q.1 + q.2 = s.pdata + s.aLen ∧
        (amsduBody env attrib mem s).subframes.length < maxSubframeCount := by
  unfold amsduBody
  dsimp only
  split
  · exact ⟨Nat.le_succ _, nofun⟩
  rename_i hfit
  split
  · exact ⟨Nat.le_succ _, nofun⟩
  split
  · exact ⟨Nat.le_succ _, fun q hq => moveToNext_sum (Nat.not_lt.mp hfit) hq⟩
  split
  · exact ⟨Nat.le_succ _, nofun⟩
  split
  · exact ⟨Nat.le_succ _, fun q hq => moveToNext_sum (Nat.not_lt.mp hfit) hq⟩
  · refine ⟨?_, fun q hq => moveToNext_sum (Nat.not_lt.mp hfit) hq⟩
    rw [List.length_append, List.length_singleton]

theorem amsduLoop_count (hroom : s.subframes.length < maxSubframeCount) :
    (amsduLoop env attrib mem s).1.length ≤ maxSubframeCount := by
  induction hn : s.aLen using Nat.strongRecOn generalizing s with
  | ind n ih =>
    subst hn
    by_cases hlen : ethHlen < s.aLen
    · obtain ⟨hcount, hgo⟩ := @amsduBody_next env attrib mem s
      cases hnext : (amsduBody env attrib mem s).next with
      | none =>
        rw [amsduLoop_break hlen hnext]; exact hcount.trans hroom
      | some q =>
        rw [amsduLoop_next hlen hnext]
        exact ih _ (amsduBody_lt env attrib mem hlen hnext) (hgo q hnext).2.2 rfl
    · rw [amsduLoop_stop hlen]; exact hroom.le

theorem ForwardedRunt.long (h : ForwardedRunt env attrib mem s) : ethHlen < s.aLen := by
  have hfits := h.fits
  have hlen := llcParse_remove h.snap
  rw [length_slice] at hlen; omega

theorem amsduLoop_reads (ha : a ≤ s.pdata) : ReadsWithin a (s.pdata + s.aLen) (amsduLoop env attrib mem s).2 ↔
      ∀ t, Relation.ReflTransGen (AmsduNext env attrib mem) s t → ¬ ForwardedRunt env attrib mem t := by
  induction hn : s.aLen using Nat.strongRecOn generalizing s with
  | ind n ih =>
    subst hn
    by_cases hlen : ethHlen < s.aLen
    · have hbody := @amsduBody_reads env attrib mem s a ha hlen
      cases hnext : (amsduBody env attrib mem s).next with
      | none =>
        rw [amsduLoop_break hlen hnext, hbody]
        constructor
        · intro h t ht
          rcases Relation.ReflTransGen.cases_head ht with rfl | ⟨u, ⟨-, q, hq, -⟩, -⟩
          · exact h
          · rw [hnext] at hq; cases hq
        · exact fun h => h s .refl
      | some q =>
        obtain ⟨hle, hsum, -⟩ := (amsduBody_next s).2 q hnext
        have hrest := ih _ (amsduBody_lt env attrib mem hlen hnext)
          (s := ⟨q.1, q.2, (amsduBody env attrib mem s).subframes, s.k + 1⟩) (ha.trans hle) rfl
        dsimp only at hrest
        rw [hsum] at hrest
        rw [amsduLoop_next hlen hnext, readsWithin_append, hbody]
        constructor
        · rintro ⟨h, hmore⟩ t ht
          rcases Relation.ReflTransGen.cases_head ht with rfl | ⟨u, ⟨-, q', hq, rfl⟩, ht⟩
          · exact h
          · rw [hnext] at hq
            cases hq
            exact hrest.mp hmore t ht
        · intro h
          refine ⟨h s .refl, hrest.mpr fun t ht => h t ?_⟩
          exact .head ⟨hlen, q, hnext, rfl⟩ ht
    · rw [amsduLoop_stop hlen]
      refine iff_of_true (readsWithin_nil _ _) fun t ht hrunt => ?_
      rcases Relation.ReflTransGen.cases_head ht with rfl | ⟨u, ⟨hlong, -⟩, -⟩
      · exact hlen hrunt.long
      · exact hlen hlong

/-! ### The frame -/

/-- The frame carries these MSDUs: they are encoded between its header and IV, and its ICV. -/
def Carries (f : RecvBuf) (ms : List Msdu) : Prop :=
  ∃ hdr iv body icv, f.bytes = hdr ++ (iv ++ (body ++ icv)) ∧ hdr.length = f.attrib.hdrlen ∧
    iv.length = f.attrib.ivLen ∧ icv.length = (if f.attrib.encrypt ≠ .noPrivacy then f.attrib.icvLen else 0) ∧
    Encodes ms body

variable {f : RecvBuf}

theorem pullTail_attrib (f : RecvBuf) (sz : ℕ) : (recvframePullTailBuf f sz).attrib = f.attrib := by
  unfold recvframePullTailBuf
  split
  · rfl
  · rfl

theorem amsduFrame_attrib (f : RecvBuf) : (amsduFrame f).attrib = f.attrib := by
  unfold amsduFrame
  dsimp only
  have hhdr := pull_attrib f f.attrib.hdrlen
  generalize recvframePullBuf f f.attrib.hdrlen = g at hhdr ⊢
  have hiv : (if 0 < g.attrib.ivLen then recvframePullBuf g g.attrib.ivLen else g).attrib = f.attrib := by
    split
    · rw [pull_attrib, hhdr]
    · exact hhdr
  generalize (if 0 < g.attrib.ivLen then recvframePullBuf g g.attrib.ivLen else g) = k at hiv ⊢
  split
  · rw [pullTail_attrib, hiv]
  · exact hiv

theorem amsduFrame_ok (hf : f.Ok) : (amsduFrame f).Ok := by
  unfold amsduFrame
  dsimp only
  have hhdr := hf.pull f.attrib.hdrlen
  generalize recvframePullBuf f f.attrib.hdrlen = g at hhdr ⊢
  have hiv : (if 0 < g.attrib.ivLen then recvframePullBuf g g.attrib.ivLen else g).Ok := by
    split
    · exact hhdr.pull _
    · exact hhdr
  generalize (if 0 < g.attrib.ivLen then recvframePullBuf g g.attrib.ivLen else g) = k at hiv ⊢
  split
  · exact hiv.pullTail _
  · exact hiv

theorem bytes_pull_append {l₁ l₂ : List UInt8} (hf : f.Ok) (h : f.bytes = l₁ ++ l₂) :
    (recvframePullBuf f l₁.length).bytes = l₂ := by
  have hlen : f.len = (l₁ ++ l₂).length := by rw [← h]; exact length_slice.symm
  rw [List.length_append] at hlen
  rw [bytes_pull hf (by omega), h, List.drop_left]

theorem bytes_pullTail_append {l₁ l₂ : List UInt8} (hf : f.Ok) (h : f.bytes = l₁ ++ l₂) :
    (recvframePullTailBuf f l₂.length).bytes = l₁ := by
  have hlen : f.len = (l₁ ++ l₂).length := by rw [← h]; exact length_slice.symm
  rw [List.length_append] at hlen
  rw [bytes_pullTail hf (by omega), h, hlen, Nat.add_sub_cancel_right, List.take_left]

theorem amsduFrame_bytes {hdr iv icv : List UInt8} (hf : f.Ok) (h : f.bytes = hdr ++ (iv ++ (body ++ icv)))
    (hhdr : hdr.length = f.attrib.hdrlen) (hiv : iv.length = f.attrib.ivLen)
    (hicv : icv.length = if f.attrib.encrypt ≠ .noPrivacy then f.attrib.icvLen else 0) : (amsduFrame f).bytes = body := by
  have hbytes := bytes_pull_append hf h
  have hok := hf.pull hdr.length
  have hattrib := pull_attrib f hdr.length
  rw [hhdr] at hbytes hok hattrib
  unfold amsduFrame
  dsimp only
  generalize recvframePullBuf f f.attrib.hdrlen = g at hbytes hok hattrib ⊢
  rw [← hattrib] at hiv hicv
  have hmid : (if 0 < g.attrib.ivLen then recvframePullBuf g g.attrib.ivLen else g).bytes = body ++ icv ∧
      (if 0 < g.attrib.ivLen then recvframePullBuf g g.attrib.ivLen else g).Ok ∧
      (if 0 < g.attrib.ivLen then recvframePullBuf g g.attrib.ivLen else g).attrib = g.attrib := by
    split
    · rw [← hiv]; exact ⟨bytes_pull_append hok hbytes, hok.pull _, pull_attrib g _⟩
    · have hnil : iv = [] := List.eq_nil_of_length_eq_zero (by omega)
      rw [hnil] at hbytes; exact ⟨hbytes, hok, rfl⟩
  generalize (if 0 < g.attrib.ivLen then recvframePullBuf g g.attrib.ivLen else g) = k at hmid ⊢
  obtain ⟨hkbytes, hkok, hkattrib⟩ := hmid
  rw [← hkattrib] at hicv
  split
  · rename_i henc
    rw [if_pos henc] at hicv
    rw [← hicv]; exact bytes_pullTail_append hkok hkbytes
  · rename_i henc
    rw [if_neg henc] at hicv
    rw [List.eq_nil_of_length_eq_zero hicv, List.append_nil] at hkbytes; exact hkbytes

/-- **The MSDUs of an A-MSDU.**  They are delivered in their order exactly when the last of them is not empty, there are
never more than the places, and all reads are inside of the frame exactly when no round is one that looks for a TOS field
behind it. -/
theorem amsdu_to_msdu_iff (env : AmsduEnv) (f : RecvBuf) (hf : f.Ok) :
    (∀ ms, Carries f ms → ms.length ≤ maxSubframeCount → (∀ m ∈ ms, Passes env f.attrib m) → (∀ k, env.alloc k = true) →
      ((amsduToMsdu env f).1 = ms.map Msdu.packet ↔ ∀ m ∈ ms.getLast?, m.payload ≠ [])) ∧
    (amsduToMsdu env f).1.length ≤ maxSubframeCount ∧
    (ReadsWithin (amsduFrame f).rxData (amsduFrame f).rxTail (amsduToMsdu env f).2 ↔
      ∀ s, Relation.ReflTransGen (AmsduNext env f.attrib (amsduFrame f).mem) (amsduStart f) s →
        ¬ ForwardedRunt env f.attrib (amsduFrame f).mem s) := by
  have hattrib := amsduFrame_attrib f
  have htail := (amsduFrame_ok hf).tail
  refine ⟨?_, ?_, ?_⟩
  · rintro ms ⟨hdr, iv, body, icv, hbytes, hhdr, hiv, hicv, henc⟩ hcount hpass halloc
    have hbody := amsduFrame_bytes hf hbytes hhdr hiv hicv
    have hout : (amsduToMsdu env f).1 = [] ++ (carried ms).map Msdu.packet :=
      amsduLoop_delivers henc hbody (by rwa [hattrib]) halloc (by show 0 + ms.length ≤ _; omega)
    rw [hout, List.nil_append]; exact carried_eq_iff
  · exact amsduLoop_count (show 0 < maxSubframeCount by decide)
  · have hreads := @amsduLoop_reads env (amsduFrame f).attrib (amsduFrame f).mem (amsduStart f) _ le_rfl
    unfold amsduToMsdu
    rw [← htail, hattrib] at *; exact hreads

/-! ### Small frames -/

/-- An interface in this role, with two stations and no privacy. -/
def openEnv (role : MlmeRole) : AmsduEnv :=
  ⟨.nonSpp, .noPrivacy, role, [2, 0, 0, 0, 0, 0], fun _ => false, 2, fun _ => true, fun _ => true⟩

/-- A frame with this body and nothing around it. -/
def openFrame (body : List UInt8) : RecvBuf := fragBuf (fragAttrib .noPrivacy 0 0 0 0) body 0

theorem openFrame_ok (body : List UInt8) : (openFrame body).Ok := ⟨Nat.zero_add _, Nat.le_refl _⟩

def smallMsdu (payload : List UInt8) (h : payload.length < 65536) : Msdu :=
  ⟨[0xff, 0xff, 0xff, 0xff, 0xff, 0xff], [4, 0, 0, 0, 0, 0], payload, rfl, rfl, h⟩

theorem openFrame_carries (h : Encodes ms body)
    (hbytes : (openFrame body).bytes = body) : Carries (openFrame body) ms :=
  ⟨[], [], body, [], by rw [hbytes, List.append_nil]; rfl, rfl, rfl, rfl, h⟩

/-- Three MSDUs, the second of them empty. -/
def smallMsdus : List Msdu := [smallMsdu [7] (by decide), smallMsdu [] (by decide), smallMsdu [8, 9] (by decide)]

def smallBody : List UInt8 :=
  (smallMsdu [7] (by decide)).subframe ++ [0] ++
    ((smallMsdu [] (by decide)).subframe ++ [0, 0] ++ (smallMsdu [8, 9] (by decide)).subframe)

theorem small_delivered : (amsduToMsdu (openEnv .sta) (openFrame smallBody)).1 = smallMsdus.map Msdu.packet :=
  ((amsdu_to_msdu_iff (openEnv .sta) (openFrame smallBody) (openFrame_ok smallBody)).1 smallMsdus
    (openFrame_carries (.cons _ _ _ _ _ (by decide) (by decide) (.cons _ _ _ _ _ (by decide) (by decide) (.last _)))
      (by decide))
    (by decide) (fun _ _ => ⟨rfl, fun _ => rfl⟩) fun _ => rfl).mpr (by decide)

/-- An empty MSDU by itself is lost; and of an IPv4 packet without its TOS field, an AP reads the byte behind the frame. -/
theorem amsdu_differs : (Carries (openFrame (smallMsdu [] (by decide)).subframe) [smallMsdu [] (by decide)] ∧
      (amsduToMsdu (openEnv .sta) (openFrame (smallMsdu [] (by decide)).subframe)).1 = []) ∧
    (openFrame (smallMsdu [0xaa, 0xaa, 3, 0, 0, 0, 8, 0] (by decide)).subframe).rxTail = 22 ∧
      (23, 1) ∈ (amsduToMsdu (openEnv .ap) (openFrame (smallMsdu [0xaa, 0xaa, 3, 0, 0, 0, 8, 0] (by decide)).subframe)).2 := by
  refine ⟨⟨openFrame_carries (.last _) (by decide), ?_⟩, by decide, ?_⟩
  · unfold amsduToMsdu
    rw [amsduLoop_stop (by decide)]; rfl
  · have hnext : (amsduBody (openEnv .ap) (fragAttrib .noPrivacy 0 0 0 0)
        (openFrame (smallMsdu [0xaa, 0xaa, 3, 0, 0, 0, 8, 0] (by decide)).subframe).mem ⟨0, 22, [], 0⟩).next =
          some (22, 0) := by decide
    show (23, 1) ∈ (amsduLoop (openEnv .ap) (fragAttrib .noPrivacy 0 0 0 0)
      (openFrame (smallMsdu [0xaa, 0xaa, 3, 0, 0, 0, 8, 0] (by decide)).subframe).mem ⟨0, 22, [], 0⟩).2
    rw [amsduLoop_next (by decide) hnext]; exact List.mem_append_left _ (by decide)

end Rtl8852cu.Recv
