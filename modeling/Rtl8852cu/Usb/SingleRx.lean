import Rtl8852cu.Lib.BitMem
import Rtl8852cu.Usb.Placement

/-!
# The packets of a receive buffer

`phl/hci/phl_trx_usb.c`, `phl_get_single_rx`, with `hal_handle_rx_buffer_8852c` and `hal_parsing_rx_wd_8852c` of
`phl/hal_g6/rtl8852c/hal_trx_8852c.c`: a descriptor is read where the packet before it ends, at a multiple of 8, and what
comes behind the descriptor is compared with the length of the transfer then. A packet gets an object of the pool, and its
type is written for some kinds of packets only.

The chip is behind USB and `PHL_RXSC_AMPDU` is not defined, `CONFIG_PHL_DFS` is. A report is handed over as a whole; what
its parser does with it is not followed.
-/

namespace Rtl8852cu.Usb

open Lib.BitMem

inductive RxType where
  | wifi
  | ppduStatus
  | channelInfo
  | txRpt
  | txWpReleaseHost
  | dfsRpt
  | c2h
  | max
  deriving DecidableEq, Repr

/-- What the descriptor says of its packet. -/
structure RxDesc where
  pktlen : ℕ
  shift : ℕ
  macInfoVld : ℕ
  rpktType : ℕ
  drvInfoSize : ℕ
  longRxd : ℕ
  phyRptEn : ℕ
  a1Match : ℕ

/-- `_hal_parsing_rx_wd_8852c` -/
def halParsingRxWd (m : Mem) (desc : ℕ) : RxDesc where
  pktlen := getBits m desc 4 0 14
  shift := getBits m desc 4 14 2
  macInfoVld := getBits m desc 4 23 1
  rpktType := getBits m desc 4 24 4
  drvInfoSize := getBits m desc 4 28 3
  longRxd := getBits m desc 4 31 1
  phyRptEn := getBits m (desc + 4) 4 28 1
  a1Match := getBits m (desc + 12) 4 0 1

/-- The words of the descriptor that are read, with the address of the receiver. -/
def RxDesc.wdReads (d : RxDesc) (desc : ℕ) : List (ℕ × ℕ) :=
  if d.rpktType = 0 ∨ d.rpktType = 1 then
    if d.longRxd = 1 then
      [(desc, 4), (desc + 4, 4), (desc + 8, 4), (desc + 12, 4), (desc + 16, 4), (desc + 20, 4), (desc + 24, 6), (desc + 28, 4)]
    else [(desc, 4), (desc + 4, 4), (desc + 8, 4), (desc + 12, 4)]
  else [(desc, 4)]

/-- `RX_DESC_L_SIZE_8852C` or `RX_DESC_S_SIZE_8852C` -/
def RxDesc.descL (d : RxDesc) : ℕ := if d.longRxd = 1 then 32 else 16

/-- `RX_PPDU_MAC_INFO_SIZE_8852C`, where there is such information. -/
def RxDesc.macInfo (d : RxDesc) : ℕ := if d.macInfoVld = 1 ∧ d.rpktType ≠ 1 then 4 else 0

/-- `*pkt` of `hal_parsing_rx_wd_8852c`, from the descriptor on; `shift` has 8 bits. -/
def RxDesc.pktOff (d : RxDesc) : ℕ := (d.shift * 2 + d.drvInfoSize * 16 + d.descL) % 2 ^ 8 + d.macInfo

/-- `phl_rx->type` behind the `switch` of `hal_handle_rx_buffer_8852c` -/
def rxTypeOf (rpktType : ℕ) (type : RxType) : RxType :=
  match rpktType with
  | 0 => .wifi
  | 1 => .ppduStatus
  | 2 => .channelInfo
  | 6 => .txRpt
  | 7 => .txWpReleaseHost
  | 8 => .dfsRpt
  | 10 => .c2h
  | _ => type

/-- What is not known of the driver: whether a frame is the first of its PPDU, and whether there is a `netbuf` for it. -/
structure RxEnv where
  ppduCntChg : ℕ → Bool
  netbuf : ℕ → Bool

/-- `PHL_GET_80211_HDR_TYPE` -/
def hdrType (m : Mem) (hdr : ℕ) : ℕ := getBits m hdr 2 2 6

/-- `_hal_rx_wlanhdr_check_8852c` and `hal_rx_ppdu_sts_normal_data`: the type, the retry bit, the sequence number and the
second address, and at the first frame of a PPDU the type and perhaps an address again -/
def wlanhdrReads (chg : Bool) (m : Mem) (d : RxDesc) (hdr : ℕ) : List (ℕ × ℕ) :=
  [(hdr, 2), (hdr, 2), (hdr + 22, 2), (hdr + 10, 6)] ++ if chg then
      [(hdr, 2)] ++ if hdrType m hdr = 32 ∨ hdrType m hdr = 20 then [(hdr + 16, 6)]
        else if d.a1Match = 1 ∧ (hdrType m hdr = 8 ∨ hdrType m hdr = 0) then [(hdr + 10, 6)]
        else []
    else []

/-- `_hal_parsing_rx_drvinfo_8852c` -/
def drvInfoReads (chg : Bool) (d : RxDesc) (desc : ℕ) : List (ℕ × ℕ) :=
  if d.phyRptEn = 1 ∧ 0 < d.drvInfoSize ∧ chg then [(desc + d.descL, 4)] else []

/-- What the `switch` of `hal_handle_rx_buffer_8852c` reads. -/
def switchReads (chg : Bool) (m : Mem) (d : RxDesc) (desc : ℕ) : List (ℕ × ℕ) :=
  if d.rpktType = 0 then wlanhdrReads chg m d (desc + d.pktOff) ++ drvInfoReads chg d desc
  else if d.rpktType = 1 ∨ d.rpktType = 8 ∨ d.rpktType = 10 then [(desc + d.pktOff, d.pktlen)]
  else []

/-- What `phl_get_single_rx` reads of a frame: the fragment bits, and all of it where it is copied. -/
def netbufReads (alloc : Bool) (d : RxDesc) (hdr : ℕ) : List (ℕ × ℕ) :=
  [(hdr, 2), (hdr + 22, 2)] ++ if alloc then [(hdr, d.pktlen)] else []

/-- A packet of the list that is returned: where its bytes are, or were, and its type -/
structure RxPkt where
  start : ℕ
  length : ℕ
  type : RxType
  deriving DecidableEq, Repr

/-- The packets, what is read of the buffer, and how often the body of the loop is run. -/
structure RxRun where
  packets : List RxPkt
  reads : List (ℕ × ℕ)
  rounds : ℕ

/-- The loop of `phl_get_single_rx`, with the types that the idle objects have. -/
def singleRxLoop (env : RxEnv) (m : Mem) : List RxType → ℕ → ℤ → RxRun
  | [], _, _ => ⟨[], [], 1⟩
  | type :: idle, pktBuf, transferLen =>
    let d := halParsingRxWd m pktBuf
    let virAddr := pktBuf + d.pktOff
    if d.pktlen = 0 ∨ (pktBuf : ℤ) + transferLen < virAddr + d.pktlen then ⟨[], d.wdReads pktBuf, 1⟩
    else
      let type := rxTypeOf d.rpktType type
      let reads := d.wdReads pktBuf ++ switchReads (env.ppduCntChg pktBuf) m d pktBuf ++
        if type = .wifi then netbufReads (env.netbuf pktBuf) d virAddr else []
      let alignOffset := align8 (d.pktOff + d.pktlen)
      if 0 < transferLen - alignOffset then
        let r := singleRxLoop env m idle (pktBuf + alignOffset) (transferLen - alignOffset)
        ⟨⟨virAddr, d.pktlen, type⟩ :: r.packets, reads ++ r.reads, r.rounds + 1⟩
      else ⟨[⟨virAddr, d.pktlen, type⟩], reads, 1⟩

/-- `struct rtw_rx_buf`: the memory from the buffer on, and `transfer_len`. No buffer has so many bytes that `transfer_len`
is negative as `s32`. -/
structure RxBuf where
  mem : Mem
  len : ℕ
  small : len < 2 ^ 31

def phlGetSingleRx (env : RxEnv) (b : RxBuf) (idle : List RxType) : RxRun := singleRxLoop env b.mem idle 0 b.len

/-! ## The packets of a buffer -/

/-- There is a whole descriptor, and its packet is not empty and ends in the buffer. -/
def RxWellFormed (m : Mem) (len p : ℕ) : Prop :=
  let d := halParsingRxWd m p
  p + d.descL ≤ len ∧ 0 < d.pktlen ∧ p + d.descL + d.shift * 2 + d.drvInfoSize * 16 + d.macInfo + d.pktlen ≤ len

instance (m : Mem) (len p : ℕ) : Decidable (RxWellFormed m len p) := inferInstanceAs (Decidable (_ ∧ _ ∧ _))

/-- A packet of the buffer, with the type in its descriptor -/
structure RefPkt where
  start : ℕ
  length : ℕ
  rpktType : ℕ

def refPkt (m : Mem) (p : ℕ) : RefPkt :=
  let d := halParsingRxWd m p
  ⟨p + d.descL + d.shift * 2 + d.drvInfoSize * 16 + d.macInfo, d.pktlen, d.rpktType⟩

def refNext (m : Mem) (p : ℕ) : ℕ := align8 ((refPkt m p).start + (refPkt m p).length)

theorem lt_refNext (m : Mem) (p : ℕ) : p < refNext m p := by
  have hdesc : 16 ≤ (halParsingRxWd m p).descL := by
    unfold RxDesc.descL
    split_ifs <;> omega
  have := le_align8 ((refPkt m p).start + (refPkt m p).length)
  unfold refNext
  simp only [refPkt] at *; omega

/-- The packets from a descriptor on, up to the first that is malformed. -/
def refParse (m : Mem) (len p : ℕ) : List RefPkt :=
  if p < len ∧ RxWellFormed m len p then refPkt m p :: refParse m len (refNext m p) else []
termination_by len - p
decreasing_by
  have := lt_refNext m p
  omega

/-- Where the packets end: where the malformed one begins, or behind the buffer. -/
def refStop (m : Mem) (len p : ℕ) : ℕ := if p < len ∧ RxWellFormed m len p then refStop m len (refNext m p) else p
termination_by len - p
decreasing_by
  have := lt_refNext m p
  omega

def RxDesc.wdReach (d : RxDesc) : ℕ := if d.rpktType = 0 ∨ d.rpktType = 1 then d.descL else 4

/-! ## One packet -/

theorem getBits_lt (m : Mem) (a n off len : ℕ) : getBits m a n off len < 2 ^ len := by
  have := Nat.and_le_right (n := readLe m a n >>> off) (m := 2 ^ len - 1)
  have := Nat.two_pow_pos len
  unfold getBits lenMask; omega

theorem pktOff_eq (m : Mem) (p : ℕ) :
    p + (halParsingRxWd m p).pktOff = (refPkt m p).start ∧ (halParsingRxWd m p).descL ≤ (halParsingRxWd m p).pktOff := by
  have hshift : (halParsingRxWd m p).shift < 4 := getBits_lt _ _ _ _ _
  have hdrv : (halParsingRxWd m p).drvInfoSize < 8 := getBits_lt _ _ _ _ _
  have hdesc : (halParsingRxWd m p).descL ≤ 32 := by
    unfold RxDesc.descL
    split_ifs <;> omega
  simp only [RxDesc.pktOff, refPkt]; omega

theorem wdReads_inside_iff (d : RxDesc) (p len : ℕ) : (∀ x ∈ d.wdReads p, x.1 + x.2 ≤ len) ↔ p + d.wdReach ≤ len := by
  unfold RxDesc.wdReads RxDesc.wdReach RxDesc.descL
  split_ifs <;> simp only [List.forall_mem_cons, List.not_mem_nil, false_imp_iff, implies_true, and_true] <;> omega

theorem wdReach_le (d : RxDesc) : d.wdReach ≤ d.descL := by
  unfold RxDesc.wdReach RxDesc.descL
  split_ifs <;> omega

variable {m : Mem} {len p : ℕ}

theorem rx_stop_iff : ((halParsingRxWd m p).pktlen = 0 ∨ (p : ℤ) + ((len : ℤ) - p) <
      ((p + (halParsingRxWd m p).pktOff : ℕ) : ℤ) + (halParsingRxWd m p).pktlen) ↔ ¬ RxWellFormed m len p := by
  obtain ⟨hoff, hdesc⟩ := pktOff_eq m p
  simp only [refPkt] at hoff
  unfold RxWellFormed
  simp only
  omega

def packetReads (env : RxEnv) (m : Mem) (p : ℕ) (type : RxType) : List (ℕ × ℕ) :=
  (halParsingRxWd m p).wdReads p ++ switchReads (env.ppduCntChg p) m (halParsingRxWd m p) p ++
    if rxTypeOf (halParsingRxWd m p).rpktType type = .wifi then
      netbufReads (env.netbuf p) (halParsingRxWd m p) (p + (halParsingRxWd m p).pktOff)
    else []

theorem switchReads_inside (hw : RxWellFormed m len p)
    (hwifi : (halParsingRxWd m p).rpktType = 0 → (refPkt m p).start + 24 ≤ len) (chg : Bool) :
    ∀ x ∈ switchReads chg m (halParsingRxWd m p) p, x.1 + x.2 ≤ len := by
  obtain ⟨hdesc, -, hend⟩ := hw
  obtain ⟨hoff, -⟩ := pktOff_eq m p
  have hstart : (refPkt m p).start = p + (halParsingRxWd m p).descL + (halParsingRxWd m p).shift * 2 +
      (halParsingRxWd m p).drvInfoSize * 16 + (halParsingRxWd m p).macInfo := rfl
  unfold switchReads
  rw [hoff]
  by_cases h0 : (halParsingRxWd m p).rpktType = 0
  · have h24 := hwifi h0
    rw [if_pos h0, List.forall_mem_append]
    constructor
    · unfold wlanhdrReads
      split_ifs <;> simp only [List.forall_mem_append, List.forall_mem_cons, List.not_mem_nil, false_imp_iff, implies_true,
        and_true] <;> omega
    · unfold drvInfoReads
      by_cases hd : (halParsingRxWd m p).phyRptEn = 1 ∧ 0 < (halParsingRxWd m p).drvInfoSize ∧ chg = true
      · rw [if_pos hd, List.forall_mem_singleton]
        simp only
        omega
      · rw [if_neg hd]; exact nofun
  · rw [if_neg h0]
    by_cases hr : (halParsingRxWd m p).rpktType = 1 ∨ (halParsingRxWd m p).rpktType = 8 ∨ (halParsingRxWd m p).rpktType = 10
    · rw [if_pos hr, List.forall_mem_singleton]
      simp only
      omega
    · rw [if_neg hr]; exact nofun

theorem packetReads_inside_iff (env : RxEnv) (hw : RxWellFormed m len p) (type : RxType) :
    (∀ x ∈ packetReads env m p type, x.1 + x.2 ≤ len) ↔
      (rxTypeOf (refPkt m p).rpktType type = .wifi → (refPkt m p).start + 24 ≤ len) := by
  have hreach : p + (halParsingRxWd m p).wdReach ≤ len := by
    have := wdReach_le (halParsingRxWd m p)
    have := hw.1
    omega
  have htype : (refPkt m p).rpktType = (halParsingRxWd m p).rpktType := rfl
  have hend : (refPkt m p).start + (halParsingRxWd m p).pktlen ≤ len := hw.2.2
  unfold packetReads
  rw [List.forall_mem_append, List.forall_mem_append, wdReads_inside_iff, (pktOff_eq m p).1, htype]
  constructor
  · rintro ⟨-, hnet⟩ hwifi
    rw [if_pos hwifi] at hnet
    have := hnet ((refPkt m p).start + 22, 2) (by simp [netbufReads])
    simp only at this; omega
  · intro h
    refine ⟨⟨hreach, switchReads_inside hw (fun h0 => h (by rw [h0]; rfl)) _⟩, ?_⟩
    by_cases hwifi : rxTypeOf (halParsingRxWd m p).rpktType type = .wifi
    · have h24 := h hwifi
      rw [if_pos hwifi]
      unfold netbufReads
      split_ifs <;> simp only [List.forall_mem_append, List.forall_mem_cons, List.not_mem_nil, false_imp_iff, implies_true,
        and_true] <;> omega
    · rw [if_neg hwifi]; exact nofun

/-- The packet in the object that it gets. -/
def toPkt (x : RefPkt × RxType) : RxPkt := ⟨x.1.start, x.1.length, rxTypeOf x.1.rpktType x.2⟩

theorem singleRxLoop_malformed (env : RxEnv) (hw : ¬ RxWellFormed m len p) (type : RxType) (idle : List RxType) :
    singleRxLoop env m (type :: idle) p ((len : ℤ) - p) = ⟨[], (halParsingRxWd m p).wdReads p, 1⟩ := by
  unfold singleRxLoop
  simp only
  rw [if_pos (rx_stop_iff.mpr hw)]

theorem singleRxLoop_packet (env : RxEnv) (hp : p % 8 = 0) (hw : RxWellFormed m len p)
    (type : RxType) (idle : List RxType) :
    singleRxLoop env m (type :: idle) p ((len : ℤ) - p) = if refNext m p < len then
        let r := singleRxLoop env m idle (refNext m p) ((len : ℤ) - refNext m p)
        ⟨toPkt (refPkt m p, type) :: r.packets, packetReads env m p type ++ r.reads, r.rounds + 1⟩
      else ⟨[toPkt (refPkt m p, type)], packetReads env m p type, 1⟩ := by
  obtain ⟨hoff, -⟩ := pktOff_eq m p
  have hnext : p + align8 ((halParsingRxWd m p).pktOff + (halParsingRxWd m p).pktlen) = refNext m p := by
    unfold refNext
    rw [← align8_add hp, ← hoff, Nat.add_assoc]; rfl
  have hleft : (len : ℤ) - p - (align8 ((halParsingRxWd m p).pktOff + (halParsingRxWd m p).pktlen) : ℕ) =
      (len : ℤ) - refNext m p := by
    rw [← hnext]; omega
  have hiff : 0 < (len : ℤ) - refNext m p ↔ refNext m p < len := by omega
  have hpkt : (⟨p + (halParsingRxWd m p).pktOff, (halParsingRxWd m p).pktlen,
      rxTypeOf (halParsingRxWd m p).rpktType type⟩ : RxPkt) = toPkt (refPkt m p, type) := by
    rw [hoff]; rfl
  rw [singleRxLoop]
  simp only
  rw [if_neg (fun h => rx_stop_iff.mp h hw), hnext, hleft, hpkt]
  simp only [hiff]; rfl

/-! ## The buffer -/

theorem singleRxLoop_spec (env : RxEnv) (m : Mem) (hmod : p % 8 = 0) (hp : p < len ∨ p = 0) (idle : List RxType) :
    let r := singleRxLoop env m idle p ((len : ℤ) - p)
    r.packets = ((refParse m len p).zip idle).map toPkt ∧ ((∀ x ∈ r.reads, x.1 + x.2 ≤ len) ↔
        (∀ x ∈ (refParse m len p).zip idle, rxTypeOf x.1.rpktType x.2 = .wifi → x.1.start + 24 ≤ len) ∧
          ((refStop m len p < len ∨ refStop m len p = 0) → (refParse m len p).length < idle.length →
            refStop m len p + (halParsingRxWd m (refStop m len p)).wdReach ≤ len)) ∧
      r.rounds ≤ (len - p) / 24 + 1 := by
  induction idle generalizing p with
  | nil => simp [singleRxLoop]
  | cons type idle ih =>
    rw [refParse, refStop]
    by_cases hw : p < len ∧ RxWellFormed m len p
    · rw [if_pos hw, if_pos hw, singleRxLoop_packet env hmod hw.2]
      have hfar : p + 24 ≤ refNext m p := by
        obtain ⟨hoff, hdesc⟩ := pktOff_eq m p
        have hpos : 0 < (halParsingRxWd m p).pktlen := hw.2.2.1
        have hlen : (refPkt m p).length = (halParsingRxWd m p).pktlen := rfl
        have hmin : 16 ≤ (halParsingRxWd m p).descL := by
          unfold RxDesc.descL
          split_ifs <;> omega
        have hle := le_align8 ((refPkt m p).start + (refPkt m p).length)
        have hmul := align8_mod ((refPkt m p).start + (refPkt m p).length)
        unfold refNext; omega
      by_cases hnext : refNext m p < len
      · obtain ⟨hpkts, hreads, hrounds⟩ := ih (p := refNext m p) (align8_mod _) (.inl hnext)
        simp only [if_pos hnext, List.zip_cons_cons, List.map_cons, List.forall_mem_append, List.forall_mem_cons,
          List.length_cons, Nat.add_lt_add_iff_right]
        rw [hpkts, hreads, packetReads_inside_iff env hw.2, and_assoc]
        exact ⟨rfl, Iff.rfl, by omega⟩
      · have hnil : refParse m len (refNext m p) = [] := by
          rw [refParse, if_neg fun h => hnext h.1]
        have hstop : refStop m len (refNext m p) = refNext m p := by
          rw [refStop, if_neg fun h => hnext h.1]
        simp only [if_neg hnext, hnil, hstop, List.zip_cons_cons, List.zip_nil_left, List.map_cons, List.map_nil,
          List.forall_mem_singleton]
        rw [packetReads_inside_iff env hw.2]
        refine ⟨trivial, ⟨fun h => ⟨h, fun hlast => ?_⟩, fun h => h.1⟩, by omega⟩
        omega
    · have hmal : ¬ RxWellFormed m len p := by
        intro hwf
        have hmin : 16 ≤ (halParsingRxWd m p).descL := by
          unfold RxDesc.descL
          split_ifs <;> omega
        have := hwf.1
        exact hw ⟨by omega, hwf⟩
      rw [if_neg hw, if_neg hw, singleRxLoop_malformed env hmal]
      simp only [wdReads_inside_iff, List.zip_nil_left, List.map_nil, List.not_mem_nil, false_imp_iff, implies_true,
        true_and, List.length_nil, List.length_cons, Nat.zero_lt_succ, true_imp_iff]
      exact ⟨⟨fun h _ => h, fun h => h hp⟩, by omega⟩

theorem zip_map_eq_map_iff {α β γ : Type} {f : α × β → γ} {g : α → γ} (xs : List α) (ys : List β) :
    (xs.zip ys).map f = xs.map g ↔ xs.length ≤ ys.length ∧ ∀ x ∈ xs.zip ys, f x = g x.1 := by
  induction xs generalizing ys with
  | nil => simp
  | cons x xs ih =>
    cases ys with
    | nil => simp
    | cons y ys =>
      simp only [List.zip_cons_cons, List.map_cons, List.cons.injEq, ih, List.length_cons, Nat.add_le_add_iff_right,
        List.forall_mem_cons]
      tauto

/-- The kinds of packets that the type is written for -/
def RxKnown (rpktType : ℕ) : Prop := rpktType ∈ [0, 1, 2, 6, 7, 8, 10]

theorem rxTypeOf_eq_iff (rpktType : ℕ) (type : RxType) :
    rxTypeOf rpktType type = rxTypeOf rpktType .max ↔ RxKnown rpktType ∨ type = .max := by
  unfold rxTypeOf RxKnown
  split <;> simp_all

/-- The loop ends with the length of the transfer, all reads are in the transfer, and the packets are those of the parse,
in its order, with types that follow from their descriptors: where the descriptor gives none, with the type that
`phl_release_phl_rx` leaves. -/
def SingleRxRight (env : RxEnv) (b : RxBuf) (idle : List RxType) : Prop :=
  (phlGetSingleRx env b idle).rounds ≤ b.len / 24 + 1 ∧ (∀ x ∈ (phlGetSingleRx env b idle).reads, x.1 + x.2 ≤ b.len) ∧
    (phlGetSingleRx env b idle).packets =
      (refParse b.mem b.len 0).map fun k => ⟨k.start, k.length, rxTypeOf k.rpktType .max⟩

/-- There are objects for the packets, a packet of another kind gets one that was released before, a frame has its header
in the transfer, and so has the malformed packet its descriptor, as far as it is read. -/
structure SingleRxFit (b : RxBuf) (idle : List RxType) : Prop where
  objects : (refParse b.mem b.len 0).length ≤ idle.length
  kinds : ∀ x ∈ (refParse b.mem b.len 0).zip idle, RxKnown x.1.rpktType ∨ x.2 = .max
  headers : ∀ k ∈ refParse b.mem b.len 0, k.rpktType = 0 → k.start + 24 ≤ b.len
  last : refStop b.mem b.len 0 < b.len ∨ refStop b.mem b.len 0 = 0 → (refParse b.mem b.len 0).length < idle.length →
    refStop b.mem b.len 0 + (halParsingRxWd b.mem (refStop b.mem b.len 0)).wdReach ≤ b.len

theorem rxTypeOf_wifi {rpktType : ℕ} {type : RxType} (h : RxKnown rpktType ∨ type = .max) :
    rxTypeOf rpktType type = .wifi ↔ rpktType = 0 := by
  rw [(rxTypeOf_eq_iff rpktType type).mpr h]
  unfold rxTypeOf
  split <;> simp_all

/-- **The packets of a receive buffer** are right, exactly where the buffer and the objects are fit. -/
theorem single_rx_right_iff (env : RxEnv) (b : RxBuf) (idle : List RxType) :
    SingleRxRight env b idle ↔ SingleRxFit b idle := by
  have hstart : 0 < b.len ∨ 0 = 0 := .inr rfl
  obtain ⟨hpkts, hreads, hrounds⟩ := singleRxLoop_spec env b.mem (Nat.zero_mod 8) hstart idle
  have hzero : (b.len : ℤ) - ((0 : ℕ) : ℤ) = b.len := by omega
  rw [hzero] at hpkts hreads hrounds
  have hkinds : (∀ x ∈ (refParse b.mem b.len 0).zip idle,
      toPkt x = ⟨x.1.start, x.1.length, rxTypeOf x.1.rpktType .max⟩) ↔
      ∀ x ∈ (refParse b.mem b.len 0).zip idle, RxKnown x.1.rpktType ∨ x.2 = .max := by
    refine forall₂_congr fun x _ => ?_
    rw [← rxTypeOf_eq_iff]
    simp [toPkt]
  unfold SingleRxRight phlGetSingleRx
  rw [hpkts, hreads, zip_map_eq_map_iff, hkinds]
  constructor
  · rintro ⟨-, ⟨hhdr, hlast⟩, hobj, hk⟩
    refine ⟨hobj, hk, fun k hmem h0 => ?_, hlast⟩
    obtain ⟨i, hi, rfl⟩ := List.getElem_of_mem hmem
    have hx : (((refParse b.mem b.len 0)[i], idle[i]) : RefPkt × RxType) ∈ (refParse b.mem b.len 0).zip idle :=
      List.mem_iff_getElem.mpr ⟨i, by rw [List.length_zip]; omega, List.getElem_zip⟩
    exact hhdr _ hx ((rxTypeOf_wifi (hk _ hx)).mpr h0)
  · intro h
    refine ⟨hrounds, ⟨fun x hx hwifi => ?_, h.last⟩, h.objects, h.kinds⟩
    exact h.headers x.1 (List.of_mem_zip hx).1 ((rxTypeOf_wifi (h.kinds x hx)).mp hwifi)

/-- A report of a kind that the driver does not know, of eight bytes behind a short descriptor -/
def unknownReport : RxBuf where
  mem := fun i => if i = 0 then 8 else if i = 3 then 4 else 0
  len := 24
  small := by decide

def emptyTransfer : RxBuf where
  mem := fun _ => 0
  len := 0
  small := by decide

def someEnv : RxEnv := ⟨fun _ => true, fun _ => true⟩

/-- The report is a frame in an object that was not used before, and none in one that was; its header is then read behind
the transfer. Of an empty transfer a descriptor is read. -/
theorem fresh_object_makes_frame : (phlGetSingleRx someEnv unknownReport [.wifi]).packets = [⟨16, 8, .wifi⟩] ∧
      (phlGetSingleRx someEnv unknownReport [.max]).packets = [⟨16, 8, .max⟩] ∧
      ¬ SingleRxRight someEnv unknownReport [.wifi] ∧ ¬ SingleRxRight someEnv emptyTransfer [.max] := by
  refine ⟨by decide, by decide, ?_, ?_⟩
  · rintro ⟨-, hin, -⟩; exact absurd (hin (38, 2) (by decide)) (by decide)
  · rintro ⟨-, hin, -⟩; exact absurd (hin (0, 4) (by decide)) (by decide)

end Rtl8852cu.Usb
