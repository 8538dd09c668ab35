import Rtl8852cu.Usb.Placement

/-!
# The prediction and the loop

`_usb_tx_agg_preprocess` goes over the ring before `_phl_handle_xmit_ring_usb` does, with variables of
its own, and says which request will be the last and whether the transfer has to be enlarged by the
dummy.
-/

namespace Rtl8852cu.Usb

section

variable (cfg : UsbCfg)

/-! ### What is predicted -/

/-- The request passes the tests of `_usb_tx_agg_preprocess`. -/
def preAccepts (p : PreSt) (r : XmitReq) : Bool :=
  ¬ cfg.txBufSize - pktOffsetDummy < spaceNeeded r.wdLen r.totalLen p.txLen ∧
  ¬ (p.txLen + r.wdLen + (align8 p.packetLen - p.packetLen)) % u32 % cfg.bulkSize = 0

/-- The variables behind an accepted request. -/
def PreSt.next (p : PreSt) (r : XmitReq) : PreSt := { p.accept cfg r with cnt := p.cnt + 1 }

/-- The prediction goes on behind an accepted request. -/
def preGoesOn (p : PreSt) (r : XmitReq) : Bool :=
  ¬ (cfg.maxBulkoutWdNum ≤ (p.accept cfg r).trascAggCnt ∨ p.cnt + 1 = cfg.maxDmaTxaggMsk) ∧
  r.type = .data ∧ cfg.txAggregation

def preCount (p : PreSt) : List (Option XmitReq) → ℕ
  | some r :: rest =>
    if preAccepts cfg p r then
      if preGoesOn cfg p r then preCount (p.next cfg r) rest + 1 else 1
    else 0
  | _ => 0

def preTxLen (p : PreSt) : List (Option XmitReq) → ℕ
  | some r :: rest =>
    if preAccepts cfg p r then
      if preGoesOn cfg p r then preTxLen (p.next cfg r) rest else (p.next cfg r).txLen
    else p.txLen
  | _ => p.txLen

/-- The last accepted request and the variables before it. -/
def lastTaken (p : PreSt) : List (Option XmitReq) → Option (PreSt × XmitReq)
  | some r :: rest =>
    if preAccepts cfg p r then
      if preGoesOn cfg p r then
        match lastTaken (p.next cfg r) rest with
        | some l => some l
        | none => some (p, r)
      else some (p, r)
    else none
  | _ => none

/-- The ring fits the buffer: every packet does, with room to spare, and no sum wraps. -/
structure Sized (ring : List (Option XmitReq)) : Prop where
  le : ∀ r, some r ∈ ring → align8 (56 + r.totalLen) + 8 ≤ cfg.txBufSize
  lt : 2 * cfg.txBufSize + 16 < u32

/-- The variables of the prediction between two requests. -/
structure PreOk (p : PreSt) : Prop where
  lastIdx : p.lastIdx = none
  zero : p.cnt = 0 ↔ p.txLen = 0
  packetLen : p.cnt = 0 → p.packetLen = 0
  le : p.txLen ≤ cfg.txBufSize
  mod : p.txLen % 8 = p.packetLen % 8

end

section

variable {cfg : UsbCfg}

variable {ring : List (Option XmitReq)}

theorem Sized.tail {e : Option XmitReq} (h : Sized cfg (e :: ring)) :
    Sized cfg ring := ⟨fun r hr => h.le r (List.mem_cons_of_mem _ hr), h.lt⟩

variable {r : XmitReq}

theorem Sized.head (h : Sized cfg (some r :: ring)) : align8 (r.wdLen + r.totalLen) + 8 ≤ cfg.txBufSize := by
  have h1 := h.le r (List.mem_cons_self ..)
  have h2 : align8 (r.wdLen + r.totalLen) ≤ align8 (56 + r.totalLen) :=
    align8_mono (Nat.add_le_add_right r.wdLen_le _)
  omega

variable {p : PreSt}

theorem PreOk.next_txLen (h : PreOk cfg p) (hs : Sized cfg (some r :: ring)) (ha : preAccepts cfg p r = true) :
    (p.next cfg r).txLen = p.txLen + (align8 p.packetLen - p.packetLen) + (r.wdLen + r.totalLen) ∧
    (p.next cfg r).txLen ≤ cfg.txBufSize ∧ 0 < (p.next cfg r).txLen := by
  have h1 := hs.head
  have h2 := h.le
  have h3 := hs.lt
  have hpad := align8_lt p.packetLen
  have hpos := r.wdLen_pos
  have hX := le_align8 (r.wdLen + r.totalLen)
  have hsp : align8 (r.wdLen + r.totalLen) + p.txLen ≤ cfg.txBufSize - 8 := by
    unfold preAccepts spaceNeeded at ha
    simp only [decide_eq_true_eq, pktOffsetDummy] at ha
    rw [Nat.mod_eq_of_lt (by omega)] at ha; omega
  have heq : (p.next cfg r).txLen = p.txLen + (align8 p.packetLen - p.packetLen) + (r.wdLen + r.totalLen) :=
    Nat.mod_eq_of_lt (by omega)
  rw [heq]; omega

theorem PreOk.next (h : PreOk cfg p) (hs : Sized cfg (some r :: ring)) (ha : preAccepts cfg p r = true) :
    PreOk cfg (p.next cfg r) := by
  obtain ⟨heq, hle, hpos⟩ := h.next_txLen hs ha
  refine ⟨h.lastIdx, ?_, nofun, hle, ?_⟩
  · have : (p.next cfg r).cnt = p.cnt + 1 := rfl; omega
  · have hmod := h.mod
    have hge := le_align8 p.packetLen
    have h8 := align8_mod p.packetLen
    have hpl : (p.next cfg r).packetLen = r.wdLen + r.totalLen := rfl
    omega

theorem preLoop_eq {total : ℕ} (h : PreOk cfg p) (hs : Sized cfg ring) (ht : p.cnt + ring.length ≤ total) :
    let s := preLoop cfg p ring
    s.txLen = preTxLen cfg p ring ∧
    (if s.lastIdx = none ∧ s.txLen ≠ 0 ∧ s.cnt ≤ total then some (s.cnt - 1) else s.lastIdx) =
      if p.cnt + preCount cfg p ring = 0 then none else some (p.cnt + preCount cfg p ring - 1) := by
  have hstop : ∀ n, n = 0 → p.cnt ≤ total →
      (if p.stop.lastIdx = none ∧ p.stop.txLen ≠ 0 ∧ p.stop.cnt ≤ total then some (p.stop.cnt - 1)
        else p.stop.lastIdx) = if p.cnt + n = 0 then none else some (p.cnt + n - 1) := by
    rintro n rfl hle
    have hz := h.zero
    by_cases h0 : p.cnt = 0
    · simp [PreSt.stop, h0, hz.1 h0]
    · simp [PreSt.stop, h0]
  induction ring generalizing p with
  | nil =>
    have hz := h.zero
    simp only [preLoop, preTxLen, preCount, h.lastIdx, true_and, Nat.add_zero]
    by_cases h0 : p.cnt = 0
    · simp [h0, hz.1 h0]
    · have hne : p.txLen ≠ 0 := fun h1 => h0 (hz.2 h1)
      have hle : p.cnt ≤ total := by simpa using ht
      simp [h0, hne, hle]
  | cons e rest ih =>
    simp only [List.length_cons] at ht
    cases e with
    | none => exact ⟨rfl, hstop 0 rfl (by omega)⟩
    | some r =>
      by_cases ha : preAccepts cfg p r = true
      · obtain ⟨-, -, hpos⟩ := h.next_txLen hs ha
        have hacc := ha
        unfold preAccepts at hacc
        simp only [decide_eq_true_eq] at hacc
        rw [preLoop, if_neg hacc.1, if_neg hacc.2]
        simp only [preTxLen, preCount, ha, if_true]
        by_cases hlim : cfg.maxBulkoutWdNum ≤ (p.accept cfg r).trascAggCnt ∨ p.cnt + 1 = cfg.maxDmaTxaggMsk
        · have hg : preGoesOn cfg p r = false := by simp [preGoesOn, hlim]
          rw [if_pos hlim]
          simp only [hg, Bool.false_eq_true, if_false]; exact ⟨rfl, by simp⟩
        · rw [if_neg hlim]
          by_cases hd : r.type = .data ∧ cfg.txAggregation = true
          · have hg : preGoesOn cfg p r = true := by simp only [preGoesOn]; simp [hlim, hd.1, hd.2]
            rw [if_neg (by simp [hd.1, hd.2])]
            simp only [hg, if_true]
            have hn := h.next hs ha
            have hih := ih hn hs.tail (by change p.cnt + 1 + rest.length ≤ total; omega)
              (fun n h0 hle => by
                subst h0
                have : (p.next cfg r).cnt = p.cnt + 1 := rfl
                simp [PreSt.stop, this])
            have hcnt : (p.next cfg r).cnt + preCount cfg (p.next cfg r) rest =
                p.cnt + (preCount cfg (p.next cfg r) rest + 1) := by
              change p.cnt + 1 + _ = _
              omega
            rw [hcnt] at hih; exact hih
          · have hg : preGoesOn cfg p r = false := by
              simp only [preGoesOn]
              rw [decide_eq_false_iff_not]; exact fun h => hd h.2
            have hor : r.type ≠ .data ∨ ¬ cfg.txAggregation = true := by
              by_cases ht : r.type = .data
              · exact .inr fun hagg => hd ⟨ht, hagg⟩
              · exact .inl ht
            rw [if_pos hor]
            simp only [hg, Bool.false_eq_true, if_false]
            refine ⟨rfl, ?_⟩
            have hle : p.cnt + 1 ≤ total := by omega
            have hne : (p.accept cfg r).txLen ≠ 0 := Nat.pos_iff_ne_zero.1 hpos
            have hl : (p.accept cfg r).lastIdx = none := h.lastIdx
            simp [hl, hne, hle]
      · have hsplit : preLoop cfg p (some r :: rest) = p.stop := by
          have hacc := ha
          unfold preAccepts at hacc
          simp only [decide_eq_true_eq] at hacc
          rw [preLoop]
          split
          · rfl
          · rename_i h1
            split
            · rfl
            · rename_i h2
              exact absurd ⟨h1, h2⟩ hacc
        have hc : preCount cfg p (some r :: rest) = 0 := by rw [preCount, if_neg ha]
        have htx : preTxLen cfg p (some r :: rest) = p.txLen := by rw [preTxLen, if_neg ha]
        rw [hsplit, hc, htx]; exact ⟨rfl, hstop 0 rfl (by omega)⟩

/-! ### One request in both -/

/-- A request as the core puts it into the ring: `pktlen` is its length where the length of the
descriptor depends on it, the dummy is not asked for, and its descriptor can be filled in. -/
structure Plain (r : XmitReq) : Prop where
  pktlen : r.type = .h2c ∨ r.type = .fwdl → r.pktlen = r.totalLen % 2 ^ 16
  noDummy : r.usbPktOfst ≠ 1
  fillWd : r.fillWd = true

/-- A build with the padding check, at one of the speeds of USB. -/
structure UsbCfg.Checked (cfg : UsbCfg) : Prop where
  paddingChk : cfg.paddingChk = true
  bulk : cfg.bulkSize = 64 ∨ cfg.bulkSize = 512 ∨ cfg.bulkSize = 1024

/-- The loop has done to the requests so far what the prediction did. -/
structure Match (a : AggSt) (p : PreSt) : Prop where
  txLen : a.txLen = p.txLen
  packetLen : a.packetLen = p.packetLen
  trascAggCnt : a.trascAggCnt = p.trascAggCnt
  trascIdx : a.trascIdx = p.trascIdx
  aggCnt : a.aggCnt = p.cnt
  len : a.placed.length = p.cnt
  plain : ∀ w ∈ a.placed, w.dummy = false

/-- The request passes the two tests of the loop with the dummy. -/
def RoomFor (cfg : UsbCfg) (p : PreSt) (r : XmitReq) : Prop :=
  spaceNeeded (r.wdLen + pktOffsetDummy) r.totalLen p.txLen ≤ cfg.txBufSize - pktOffsetDummy ∧
  ¬ (appended cfg r = true ∧ p.txLen ≠ 0 ∧ (p.txLen + (r.wdLen + pktOffsetDummy) +
    (align8 p.packetLen - p.packetLen)) % u32 % cfg.bulkSize = 0)

def extra (b : Bool) : ℕ := if b then pktOffsetDummy else 0

variable {lastIdx : Option ℕ} {isDummy : Bool}

theorem Plain.prepared_wdLen (h : Plain r) (a : AggSt) : (prepared lastIdx isDummy a r).wdLen = r.wdLen := by
  have hp := h.pktlen
  unfold XmitReq.wdLen prepared macTxdescLen
  cases ht : r.type <;> simp [ht] at hp ⊢
  all_goals rw [hp]

theorem Plain.countedWdLen (h : Plain r) (a : AggSt) :
    countedWdLen lastIdx isDummy a r = r.wdLen + extra (enlarged lastIdx isDummy a) := by
  unfold Usb.countedWdLen extra
  rw [h.prepared_wdLen]

theorem Plain.packet (h : Plain r) (a : AggSt) : (packet cfg lastIdx isDummy a r).len =
      r.wdLen + extra (enlarged lastIdx isDummy a) + r.totalLen ∧
    (packet cfg lastIdx isDummy a r).dummy = enlarged lastIdx isDummy a := by
  have hof : (prepared lastIdx isDummy a r).usbPktOfst = if enlarged lastIdx isDummy a then 1 else r.usbPktOfst := rfl
  have hpk : (prepared lastIdx isDummy a r).pktList = r.pktList := rfl
  have hno := h.noDummy
  unfold Usb.packet phlPrepareTxUsb extra
  simp only [hof, hpk, h.prepared_wdLen, r.totalLen_eq]
  cases enlarged lastIdx isDummy a with
  | true => simp
  | false => simp [hno]

theorem UsbCfg.Checked.wdLen_mod (h : cfg.Checked) (r : XmitReq) : r.wdLen % u32 % cfg.bulkSize ≠ 0 := by
  have h1 := r.wdLen_pos
  have h2 := r.wdLen_le
  unfold u32
  rcases h.bulk with hb | hb | hb <;> rw [hb] <;> omega

variable {a : AggSt}

theorem Match.copies_eq (hm : Match a p) (hp : PreOk cfg p)
    (hc : cfg.Checked) (hr : Plain r) (hb : 0 < p.cnt → appended cfg r = true)
    (he : enlarged lastIdx isDummy a = false) :
    copies cfg lastIdx isDummy a r = preAccepts cfg p r := by
  have hcw : countedWdLen lastIdx isDummy a r = r.wdLen := by rw [hr.countedWdLen, he]; rfl
  have hspace : hasSpace cfg lastIdx isDummy a r =
      decide ¬ cfg.txBufSize - pktOffsetDummy < spaceNeeded r.wdLen r.totalLen p.txLen := by
    unfold hasSpace
    rw [hcw, hm.txLen, hc.paddingChk, if_pos rfl]; simp
  have hbulk : atBulkEnd cfg lastIdx isDummy a r = decide
      ((p.txLen + r.wdLen + (align8 p.packetLen - p.packetLen)) % u32 % cfg.bulkSize = 0) := by
    unfold atBulkEnd
    rw [hcw, hm.txLen, hm.packetLen]
    by_cases h0 : p.cnt = 0
    · have ht := hp.zero.1 h0
      have hpl := hp.packetLen h0
      have hne := hc.wdLen_mod r
      rw [ht, hpl]
      have : align8 0 - 0 = 0 := rfl
      simp [this, hne]
    · have ht : p.txLen ≠ 0 := fun h => h0 (hp.zero.2 h); simp [hb (by omega), ht]
  unfold copies preAccepts
  rw [hspace, hbulk, hr.fillWd]; simp

theorem Match.copies_enlarged (hm : Match a p)
    (hc : cfg.Checked) (hr : Plain r) (he : enlarged lastIdx isDummy a = true) :
    copies cfg lastIdx isDummy a r = true ↔ RoomFor cfg p r := by
  have hcw : countedWdLen lastIdx isDummy a r = r.wdLen + pktOffsetDummy := by
    rw [hr.countedWdLen, he]; rfl
  unfold copies hasSpace atBulkEnd RoomFor
  rw [hcw, hm.txLen, hm.packetLen, hc.paddingChk, if_pos rfl, hr.fillWd]
  simp only [decide_eq_true_eq, and_true]

theorem UsbCfg.Checked.shift_add (h : cfg.Checked) {n : ℕ} (hn : n % cfg.bulkSize = 0) :
    (n + 8) >>> getShiftOffset cfg.bulkSize = n >>> getShiftOffset cfg.bulkSize := by
  unfold getShiftOffset
  rw [Nat.shiftRight_eq_div_pow, Nat.shiftRight_eq_div_pow]
  rcases h.bulk with hb | hb | hb <;> rw [hb] at hn ⊢ <;> simp <;> omega

/-- The variables of the loop behind a copied request: those of the prediction, and the dummy. -/
structure Behind (e : Bool) (a : AggSt) (p : PreSt) : Prop where
  txLen : a.txLen = p.txLen + extra e
  packetLen : a.packetLen = p.packetLen + extra e
  trascAggCnt : a.trascAggCnt = p.trascAggCnt
  trascIdx : a.trascIdx = p.trascIdx
  aggCnt : a.aggCnt = p.cnt % 256
  len : a.placed.length = p.cnt
  dummies : a.placed.countP (·.dummy) = if e then 1 else 0

variable {rest : List (Option XmitReq)}

theorem Match.copied (hm : Match a p) (hp : PreOk cfg p) (hc : cfg.Checked) (hs : Sized cfg (some r :: rest))
    (hr : Plain r) (ha : preAccepts cfg p r = true) (hb : 0 < p.cnt → appended cfg r = true)
    (hd : enlarged lastIdx isDummy a = true → (p.next cfg r).txLen % cfg.bulkSize = 0) :
    Behind (enlarged lastIdx isDummy a) (copied cfg lastIdx isDummy a r) (p.next cfg r) := by
  obtain ⟨hlen, hdum⟩ := hr.packet a
  obtain ⟨hnext, hle, -⟩ := hp.next_txLen hs ha
  have hlt := hs.lt
  have hx : extra (enlarged lastIdx isDummy a) ≤ 8 := by
    unfold extra; split <;> decide
  have hpad : paddedTxLen cfg a r = p.txLen + (align8 p.packetLen - p.packetLen) := by
    unfold paddedTxLen
    rw [hm.txLen, hm.packetLen]
    by_cases h0 : p.cnt = 0
    · rw [hp.packetLen h0]
      have : align8 0 - 0 = 0 := rfl
      simp [this]
    · rw [if_pos (hb (by omega))]
  have htx : (Usb.copied cfg lastIdx isDummy a r).txLen =
      (p.next cfg r).txLen + extra (enlarged lastIdx isDummy a) := by
    change (paddedTxLen cfg a r + (Usb.packet cfg lastIdx isDummy a r).len) % u32 = _
    rw [hpad, hlen, Nat.mod_eq_of_lt (by omega)]; omega
  have hshift : (Usb.copied cfg lastIdx isDummy a r).txLen >>> getShiftOffset cfg.bulkSize =
      (p.next cfg r).txLen >>> getShiftOffset cfg.bulkSize := by
    rw [htx]
    cases he : enlarged lastIdx isDummy a with
    | false => rfl
    | true => exact hc.shift_add (hd he)
  refine ⟨htx, ?_, ?_, ?_, ?_, ?_, ?_⟩
  · change (Usb.packet cfg lastIdx isDummy a r).len = r.wdLen + r.totalLen + _
    rw [hlen]; omega
  · change (if a.trascIdx ≠ (Usb.copied cfg lastIdx isDummy a r).txLen >>> getShiftOffset cfg.bulkSize
        then 0 else (a.trascAggCnt + 1) % 256) =
      if p.trascIdx ≠ (p.next cfg r).txLen >>> getShiftOffset cfg.bulkSize
        then 0 else (p.trascAggCnt + 1) % 256
    rw [hshift, hm.trascIdx, hm.trascAggCnt]
  · change (if a.trascIdx ≠ (Usb.copied cfg lastIdx isDummy a r).txLen >>> getShiftOffset cfg.bulkSize
        then (Usb.copied cfg lastIdx isDummy a r).txLen >>> getShiftOffset cfg.bulkSize % 256
        else a.trascIdx) =
      if p.trascIdx ≠ (p.next cfg r).txLen >>> getShiftOffset cfg.bulkSize
        then (p.next cfg r).txLen >>> getShiftOffset cfg.bulkSize % 256 else p.trascIdx
    rw [hshift, hm.trascIdx]
  · change (a.aggCnt + 1) % 256 = (p.cnt + 1) % 256
    rw [hm.aggCnt]
  · change (a.placed ++ [_]).length = p.cnt + 1
    rw [List.length_append, hm.len]; rfl
  · change (a.placed ++ [Usb.packet cfg lastIdx isDummy a r]).countP (·.dummy) = _
    have h0 : a.placed.countP (·.dummy) = 0 := by
      rw [List.countP_eq_zero]
      intro w hw
      simp [hm.plain w hw]
    rw [List.countP_append, h0, List.countP_singleton, hdum]; simp

theorem Behind.goesOn_eq {b : Bool} (h : Behind b a (p.next cfg r)) (hlt : p.cnt + 1 ≤ 255)
    (hagg : cfg.txAggregation = false → p.cnt = 0) : goesOn cfg a r = preGoesOn cfg p r := by
  have hcnt : a.aggCnt = p.cnt + 1 := by
    rw [h.aggCnt]
    change (p.cnt + 1) % 256 = p.cnt + 1
    omega
  have htr : a.trascAggCnt = (p.accept cfg r).trascAggCnt := h.trascAggCnt
  unfold goesOn preGoesOn
  rw [hcnt, htr]
  cases hg : cfg.txAggregation with
  | true => simp [and_comm]
  | false => simp [hagg hg]

theorem aggLoop_stops {b : Bool} (hc : cfg.Checked) (hs : Sized cfg rest) (hp : PreOk cfg p) (h : Behind b a p)
    (hb : b = true → p.txLen % cfg.bulkSize = 0) (hpos : 0 < p.cnt)
    (hagg : cfg.txAggregation = true) (he : enlarged lastIdx isDummy a = false)
    (hhead : ∀ r, rest.head? = some (some r) → Plain r ∧ r.type = .data)
    (h0 : preCount cfg p rest = 0) : aggLoop cfg lastIdx isDummy a rest = a := by
  cases rest with
  | nil => rfl
  | cons e rest =>
    cases e with
    | none => rfl
    | some r =>
      obtain ⟨hr, hdata⟩ := hhead r rfl
      have happ : appended cfg r = true := by simp [appended, hagg, hdata]
      have hna : preAccepts cfg p r = false := by
        by_contra hacc
        rw [Bool.not_eq_false] at hacc
        rw [preCount, if_pos hacc] at h0
        split at h0 <;> omega
      have hcw : countedWdLen lastIdx isDummy a r = r.wdLen := by rw [hr.countedWdLen, he]; rfl
      have hx : extra b ≤ 8 := by unfold extra; split <;> decide
      have hlt := hs.lt
      have hle := hp.le
      have hhd := hs.head
      have htx0 : p.txLen ≠ 0 := fun h => by
        have := hp.zero.2 h
        omega
      -- one of the two tests fails in the loop as well
      have hfail : hasSpace cfg lastIdx isDummy a r = false ∨ atBulkEnd cfg lastIdx isDummy a r = true := by
        by_cases hsp : cfg.txBufSize - pktOffsetDummy < spaceNeeded r.wdLen r.totalLen p.txLen
        · left
          unfold hasSpace
          rw [hcw, h.txLen, hc.paddingChk, if_pos rfl, decide_eq_false_iff_not, Nat.not_le]
          unfold spaceNeeded at hsp ⊢
          have hmod1 : (align8 (r.wdLen + r.totalLen) + p.txLen) % u32 =
            align8 (r.wdLen + r.totalLen) + p.txLen := Nat.mod_eq_of_lt (by omega)
          have hmod2 : (align8 (r.wdLen + r.totalLen) + (p.txLen + extra b)) % u32 =
            align8 (r.wdLen + r.totalLen) + (p.txLen + extra b) := Nat.mod_eq_of_lt (by omega)
          omega
        · right
          have hbulk : (p.txLen + r.wdLen + (align8 p.packetLen - p.packetLen)) % u32 %
              cfg.bulkSize = 0 := by
            by_contra hne
            simp [preAccepts, hsp, hne] at hna
          unfold atBulkEnd
          rw [hcw, h.txLen, h.packetLen, decide_eq_true_eq]
          refine ⟨happ, by omega, ?_⟩
          cases b with
          | false => exact hbulk
          | true =>
            -- an enlarged transfer is a multiple of the bulk size, so a descriptor does not end there
            exfalso
            have hm := hb rfl
            have hmod := hp.mod
            have h1 := r.wdLen_pos
            have h2 := r.wdLen_le
            have hpl8 : p.packetLen % 8 = 0 := by
              rw [← hmod]
              rcases hc.bulk with hb' | hb' | hb' <;> rw [hb'] at hm <;> omega
            have hpad : align8 p.packetLen - p.packetLen = 0 := by
              unfold align8; omega
            have hge := le_align8 (r.wdLen + r.totalLen)
            have hwrap : (p.txLen + r.wdLen) % u32 = p.txLen + r.wdLen :=
              Nat.mod_eq_of_lt (by omega)
            rw [hpad, Nat.add_zero, hwrap] at hbulk
            rcases hc.bulk with hb' | hb' | hb' <;> rw [hb'] at hm hbulk <;> omega
      rw [aggLoop]
      rcases hfail with hf | hf
      · rw [if_neg (by simp [copies, hf]), if_neg (by simp [hf])]
      · rw [if_neg (by simp [copies, hf]), if_neg (by simp [hf])]

/-! ### The loop behind the prediction -/

theorem lastTaken_eq_none : lastTaken cfg p rest = none ↔ preCount cfg p rest = 0 := by
  cases rest with
  | nil => simp [lastTaken, preCount]
  | cons e rest =>
    cases e with
    | none => simp [lastTaken, preCount]
    | some r =>
      rw [lastTaken, preCount]
      by_cases ha : preAccepts cfg p r = true
      · rw [if_pos ha, if_pos ha]
        split
        · split <;> simp
        · simp
      · rw [if_neg ha, if_neg ha]; simp

theorem preTxLen_of_preCount (h : preCount cfg p rest = 0) : preTxLen cfg p rest = p.txLen := by
  cases rest with
  | nil => rfl
  | cons e rest =>
    cases e with
    | none => rfl
    | some r =>
      have ha : ¬ preAccepts cfg p r = true := fun ha => by
        rw [preCount, if_pos ha] at h
        split at h <;> omega
      rw [preTxLen, if_neg ha]

/-- The requests the prediction looks at are plain, and all but the first of the transfer are data. -/
def RegularFrom (cfg : UsbCfg) (p : PreSt) (rest : List (Option XmitReq)) : Prop :=
  ∀ j r, j ≤ preCount cfg p rest → rest[j]? = some (some r) → Plain r ∧ (0 < p.cnt + j → r.type = .data)

theorem RegularFrom.head (h : RegularFrom cfg p (some r :: rest)) : Plain r ∧ (0 < p.cnt → r.type = .data) :=
  h 0 r (Nat.zero_le _) rfl

theorem RegularFrom.next (h : RegularFrom cfg p (some r :: rest)) (ha : preAccepts cfg p r = true)
    (hg : preGoesOn cfg p r = true) : RegularFrom cfg (p.next cfg r) rest := by
  intro j r' hj hr'
  have hn : preCount cfg p (some r :: rest) = preCount cfg (p.next cfg r) rest + 1 := by
    rw [preCount, if_pos ha, if_pos hg]
  obtain ⟨h1, h2⟩ := h (j + 1) r' (by omega) (by simpa using hr')
  exact ⟨h1, fun _ => h2 (by omega)⟩

theorem enlarged_eq {i : ℕ} (hi : i ≤ 255) :
    enlarged (some i) isDummy a = decide (a.aggCnt = i ∧ isDummy = true) := by
  have hmod : i % 256 = i := by omega
  simp [enlarged, hmod]

/-- What the loop leaves: `n` packets, the predicted length and the dummy. -/
structure Ends (isDummy : Bool) (n txLen : ℕ) (s : AggSt) : Prop where
  len : s.placed.length = n
  txLen_eq : s.txLen = txLen + extra isDummy
  dummies : s.placed.countP (·.dummy) = if isDummy then 1 else 0

theorem aggLoop_not_copied (hr : Plain r) (h : copies cfg lastIdx isDummy a r = false) :
    aggLoop cfg lastIdx isDummy a (some r :: rest) = a := by
  rw [aggLoop, if_neg (by simp [h]), if_neg]
  rintro ⟨h1, h2⟩
  simp [copies, h1, h2, hr.fillWd] at h

section

variable (hc : cfg.Checked) (hs : Sized cfg (some r :: rest)) (hp : PreOk cfg p) (hm : Match a p)
  (hreg : RegularFrom cfg p (some r :: rest)) (hagg : 0 < p.cnt → cfg.txAggregation = true) (hlim : p.cnt + 1 ≤ 255)
  (ha : preAccepts cfg p r = true)

include hc hs hp hm hreg hagg hlim ha

theorem aggLoop_last (hn : preCount cfg p (some r :: rest) = 1)
    (hd : isDummy = true → (p.next cfg r).txLen % cfg.bulkSize = 0) :
    ((isDummy = true → RoomFor cfg p r) → Ends isDummy (p.cnt + 1) (p.next cfg r).txLen
        (aggLoop cfg (some p.cnt) isDummy a (some r :: rest))) ∧
    (isDummy = true → ¬ RoomFor cfg p r →
      (aggLoop cfg (some p.cnt) isDummy a (some r :: rest)).placed.length = p.cnt) := by
  obtain ⟨hr, hdata⟩ := hreg.head
  have happ : 0 < p.cnt → appended cfg r = true := fun h => by
    simp [appended, hagg h, hdata h]
  have hen : enlarged (some p.cnt) isDummy a = isDummy := by
    rw [enlarged_eq (by omega)]
    simp [hm.aggCnt]
  have hroom : isDummy = true → (copies cfg (some p.cnt) isDummy a r = true ↔ RoomFor cfg p r) := fun h =>
    hm.copies_enlarged hc hr (hen.trans h)
  refine ⟨fun hyes => ?_, fun h hno => ?_⟩
  · have hcopy : copies cfg (some p.cnt) isDummy a r = true := by
      cases hb : isDummy with
      | true =>
        have := (hroom hb).2 (hyes hb)
        rwa [hb] at this
      | false =>
        have := hm.copies_eq hp hc hr happ (hen.trans hb)
        rw [hb] at this; exact this.trans ha
    have hbeh := hm.copied hp hc hs hr ha happ (fun h => hd (hen.symm.trans h))
    rw [hen] at hbeh
    have hends : Ends isDummy (p.cnt + 1) (p.next cfg r).txLen
      (Usb.copied cfg (some p.cnt) isDummy a r) := ⟨hbeh.len, hbeh.txLen, hbeh.dummies⟩
    rw [aggLoop, if_pos hcopy]
    simp only
    split
    · rename_i hg
      rw [hbeh.goesOn_eq hlim (fun h => by
        by_contra h0
        simp [hagg (Nat.pos_of_ne_zero h0)] at h)] at hg
      have hagg' : cfg.txAggregation = true := by
        simp only [preGoesOn, decide_eq_true_eq] at hg; exact hg.2.2
      have hrest : preCount cfg (p.next cfg r) rest = 0 := by
        rw [preCount, if_pos ha, if_pos hg] at hn; omega
      have hnext : (p.next cfg r).cnt = p.cnt + 1 := rfl
      have hnot : enlarged (some p.cnt) isDummy (Usb.copied cfg (some p.cnt) isDummy a r) = false := by
        have hcnt := hbeh.aggCnt
        rw [enlarged_eq (by omega), decide_eq_false_iff_not]; omega
      rw [aggLoop_stops hc hs.tail (hp.next hs ha) hbeh hd (by omega) hagg' hnot ?_ hrest]
      · exact hends
      · intro r' hr'
        have h2 := hreg.next ha hg 0 r' (Nat.zero_le _) (by rw [← hr', List.head?_eq_getElem?])
        exact ⟨h2.1, h2.2 (by omega)⟩
    · exact hends
  · have hcopy : copies cfg (some p.cnt) isDummy a r = false := by
      rw [← Bool.not_eq_true]; exact fun hcp => hno ((hroom h).1 hcp)
    rw [aggLoop_not_copied hr hcopy]; exact hm.len

theorem Match.next (hg : preGoesOn cfg p r = true) (he : enlarged lastIdx isDummy a = false) :
    aggLoop cfg lastIdx isDummy a (some r :: rest) =
      aggLoop cfg lastIdx isDummy (Usb.copied cfg lastIdx isDummy a r) rest ∧
    Match (Usb.copied cfg lastIdx isDummy a r) (p.next cfg r) := by
  obtain ⟨hr, hdata⟩ := hreg.head
  have happ : 0 < p.cnt → appended cfg r = true := fun h => by
    simp [appended, hagg h, hdata h]
  have hcopy := hm.copies_eq hp hc hr happ he
  have hbeh := hm.copied hp hc hs hr ha happ
    (fun h => absurd (he.symm.trans h) Bool.false_ne_true)
  have hgo := hbeh.goesOn_eq hlim (fun h => by
    by_contra h0
    simp [hagg (Nat.pos_of_ne_zero h0)] at h)
  rw [he] at hbeh
  refine ⟨?_, ?_⟩
  · rw [aggLoop, if_pos (hcopy.trans ha)]
    simp only
    rw [if_pos (hgo.trans hg)]
  · have hcnt : (p.next cfg r).cnt = p.cnt + 1 := rfl
    have hplain : ∀ w ∈ (Usb.copied cfg lastIdx isDummy a r).placed, w.dummy = false := by
      have h0 := hbeh.dummies
      simp only [Bool.false_eq_true, if_false, List.countP_eq_zero] at h0
      intro w hw
      simpa using h0 w hw
    exact ⟨hbeh.txLen, hbeh.packetLen, hbeh.trascAggCnt, hbeh.trascIdx, by rw [hbeh.aggCnt]; omega, hbeh.len, hplain⟩

end

theorem aggLoop_predicted {q : PreSt} (hc : cfg.Checked) (hs : Sized cfg rest) (hp : PreOk cfg p) (hm : Match a p)
    (hreg : RegularFrom cfg p rest) (hagg : 0 < p.cnt → cfg.txAggregation = true)
    (hlim : p.cnt + preCount cfg p rest ≤ 255) (hl : lastTaken cfg p rest = some (q, r))
    (hd : isDummy = true → preTxLen cfg p rest % cfg.bulkSize = 0) :
    let s := aggLoop cfg (some (p.cnt + preCount cfg p rest - 1)) isDummy a rest
    ((isDummy = true → RoomFor cfg q r) → Ends isDummy (p.cnt + preCount cfg p rest) (preTxLen cfg p rest) s) ∧
    (isDummy = true → ¬ RoomFor cfg q r → s.placed.length = p.cnt + preCount cfg p rest - 1) := by
  induction rest generalizing a p with
  | nil => cases hl
  | cons e rest ih =>
    cases e with
    | none => cases hl
    | some r' =>
      by_cases ha : preAccepts cfg p r' = true
      · by_cases hmore : preGoesOn cfg p r' = true ∧ preCount cfg (p.next cfg r') rest ≠ 0
        · obtain ⟨hg, hne⟩ := hmore
          have hn : preCount cfg p (some r' :: rest) = preCount cfg (p.next cfg r') rest + 1 := by
            rw [preCount, if_pos ha, if_pos hg]
          have ht : preTxLen cfg p (some r' :: rest) = preTxLen cfg (p.next cfg r') rest := by
            rw [preTxLen, if_pos ha, if_pos hg]
          have hcnt : (p.next cfg r').cnt = p.cnt + 1 := rfl
          have hl' : lastTaken cfg (p.next cfg r') rest = some (q, r) := by
            rw [lastTaken, if_pos ha, if_pos hg] at hl
            cases h : lastTaken cfg (p.next cfg r') rest with
            | none => exact absurd (lastTaken_eq_none.1 h) hne
            | some l => rw [h] at hl; exact hl
          have he : enlarged (some (p.cnt + preCount cfg p (some r' :: rest) - 1)) isDummy a = false := by
            rw [enlarged_eq (by omega), decide_eq_false_iff_not, hm.aggCnt]; omega
          obtain ⟨hloop, hm'⟩ := Match.next hc hs hp hm hreg hagg (by omega) ha hg he
          have hagg' : cfg.txAggregation = true := by
            simp only [preGoesOn, decide_eq_true_eq] at hg; exact hg.2.2
          have := ih hs.tail (hp.next hs ha) hm' (hreg.next ha hg) (fun _ => hagg') (by omega) hl'
            (by rw [← ht]; exact hd)
          have hadd : (p.next cfg r').cnt + preCount cfg (p.next cfg r') rest =
            p.cnt + preCount cfg p (some r' :: rest) := by omega
          rw [hadd, ← ht] at this
          simp only [hloop]; exact this
        · have hn : preCount cfg p (some r' :: rest) = 1 := by
            rw [preCount, if_pos ha]
            split
            · rename_i hg
              have : preCount cfg (p.next cfg r') rest = 0 := by
                by_contra h0
                exact hmore ⟨hg, h0⟩
              omega
            · rfl
          have hql : lastTaken cfg p (some r' :: rest) = some (p, r') := by
            rw [lastTaken, if_pos ha]
            split
            · rename_i hg
              have h0 : lastTaken cfg (p.next cfg r') rest = none := by
                rw [lastTaken_eq_none]
                by_contra h0
                exact hmore ⟨hg, h0⟩
              rw [h0]
            · rfl
          have ht : preTxLen cfg p (some r' :: rest) = (p.next cfg r').txLen := by
            rw [preTxLen, if_pos ha]
            split
            · rename_i hg
              refine preTxLen_of_preCount ?_
              by_contra h0
              exact hmore ⟨hg, h0⟩
            · rfl
          rw [hql] at hl
          cases hl
          rw [hn, Nat.add_sub_cancel, ht]
          exact aggLoop_last hc hs hp hm hreg hagg (by omega) ha hn (by rw [← ht]; exact hd)
      · rw [lastTaken, if_neg ha] at hl; cases hl

theorem preTxLen_pos (hp : PreOk cfg p)
    (hs : Sized cfg rest) (h : 0 < p.cnt + preCount cfg p rest) : 0 < preTxLen cfg p rest := by
  induction rest generalizing p with
  | nil =>
    have hz := hp.zero
    simp only [preCount, preTxLen] at h ⊢; omega
  | cons e rest ih =>
    have hz := hp.zero
    cases e with
    | none =>
      simp only [preCount, preTxLen] at h ⊢; omega
    | some r =>
      by_cases ha : preAccepts cfg p r = true
      · obtain ⟨-, -, hpos⟩ := hp.next_txLen hs ha
        rw [preTxLen, if_pos ha]
        split
        · refine ih (hp.next hs ha) hs.tail ?_
          change 0 < p.cnt + 1 + _
          omega
        · exact hpos
      · rw [preCount, if_neg ha] at h
        rw [preTxLen, if_neg ha]; omega

/-! ### The whole transfer -/

/-- The variables of `_usb_tx_agg_preprocess` at its start. -/
abbrev PreSt.init : PreSt := ⟨0, 0, 0, 0, 0, none⟩

theorem PreOk.init : PreOk cfg .init := ⟨rfl, ⟨fun _ => rfl, fun _ => rfl⟩, fun _ => rfl, Nat.zero_le _, rfl⟩

/-- A build with the padding check and a ring of requests as the core puts them into it: data behind
the first one, and not more in the transfer than an `u8` counts. -/
structure Regular (cfg : UsbCfg) (ring : List (Option XmitReq)) : Prop where
  checked : cfg.Checked
  sized : Sized cfg ring
  plain : RegularFrom cfg .init ring
  count : preCount cfg .init ring ≤ 255

/-- How many requests the transfer has according to `last_idx`. -/
def predictedCount (cfg : UsbCfg) (ring : List (Option XmitReq)) : ℕ :=
  match (prediction cfg ring).1 with
  | some i => i + 1
  | none => 0

/-- The length of the transfer without the dummies. -/
def AggSt.unpaddedLen (s : AggSt) : ℕ := s.txLen - pktOffsetDummy * s.placed.countP (·.dummy)

/-- **The prediction agrees with the loop.**  The loop ends behind the request predicted as the last
one; the dummy is there exactly when the transfer would be a multiple of the bulk size without it;
the transfer is not one. -/
structure Agrees (cfg : UsbCfg) (ring : List (Option XmitReq)) : Prop where
  last : (phlHandleXmitRingUsb cfg ring).placed.length = predictedCount cfg ring
  dummy : (phlHandleXmitRingUsb cfg ring).placed ≠ [] →
    ((∃ w ∈ (phlHandleXmitRingUsb cfg ring).placed, w.dummy = true) ↔
      (phlHandleXmitRingUsb cfg ring).unpaddedLen % cfg.bulkSize = 0)
  final : (phlHandleXmitRingUsb cfg ring).placed ≠ [] → (phlHandleXmitRingUsb cfg ring).txLen % cfg.bulkSize ≠ 0

theorem Regular.prediction_eq (h : Regular cfg ring) : prediction cfg ring =
      (if preCount cfg .init ring = 0 then none else some (preCount cfg .init ring - 1),
        decide (preTxLen cfg .init ring ≠ 0 ∧ preTxLen cfg .init ring % cfg.bulkSize = 0)) := by
  obtain ⟨h1, h2⟩ := preLoop_eq PreOk.init h.sized
    (show PreSt.init.cnt + ring.length ≤ ring.length by simp)
  unfold prediction usbTxAggPreprocess
  rw [if_pos h.checked.paddingChk]
  simp only [Nat.zero_add] at h2
  refine Prod.ext h2 ?_
  simp only [h1]

theorem Regular.aggLoop {q : PreSt} (h : Regular cfg ring) (hl : lastTaken cfg .init ring = some (q, r)) :
    (((prediction cfg ring).2 = true → RoomFor cfg q r) →
      Ends (prediction cfg ring).2 (preCount cfg .init ring) (preTxLen cfg .init ring)
        (phlHandleXmitRingUsb cfg ring)) ∧
    ((prediction cfg ring).2 = true → ¬ RoomFor cfg q r →
      (phlHandleXmitRingUsb cfg ring).placed.length = preCount cfg .init ring - 1) := by
  have hn : preCount cfg .init ring ≠ 0 := fun h0 => by
    rw [← lastTaken_eq_none, hl] at h0; cases h0
  have hidx : (prediction cfg ring).1 = some (preCount cfg .init ring - 1) := by
    rw [h.prediction_eq, if_neg hn]
  have hm : Match AggSt.init PreSt.init := ⟨rfl, rfl, rfl, rfl, rfl, rfl, nofun⟩
  have hd : (prediction cfg ring).2 = true → preTxLen cfg .init ring % cfg.bulkSize = 0 := by
    rw [h.prediction_eq]
    simp only [decide_eq_true_eq]; exact fun h => h.2
  have := aggLoop_predicted h.checked h.sized PreOk.init hm
    h.plain nofun (by simpa using h.count) hl hd
  simp only [Nat.zero_add] at this
  unfold phlHandleXmitRingUsb
  rw [hidx]; exact this

theorem UsbCfg.Checked.add_dummy (h : cfg.Checked) {n : ℕ} (hn : n % cfg.bulkSize = 0) :
    (n + 8) % cfg.bulkSize ≠ 0 := by
  rcases h.bulk with hb | hb | hb <;> rw [hb] at hn ⊢ <;> omega

theorem Ends.agrees {b : Bool} {n t : ℕ} (h : Ends b n t (phlHandleXmitRingUsb cfg ring)) (hc : cfg.Checked)
    (hn : predictedCount cfg ring = n) (hb : b = true ↔ t % cfg.bulkSize = 0) :
    Agrees cfg ring := by
  have hun : (phlHandleXmitRingUsb cfg ring).unpaddedLen = t := by
    unfold AggSt.unpaddedLen
    rw [h.txLen_eq, h.dummies]
    unfold extra
    split <;> simp
  have hex : (∃ w ∈ (phlHandleXmitRingUsb cfg ring).placed, w.dummy = true) ↔ b = true := by
    rw [← List.countP_pos_iff, h.dummies]
    split <;> simp_all
  refine ⟨h.len.trans hn.symm, fun _ => ?_, fun _ => ?_⟩
  · rw [hex, hun]; exact hb
  · rw [h.txLen_eq]
    cases b with
    | true => exact hc.add_dummy (hb.1 rfl)
    | false => exact fun h0 => absurd (hb.2 h0) Bool.false_ne_true

end

theorem sum_one_buffer (n : ℕ) : n = [n].sum := by simp

def dataReq (n : ℕ) : XmitReq := ⟨.data, n, true, 0, [n], n, sum_one_buffer n, true⟩

/-- Aggregation with the padding check at high speed. -/
def hsCfg : UsbCfg := ⟨20480, 512, 20, 255, true, true⟩

end Rtl8852cu.Usb
