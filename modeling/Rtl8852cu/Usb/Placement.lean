import Mathlib.Data.List.Basic
import Rtl8852cu.Usb.TxAgg

/-!
# Where the packets of a transfer go

The space test of `_phl_handle_xmit_ring_usb` is made before the packet is padded to 8 bytes, and the
packet is copied by another function.
-/

namespace Rtl8852cu.Usb

/-! ### Lengths -/

theorem le_align8 (n : ℕ) : n ≤ align8 n := by unfold align8; omega

theorem align8_lt (n : ℕ) : align8 n < n + 8 := by unfold align8; omega

@[simp] theorem align8_mod (n : ℕ) : align8 n % 8 = 0 := by unfold align8; omega

theorem align8_mono {m n : ℕ} (h : m ≤ n) : align8 m ≤ align8 n := by unfold align8; omega

theorem align8_le {n b : ℕ} (h : n ≤ b) (hb : b % 8 = 0) : align8 n ≤ b := by unfold align8; omega

theorem align8_add {a n : ℕ} (ha : a % 8 = 0) : align8 (a + n) = a + align8 n := by
  unfold align8; omega

theorem macTxdescLen_pos (t : PktType) (n : ℕ) (i : Bool) : 0 < macTxdescLen t n i := by
  unfold macTxdescLen; cases t <;> simp only <;> split <;> omega

theorem macTxdescLen_le (t : PktType) (n : ℕ) (i : Bool) : macTxdescLen t n i ≤ 56 := by
  unfold macTxdescLen; cases t <;> simp only <;> split <;> omega

theorem XmitReq.wdLen_pos (r : XmitReq) : 0 < r.wdLen := macTxdescLen_pos ..

theorem XmitReq.wdLen_le (r : XmitReq) : r.wdLen ≤ 56 := macTxdescLen_le ..

section

variable {cfg : UsbCfg} {lastIdx : Option ℕ} {isDummy : Bool}

/-! ### The loop -/

/-- The iterations that copy a request: the variables before it, and the request. -/
def aggCopies (cfg : UsbCfg) (lastIdx : Option ℕ) (isDummy : Bool) (s : AggSt) :
    List (Option XmitReq) → List (AggSt × XmitReq)
  | some r :: rest =>
    if copies cfg lastIdx isDummy s r then
      (s, r) :: if goesOn cfg (copied cfg lastIdx isDummy s r) r then
        aggCopies cfg lastIdx isDummy (copied cfg lastIdx isDummy s r) rest else []
    else []
  | _ => []

variable {ring : List (Option XmitReq)} {s : AggSt}

theorem aggLoop_invariant {I : AggSt → Prop} {P : AggSt → XmitReq → Prop}
    (hI : ∀ s r, I s → copies cfg lastIdx isDummy s r = true → P s r → I (copied cfg lastIdx isDummy s r))
    (hfail : ∀ s, I s → I { s with pstatus := .failure })
    (h₀ : I s)
    (hP : ∀ c ∈ aggCopies cfg lastIdx isDummy s ring, P c.1 c.2) :
    I (aggLoop cfg lastIdx isDummy s ring) := by
  induction ring generalizing s with
  | nil => exact h₀
  | cons e rest ih =>
    cases e with
    | none => exact h₀
    | some r =>
      rw [aggLoop]
      rw [aggCopies] at hP
      by_cases hc : copies cfg lastIdx isDummy s r = true
      · rw [if_pos hc] at hP ⊢
        rw [List.forall_mem_cons] at hP
        have h₁ := hI s r h₀ hc hP.1
        simp only
        by_cases hg : goesOn cfg (copied cfg lastIdx isDummy s r) r = true
        · rw [if_pos hg]
          rw [if_pos hg] at hP; exact ih h₁ hP.2
        · rw [if_neg hg]; exact h₁
      · rw [if_neg hc]
        split
        · exact hfail s h₀
        · exact h₀

theorem copied_placed (s : AggSt) (r : XmitReq) : (copied cfg lastIdx isDummy s r).placed =
      s.placed ++ [phlPrepareTxUsb (prepared lastIdx isDummy s r) (packetOff cfg s r)] := rfl

theorem placed_prefix_aggLoop (s : AggSt) (ring : List (Option XmitReq)) :
    s.placed <+: (aggLoop cfg lastIdx isDummy s ring).placed :=
  aggLoop_invariant (I := fun t => s.placed <+: t.placed) (P := fun _ _ => True)
    (fun t r ht _ _ => ht.trans ⟨_, (copied_placed t r).symm⟩) (fun _ h => h)
    (List.prefix_refl _) (fun _ _ => trivial)

theorem placed_prefix_of_copies {c : AggSt × XmitReq} (hc : c ∈ aggCopies cfg lastIdx isDummy s ring) :
    (copied cfg lastIdx isDummy c.1 c.2).placed <+: (aggLoop cfg lastIdx isDummy s ring).placed := by
  induction ring generalizing s with
  | nil => cases hc
  | cons e rest ih =>
    cases e with
    | none => cases hc
    | some r =>
      rw [aggLoop]
      rw [aggCopies] at hc
      by_cases hcp : copies cfg lastIdx isDummy s r = true
      · rw [if_pos hcp] at hc ⊢
        simp only
        by_cases hg : goesOn cfg (copied cfg lastIdx isDummy s r) r = true
        · rw [if_pos hg] at hc ⊢
          rcases List.mem_cons.1 hc with rfl | hc
          · exact placed_prefix_aggLoop _ _
          · exact ih hc
        · rw [if_neg hg] at hc ⊢
          rcases List.mem_cons.1 hc with rfl | hc
          · exact List.prefix_refl _
          · cases hc
      · rw [if_neg hcp] at hc; cases hc

theorem placed_ring_order (s : AggSt) (ring : List (Option XmitReq)) :
    ∃ n, (aggLoop cfg lastIdx isDummy s ring).placed.map (fun w => some w.req.pktList) =
      s.placed.map (fun w => some w.req.pktList) ++ (ring.take n).map (Option.map (·.pktList)) := by
  induction ring generalizing s with
  | nil => exact ⟨0, by simp [aggLoop]⟩
  | cons e rest ih =>
    cases e with
    | none => exact ⟨0, by simp [aggLoop]⟩
    | some r =>
      rw [aggLoop]
      by_cases hcp : copies cfg lastIdx isDummy s r = true
      · rw [if_pos hcp]
        simp only
        by_cases hg : goesOn cfg (copied cfg lastIdx isDummy s r) r = true
        · rw [if_pos hg]
          obtain ⟨n, hn⟩ := ih (copied cfg lastIdx isDummy s r)
          refine ⟨n + 1, ?_⟩
          rw [hn, copied_placed]
          simp [phlPrepareTxUsb, prepared]
        · rw [if_neg hg]
          refine ⟨1, ?_⟩
          rw [copied_placed]
          simp [phlPrepareTxUsb, prepared]
      · rw [if_neg hcp]
        refine ⟨0, ?_⟩
        split <;> simp

/-! ### The invariant -/

/-- What holds in front of a request: the next packet starts behind everything written so far, and
`tx_len` is the end of the last packet. -/
structure AggInv (cfg : UsbCfg) (s : AggSt) : Prop where
  txLen_eq : s.txLen = s.off + s.packetLen
  off_mod : s.off % 8 = 0
  le_size : s.txLen ≤ cfg.txBufSize
  empty : s.placed = [] → s.txLen = 0
  success : s.pstatus = .success → s.placed ≠ []
  last : ∀ w, s.placed.getLast? = some w → w.off = s.off ∧ w.len = s.packetLen ∧ 0 < w.len
  before : ∀ w ∈ s.placed, w.off + w.len ≤ s.txLen
  aligned : ∀ w ∈ s.placed, w.off % 8 = 0
  ordered : s.placed.Pairwise fun a b => a.off + a.len ≤ b.off

/-- The packet that a copied request becomes. -/
def packet (cfg : UsbCfg) (lastIdx : Option ℕ) (isDummy : Bool) (s : AggSt) (r : XmitReq) : Placed :=
  phlPrepareTxUsb (prepared lastIdx isDummy s r) (packetOff cfg s r)

/-- The condition on a copied request.  A request that is not data comes first in its transfer; the
sum of the space test does not wrap; and without the padding check a request that already asks for
the dummy has room for it. -/
structure CopyOk (cfg : UsbCfg) (lastIdx : Option ℕ) (isDummy : Bool) (s : AggSt) (r : XmitReq) : Prop where
  first : r.type ≠ .data → s.placed = []
  noWrap : align8 (countedWdLen lastIdx isDummy s r + r.totalLen) + s.txLen < u32
  flag : cfg.paddingChk = false → r.usbPktOfst = 1 →
    packetOff cfg s r + (packet cfg lastIdx isDummy s r).len ≤ cfg.txBufSize

variable (cfg lastIdx isDummy) in
theorem packet_len (s : AggSt) (r : XmitReq) :
    countedWdLen lastIdx isDummy s r + r.totalLen ≤ (packet cfg lastIdx isDummy s r).len ∧
    (packet cfg lastIdx isDummy s r).len ≤
      countedWdLen lastIdx isDummy s r + r.totalLen + 8 ∧
    (r.usbPktOfst ≠ 1 → (packet cfg lastIdx isDummy s r).len = countedWdLen lastIdx isDummy s r + r.totalLen) := by
  have hsum := r.totalLen_eq
  unfold packet phlPrepareTxUsb countedWdLen
  have hpk : (prepared lastIdx isDummy s r).pktList = r.pktList := rfl
  have hof : (prepared lastIdx isDummy s r).usbPktOfst = if enlarged lastIdx isDummy s then 1 else r.usbPktOfst := rfl
  simp only [hpk, hof, pktOffsetDummy]
  by_cases he : enlarged lastIdx isDummy s = true
  · simp only [he, if_true]; omega
  · simp only [he, Bool.false_eq_true, if_false]
    by_cases hr : r.usbPktOfst = 1
    · simp only [hr, if_true]; omega
    · simp only [hr, if_false]; omega

theorem packet_len_pos (s : AggSt) (r : XmitReq) : 0 < (packet cfg lastIdx isDummy s r).len := by
  have h : countedWdLen lastIdx isDummy s r + r.totalLen ≤ (packet cfg lastIdx isDummy s r).len :=
    (packet_len cfg lastIdx isDummy s r).1
  have : 0 < (prepared lastIdx isDummy s r).wdLen := XmitReq.wdLen_pos _
  unfold countedWdLen at h; omega

theorem AggInv.packetOff_eq {r : XmitReq} (h : AggInv cfg s) (hfirst : appended cfg r = false → s.placed = []) :
    packetOff cfg s r = align8 s.txLen ∧ paddedTxLen cfg s r = align8 s.txLen := by
  have hoff := h.off_mod
  have htx := h.txLen_eq
  have hal : align8 s.txLen = s.off + align8 s.packetLen := by rw [htx, align8_add hoff]
  have hge := le_align8 s.packetLen
  unfold packetOff paddedTxLen
  cases ha : appended cfg r with
  | true => exact ⟨hal.symm, by simp only [if_true]; omega⟩
  | false =>
    have h0 := h.empty (hfirst ha)
    have h1 : align8 s.txLen = 0 := by rw [h0]; rfl
    simp only [Bool.false_eq_true, if_false]; omega

theorem AggInv.step (hsz : cfg.txBufSize % 8 = 0) (hlt : cfg.txBufSize < u32)
    (hpd : cfg.paddingChk = true → 8 ≤ cfg.txBufSize) {r : XmitReq} (h : AggInv cfg s)
    (hc : copies cfg lastIdx isDummy s r = true) (hok : CopyOk cfg lastIdx isDummy s r)
    (hfirst : appended cfg r = false → s.placed = []) :
    AggInv cfg (copied cfg lastIdx isDummy s r) := by
  obtain ⟨hA, hpad⟩ := h.packetOff_eq hfirst
  obtain ⟨hlen, hlen8, hlen'⟩ := packet_len cfg lastIdx isDummy s r
  have hpos : 0 < (packet cfg lastIdx isDummy s r).len := packet_len_pos s r
  have hflag := hok.flag
  have hwrap := hok.noWrap
  rw [hA] at hflag
  -- the end of the packet
  have hend : align8 s.txLen + (packet cfg lastIdx isDummy s r).len ≤ cfg.txBufSize := by
    unfold copies hasSpace spaceNeeded at hc
    simp only [decide_eq_true_eq, pktOffsetDummy] at hc
    have hspace := hc.1
    rw [Nat.mod_eq_of_lt hwrap] at hspace
    set X := countedWdLen lastIdx isDummy s r + r.totalLen with hX
    have hXle := le_align8 X
    have hsum : align8 (align8 X + s.txLen) = align8 X + align8 s.txLen :=
      align8_add (align8_mod X)
    by_cases hp : cfg.paddingChk = true
    · rw [if_pos hp] at hspace
      have h8 := hpd hp
      have := align8_le hspace (by omega)
      omega
    · rw [if_neg hp] at hspace
      have := align8_le hspace hsz
      by_cases hf : r.usbPktOfst = 1
      · exact hflag (by simpa using hp) hf
      · have := hlen' hf; omega
  have htx : (copied cfg lastIdx isDummy s r).txLen = align8 s.txLen + (packet cfg lastIdx isDummy s r).len := by
    change (paddedTxLen cfg s r + (packet cfg lastIdx isDummy s r).len) % u32 = _
    rw [hpad, Nat.mod_eq_of_lt (Nat.lt_of_le_of_lt hend hlt)]
  have hoff : (copied cfg lastIdx isDummy s r).off = align8 s.txLen := hA
  have hpl : (copied cfg lastIdx isDummy s r).placed = s.placed ++ [packet cfg lastIdx isDummy s r] := rfl
  have hwoff : (packet cfg lastIdx isDummy s r).off = align8 s.txLen := hA
  have hle := le_align8 s.txLen
  refine ⟨?_, ?_, ?_, ?_, ?_, ?_, ?_, ?_, ?_⟩
  · rw [htx, hoff]; rfl
  · rw [hoff]; exact align8_mod _
  · rw [htx]; exact hend
  · rw [hpl]; intro hnil; simp at hnil
  · rw [hpl]; intro _ hnil; simp at hnil
  · rw [hpl, List.getLast?_concat]
    rintro w hw
    cases hw
    exact ⟨rfl, rfl, hpos⟩
  · rw [hpl, htx]
    intro w hw
    rcases List.mem_append.1 hw with hw | hw
    · have := h.before w hw; omega
    · exact Nat.le_of_eq (by rw [List.mem_singleton.1 hw, hwoff])
  · rw [hpl]
    intro w hw
    rcases List.mem_append.1 hw with hw | hw
    · exact h.aligned w hw
    · rw [List.mem_singleton.1 hw, hwoff]; exact align8_mod _
  · rw [hpl, List.pairwise_append]
    refine ⟨h.ordered, List.pairwise_singleton _ _, fun a ha b hb => ?_⟩
    rw [List.mem_singleton.1 hb, hwoff]
    have := h.before a ha
    omega

theorem AggInv.bad_of_not_copyOk (hsz : cfg.txBufSize % 8 = 0) (hlt : cfg.txBufSize < u32)
    {r : XmitReq} (h : AggInv cfg s) (hbad : ¬ CopyOk cfg lastIdx isDummy s r)
    (hin : ∀ w ∈ (copied cfg lastIdx isDummy s r).placed, w.off + w.len ≤ cfg.txBufSize)
    (hord : (copied cfg lastIdx isDummy s r).placed.Pairwise
      fun a b => a.off + a.len ≤ b.off) : False := by
  have hpl : (copied cfg lastIdx isDummy s r).placed = s.placed ++ [packet cfg lastIdx isDummy s r] := rfl
  rw [hpl] at hin hord
  have hnew := hin (packet cfg lastIdx isDummy s r) (by simp)
  have hwoff : (packet cfg lastIdx isDummy s r).off = packetOff cfg s r := rfl
  refine hbad ⟨fun ht => ?_, ?_, fun _ _ => by rw [← hwoff]; exact hnew⟩
  · -- the packet has the offset of the one before it
    by_contra hne
    obtain ⟨w, hw⟩ := Option.ne_none_iff_exists'.1 (mt List.getLast?_eq_none_iff.1 hne)
    obtain ⟨hoff, -, hpos⟩ := h.last w hw
    have happ : appended cfg r = false := by simp [appended, ht]
    have hsame : packetOff cfg s r = s.off := by simp [packetOff, happ]
    have := (List.pairwise_append.1 hord).2.2 w (List.mem_of_getLast? hw) _ (List.mem_singleton_self _)
    rw [hwoff, hsame] at this; omega
  · by_contra hwrap
    have hlen : countedWdLen lastIdx isDummy s r + r.totalLen ≤ (packet cfg lastIdx isDummy s r).len :=
      (packet_len cfg lastIdx isDummy s r).1
    set X := countedWdLen lastIdx isDummy s r + r.totalLen with hX
    have hX8 := align8_lt X
    have htx := h.le_size
    have hge : s.txLen ≤ packetOff cfg s r ∨ s.txLen = packetOff cfg s r + s.packetLen := by
      have h1 := h.txLen_eq
      have h2 := le_align8 s.packetLen
      unfold packetOff
      split
      · left; omega
      · right; exact h1
    rw [hwoff] at hnew
    unfold u32 at hwrap hlt
    rcases hge with hge | hge
    · omega
    · -- not appended: nothing is there yet, or the packet runs into the last one
      rcases Option.eq_none_or_eq_some s.placed.getLast? with hnone | ⟨w, hw⟩
      · have h0 := h.empty (List.getLast?_eq_none_iff.1 hnone); omega
      · obtain ⟨hoff, hwl, hpos⟩ := h.last w hw
        have := (List.pairwise_append.1 hord).2.2 w (List.mem_of_getLast? hw) _
          (List.mem_singleton_self _)
        rw [hwoff] at this
        have h1 := h.txLen_eq
        omega

/-! ### A whole transfer -/

theorem AggInv.init (cfg : UsbCfg) : AggInv cfg .init where
  txLen_eq := rfl
  off_mod := rfl
  le_size := Nat.zero_le _
  empty := fun _ => rfl
  success := fun h => by cases h
  last := fun w h => by cases h
  before := fun w h => by cases h
  aligned := fun w h => by cases h
  ordered := List.Pairwise.nil

theorem AggInv.fail (h : AggInv cfg s) : AggInv cfg { s with pstatus := .failure } :=
  ⟨h.txLen_eq, h.off_mod, h.le_size, h.empty, nofun, h.last, h.before, h.aligned, h.ordered⟩

theorem aggCopies_single (hagg : cfg.txAggregation = false) (ring : List (Option XmitReq)) :
    ∀ c ∈ aggCopies cfg lastIdx isDummy .init ring, c.1.placed = [] := by
  intro c hc
  cases ring with
  | nil => cases hc
  | cons e rest =>
    cases e with
    | none => cases hc
    | some r =>
      rw [aggCopies] at hc
      have hg : goesOn cfg (copied cfg lastIdx isDummy .init r) r = false := by
        simp [goesOn, hagg, copied, AggSt.init]
      split at hc
      · rw [hg] at hc
        rcases List.mem_cons.1 hc with rfl | hc
        · rfl
        · cases hc
      · cases hc

theorem first_of_copyOk {c : AggSt × XmitReq}
    (hc : c ∈ aggCopies cfg lastIdx isDummy .init ring) (hok : CopyOk cfg lastIdx isDummy c.1 c.2)
    (happ : appended cfg c.2 = false) : c.1.placed = [] := by
  by_cases hagg : cfg.txAggregation = true
  · refine hok.first fun ht => ?_; simp [appended, hagg, ht] at happ
  · exact aggCopies_single (by simpa using hagg) ring c hc

/-- A packet of a transfer that is right: in the buffer, aligned, behind the one before it. -/
structure WellPlaced (cfg : UsbCfg) (ring : List (Option XmitReq)) (s : AggSt) : Prop where
  inside : ∀ w ∈ s.placed, w.off + w.len ≤ cfg.txBufSize
  aligned : ∀ w ∈ s.placed, w.off % 8 = 0
  ordered : s.placed.Pairwise fun a b => a.off + a.len ≤ b.off
  ringOrder : ∃ n, s.placed.map (fun w => some w.req.pktList) = (ring.take n).map (Option.map (·.pktList))
  urb : ∀ n, s.urbLen = some n → ∃ w, s.placed.getLast? = some w ∧ n = w.off + w.len

theorem aggInv_iff (hsz : cfg.txBufSize % 8 = 0) (hlt : cfg.txBufSize < u32)
    (hpd : cfg.paddingChk = true → 8 ≤ cfg.txBufSize)
    (h : AggInv cfg s)
    (hfirst : ∀ c ∈ aggCopies cfg lastIdx isDummy s ring, CopyOk cfg lastIdx isDummy c.1 c.2 →
      appended cfg c.2 = false → c.1.placed = []) :
    ((∀ c ∈ aggCopies cfg lastIdx isDummy s ring, CopyOk cfg lastIdx isDummy c.1 c.2) →
      AggInv cfg (aggLoop cfg lastIdx isDummy s ring)) ∧
    ((∀ w ∈ (aggLoop cfg lastIdx isDummy s ring).placed, w.off + w.len ≤ cfg.txBufSize) →
      ((aggLoop cfg lastIdx isDummy s ring).placed.Pairwise fun a b => a.off + a.len ≤ b.off) →
      ∀ c ∈ aggCopies cfg lastIdx isDummy s ring, CopyOk cfg lastIdx isDummy c.1 c.2) := by
  induction ring generalizing s with
  | nil => exact ⟨fun _ => h, fun _ _ c hc => by cases hc⟩
  | cons e rest ih =>
    cases e with
    | none => exact ⟨fun _ => h, fun _ _ c hc => by cases hc⟩
    | some r =>
      by_cases hcp : copies cfg lastIdx isDummy s r = true
      · have hmem : (s, r) ∈ aggCopies cfg lastIdx isDummy s (some r :: rest) := by
          rw [aggCopies, if_pos hcp]; exact List.mem_cons_self ..
        have hstep : CopyOk cfg lastIdx isDummy s r → AggInv cfg (copied cfg lastIdx isDummy s r) :=
          fun hok => h.step hsz hlt hpd hcp hok (hfirst _ hmem hok)
        constructor
        · intro hall
          have hok := hall _ hmem
          rw [aggLoop, if_pos hcp]
          simp only
          by_cases hg : goesOn cfg (copied cfg lastIdx isDummy s r) r = true
          · rw [if_pos hg]
            have htl : ∀ c ∈ aggCopies cfg lastIdx isDummy (copied cfg lastIdx isDummy s r) rest,
                c ∈ aggCopies cfg lastIdx isDummy s (some r :: rest) := fun c hc => by
              rw [aggCopies, if_pos hcp, if_pos hg]; exact List.mem_cons_of_mem _ hc
            exact (ih (hstep hok) fun c hc => hfirst c (htl c hc)).1 fun c hc => hall c (htl c hc)
          · rw [if_neg hg]; exact hstep hok
        · intro hin hord
          have hpre := placed_prefix_of_copies hmem
          have hok : CopyOk cfg lastIdx isDummy s r := by
            by_contra hbad
            exact h.bad_of_not_copyOk hsz hlt hbad (fun w hw => hin w (hpre.subset hw))
              (hord.sublist hpre.sublist)
          rw [aggCopies, if_pos hcp]
          rw [List.forall_mem_cons]
          refine ⟨hok, ?_⟩
          by_cases hg : goesOn cfg (copied cfg lastIdx isDummy s r) r = true
          · rw [if_pos hg]
            rw [aggLoop, if_pos hcp] at hin hord
            simp only [if_pos hg] at hin hord
            have htl : ∀ c ∈ aggCopies cfg lastIdx isDummy (copied cfg lastIdx isDummy s r) rest,
                c ∈ aggCopies cfg lastIdx isDummy s (some r :: rest) := fun c hc => by
              rw [aggCopies, if_pos hcp, if_pos hg]; exact List.mem_cons_of_mem _ hc
            exact (ih (hstep hok) fun c hc => hfirst c (htl c hc)).2 hin hord
          · rw [if_neg hg]
            intro c hc
            cases hc
      · have hnil : aggCopies cfg lastIdx isDummy s (some r :: rest) = [] := by
          rw [aggCopies, if_neg hcp]
        rw [hnil]
        refine ⟨fun _ => ?_, fun _ _ c hc => by cases hc⟩
        rw [aggLoop, if_neg hcp]
        split
        · exact h.fail
        · exact h

end

/-- High speed, with the limits of the 8852C. -/
def highSpeed (paddingChk : Bool) : UsbCfg := ⟨20480, 512, 8, 0x7f, paddingChk, true⟩

def request (type : PktType) (len : ℕ) : XmitReq := ⟨type, len, false, 0, [len], len, by simp, true⟩

end Rtl8852cu.Usb
