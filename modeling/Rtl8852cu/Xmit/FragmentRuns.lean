import Rtl8852cu.Xmit.FragmentCut

/-!
# The fragments of a packet

`FragmentsRight` is what the requests of a packet are to be: together its payload, none longer than the threshold, with the length of
their entries as their length, and with no more entries than there is room for; and no difference was below zero.  They are right
exactly when a TKIP packet does not end with less than the MIC in its last fragment, and the list has room for the parts of the packet
where it cannot be made linear (`fragmentsRight_iff`).
-/

namespace Rtl8852cu.Xmit

open Lib

variable {α : Type*}

/-- The bytes of the packet in an entry. -/
def PktBuf.payloadBytes : PktBuf α → List α
  | .payload bytes => bytes
  | _ => []

def XmitReq.payloadBytes (r : XmitReq α) : List α := r.pktList.flatMap PktBuf.payloadBytes

/-- The ICV that the hardware adds to a fragment. -/
def PktAttrib.hwIcvLen (a : PktAttrib) : ℕ := if a.encrypts ∧ a.bswenc = false then a.icvLen else 0

def PktAttrib.swIcvLen (a : PktAttrib) : ℕ := if a.encrypts ∧ a.bswenc then a.icvLen else 0

/-- The requests are the payload of the packet, piece by piece, within their bounds. -/
structure FragmentsRight (linear : Bool) (fragLen : ℕ) (a : PktAttrib) (skb : Skb α) : Prop where
  payload : (fillTxreqPktPerfragTxos linear fragLen a skb).1.flatMap XmitReq.payloadBytes = skb.bytes.drop a.pktHdrlen
  size : ∀ r ∈ (fillTxreqPktPerfragTxos linear fragLen a skb).1, r.totalLen + a.hwIcvLen + szFcs ≤ fragLen
  total : ∀ r ∈ (fillTxreqPktPerfragTxos linear fragLen a skb).1, r.totalLen = (r.pktList.map PktBuf.length).sum
  entries : ∀ r ∈ (fillTxreqPktPerfragTxos linear fragLen a skb).1, r.pktList.length ≤ numPktListPerTxreq
  diffs : ∀ d ∈ (fillTxreqPktPerfragTxos linear fragLen a skb).2, d.2 ≤ d.1

namespace PktAttrib

variable (fragLen : ℕ) (a : PktAttrib)

/-- What a fragment has room for, and what the packet needs of it. -/
def room : ℕ := fragLen - (a.wlHead + a.wlTail)

def need : ℕ := a.pktlen + szLlc + a.micLen

end PktAttrib

/-- A packet as the OS hands it over: not one that was put together of several, with the lengths of its attributes; the threshold leaves
room in a fragment, and the packet needs no more than `RTW_MAX_FRAG_NUM` of them. -/
structure OsPacket (fragLen : ℕ) (a : PktAttrib) (skb : Skb α) : Prop where
  single : a.amsdu = false
  hdr : a.pktHdrlen < u16Values
  len : skb.len = a.pktHdrlen + a.pktlen
  threshold : fragLen < u16Values
  overhead : a.wlHead + a.wlTail < fragLen
  few : a.need ≤ maxFragNum * a.room fragLen

section Numbers

variable {fragLen : ℕ} {a : PktAttrib} {skb : Skb α}

theorem wlTail_eq (a : PktAttrib) : a.wlTail = a.swIcvLen + a.hwIcvLen + szFcs := by
  unfold PktAttrib.wlTail PktAttrib.swIcvLen PktAttrib.hwIcvLen
  cases a.encrypts with
  | false =>
    rw [if_neg Bool.false_ne_true, if_neg fun h => Bool.false_ne_true h.1, if_neg fun h => Bool.false_ne_true h.1]
    omega
  | true =>
    cases a.bswenc with
    | false =>
      rw [if_pos rfl, if_neg fun h => Bool.false_ne_true h.2, if_pos ⟨rfl, rfl⟩]; omega
    | true =>
      rw [if_pos rfl, if_pos ⟨rfl, rfl⟩, if_neg fun h => by cases h.2]; omega

theorem OsPacket.room_pos (h : OsPacket fragLen a skb) : 0 < a.room fragLen ∧ a.room fragLen < u16Values := by
  have h1 := h.overhead
  have h2 := h.threshold
  unfold PktAttrib.room; omega

theorem OsPacket.payloadFragsz (h : OsPacket fragLen a skb) : a.payloadFragsz fragLen = a.room fragLen := by
  have h1 := h.overhead
  have h2 : fragLen < 65536 := h.threshold
  unfold PktAttrib.payloadFragsz PktAttrib.room sub32 u32Values; omega

theorem OsPacket.need_lt (h : OsPacket fragLen a skb) : a.need < 10 * u16Values := by
  have h1 := h.few
  have h2 := h.room_pos.2
  unfold maxFragNum at h1; omega

theorem OsPacket.payloadTotalsz (h : OsPacket fragLen a skb) : a.payloadTotalsz = a.need := by
  have h1 := h.need_lt
  unfold PktAttrib.need at h1
  unfold PktAttrib.payloadTotalsz PktAttrib.need add32 u32Values
  unfold u16Values at h1; omega

theorem OsPacket.wlFragNum (h : OsPacket fragLen a skb) :
    0 < a.wlFragNum fragLen ∧ (a.wlFragNum fragLen - 1) * a.room fragLen < a.need ∧ a.need ≤ a.wlFragNum fragLen * a.room fragLen := by
  obtain ⟨hpos, hlt⟩ := h.room_pos
  have hneed := h.need_lt
  have hneed8 : 8 ≤ a.need := by
    unfold PktAttrib.need szLlc; omega
  unfold PktAttrib.wlFragNum
  rw [h.single, if_neg Bool.false_ne_true, h.payloadFragsz, h.payloadTotalsz]
  split_ifs with hmore
  · have hsum : PktAttrib.divRoundUp a.need (a.room fragLen) = (a.need + (a.room fragLen - 1)) / a.room fragLen := by
      unfold PktAttrib.divRoundUp add32 u32Values
      unfold u16Values at hneed hlt
      rw [Nat.mod_eq_of_lt (by omega)]
    rw [hsum]
    have hle := Nat.div_mul_le_self (a.need + (a.room fragLen - 1)) (a.room fragLen)
    have hgt := Nat.lt_div_mul_add (a := a.need + (a.room fragLen - 1)) hpos
    have hq : 0 < (a.need + (a.room fragLen - 1)) / a.room fragLen := by
      by_contra hzero
      rw [Nat.eq_zero_of_not_pos hzero, Nat.zero_mul] at hgt; omega
    rw [Nat.sub_one_mul]; exact ⟨hq, by omega, by omega⟩
  · refine ⟨Nat.one_pos, by rw [Nat.sub_self, Nat.zero_mul]; omega, by rw [Nat.one_mul]; omega⟩

/-- The packet ends with enough for the MIC in its last fragment, and the first has room for the LLC. -/
def EndsWell (fragLen : ℕ) (a : PktAttrib) : Prop :=
  a.wlFragNum fragLen = 1 ∨
    (szLlc ≤ a.room fragLen ∧ (a.encrypt = .tkip → tkipMicLen ≤ (a.need - 1) % a.room fragLen + 1))

/-- Where a fragment starts in the packet, and the last ends. -/
def cutAt (fragLen : ℕ) (a : PktAttrib) (skbLen k : ℕ) : ℕ :=
  if k = 0 then a.pktHdrlen else if k < a.wlFragNum fragLen then a.pktHdrlen + k * a.room fragLen - szLlc else skbLen

theorem OsPacket.last (h : OsPacket fragLen a skb) :
    (a.need - 1) % a.room fragLen + 1 = a.need - (a.wlFragNum fragLen - 1) * a.room fragLen := by
  obtain ⟨hpos, hlow, hhigh⟩ := h.wlFragNum
  have hsucc : a.wlFragNum fragLen * a.room fragLen = (a.wlFragNum fragLen - 1) * a.room fragLen + a.room fragLen := by
    rw [← Nat.succ_mul, Nat.succ_eq_add_one, Nat.sub_add_cancel hpos]
  have hsplit : a.need - 1 = a.room fragLen * (a.wlFragNum fragLen - 1) + (a.need - 1 - (a.wlFragNum fragLen - 1) * a.room fragLen) := by
    rw [Nat.mul_comm (a.room fragLen)]; omega
  rw [hsplit, Nat.mul_add_mod, Nat.mod_eq_of_lt (by omega)]; omega

theorem OsPacket.endsWell_iff (h : OsPacket fragLen a skb) : EndsWell fragLen a ↔ a.wlFragNum fragLen = 1 ∨
      (szLlc ≤ a.room fragLen ∧ a.pktHdrlen + (a.wlFragNum fragLen - 1) * a.room fragLen - szLlc ≤ skb.len) := by
  obtain ⟨hpos, hlow, -⟩ := h.wlFragNum
  have hneed : a.need = a.pktlen + szLlc + a.micLen := rfl
  have hlen := h.len
  unfold EndsWell
  by_cases hone : a.wlFragNum fragLen = 1
  · exact ⟨fun _ => Or.inl hone, fun _ => Or.inl hone⟩
  · have hlast := h.last
    have hmic : a.micLen = if a.encrypt = .tkip then tkipMicLen else 0 := rfl
    have h8 : szLlc = 8 := rfl
    have hm8 : tkipMicLen = 8 := rfl
    refine or_congr Iff.rfl (and_congr Iff.rfl ?_)
    rw [hlast]
    by_cases htkip : a.encrypt = .tkip
    · rw [if_pos htkip] at hmic
      refine ⟨fun hend => ?_, fun hstart _ => ?_⟩
      · have hend := hend htkip; omega
      · have hmany : a.room fragLen ≤ (a.wlFragNum fragLen - 1) * a.room fragLen := Nat.le_mul_of_pos_left _ (by omega)
        omega
    · rw [if_neg htkip] at hmic; exact ⟨fun _ => by omega, fun _ hbad => absurd hbad htkip⟩

end Numbers

/-! ### The loop over the fragments -/

section Loop

variable {linear : Bool} {fragLen : ℕ} {a : PktAttrib} {skb : Skb α} {k : ℕ}

/-- The loop of a packet after so many rounds. -/
def roundsOf (linear : Bool) (fragLen : ℕ) (a : PktAttrib) (skb : Skb α) (k : ℕ) : PerfragSt α :=
  perfragRounds linear a (a.payloadFragsz fragLen) (a.wlFragNum fragLen) skb k

theorem roundsOf_succ (linear : Bool) (fragLen : ℕ) (a : PktAttrib) (skb : Skb α) (k : ℕ) :
    roundsOf linear fragLen a skb (k + 1) =
      perfragStep linear a (a.payloadFragsz fragLen) (a.wlFragNum fragLen) (roundsOf linear fragLen a skb k) k := by
  unfold roundsOf perfragRounds
  rw [List.range_succ, List.foldl_append]; rfl

theorem roundsOf_skb (linear : Bool) (fragLen : ℕ) (a : PktAttrib) (skb : Skb α) (k : ℕ) :
    (roundsOf linear fragLen a skb k).skb.settle linear = skb.settle linear := by
  induction k with
  | zero => rfl
  | succ k ih =>
    rw [roundsOf_succ]
    show ((roundsOf linear fragLen a skb k).skb.settle linear).settle linear = _
    rw [Skb.settle_settle, ih]

theorem roundsOf_len (linear : Bool) (fragLen : ℕ) (a : PktAttrib) (skb : Skb α) (k : ℕ) :
    (roundsOf linear fragLen a skb k).skb.len = skb.len := by
  have hbytes : (roundsOf linear fragLen a skb k).skb.bytes = skb.bytes := by
    rw [← Skb.settle_bytes linear, roundsOf_skb, Skb.settle_bytes]
  unfold Skb.len
  rw [hbytes]

theorem OsPacket.offset (h : OsPacket fragLen a skb) (linear : Bool) (hroom : a.wlFragNum fragLen = 1 ∨ szLlc ≤ a.room fragLen)
    (hk : k < a.wlFragNum fragLen) : (roundsOf linear fragLen a skb k).payloadOffset = cutAt fragLen a skb.len k := by
  induction k with
  | zero => rfl
  | succ k ih =>
    have hroom : szLlc ≤ a.room fragLen := hroom.resolve_left (by omega)
    obtain ⟨-, hlow, -⟩ := h.wlFragNum
    have hneed := h.need_lt
    have hhdr := h.hdr
    have hmul : (k + 1) * a.room fragLen ≤ (a.wlFragNum fragLen - 1) * a.room fragLen := Nat.mul_le_mul_right _ (by omega)
    have hsucc : (k + 1) * a.room fragLen = k * a.room fragLen + a.room fragLen := Nat.succ_mul k _
    have h8 : szLlc = 8 := rfl
    have hlt : a.room fragLen < 65536 := h.room_pos.2
    have hu16 : u16Values = 65536 := rfl
    have hpay : ∀ l off, (payloadSz (a.room fragLen) (a.wlFragNum fragLen) l off k).1 =
        if k = 0 then sub32 (a.room fragLen) szLlc else a.room fragLen := by
      intro l off
      unfold payloadSz
      rw [if_neg (by omega)]
      split_ifs <;> rfl
    have hcut : cutAt fragLen a skb.len (k + 1) = a.pktHdrlen + (k + 1) * a.room fragLen - szLlc := by
      unfold cutAt
      rw [if_neg (Nat.succ_ne_zero k), if_pos hk]
    rw [roundsOf_succ]
    show add32 (roundsOf linear fragLen a skb k).payloadOffset
      (payloadSz (a.payloadFragsz fragLen) (a.wlFragNum fragLen) _ _ k).1 = _
    rw [ih (by omega), h.payloadFragsz, hpay, hcut]
    by_cases hzero : k = 0
    · subst hzero
      have hcut0 : cutAt fragLen a skb.len 0 = a.pktHdrlen := if_pos rfl
      rw [if_pos rfl, hcut0]
      unfold add32 sub32 u32Values; omega
    · have hcutk : cutAt fragLen a skb.len k = a.pktHdrlen + k * a.room fragLen - szLlc := by
        unfold cutAt
        rw [if_neg hzero, if_pos (by omega)]
      have hk1 : a.room fragLen ≤ k * a.room fragLen := Nat.le_mul_of_pos_left _ (Nat.pos_of_ne_zero hzero)
      rw [if_neg hzero, hcutk]
      unfold add32 u32Values; omega

theorem OsPacket.head (h : OsPacket fragLen a skb) (hroom : szLlc ≤ a.room fragLen) (k : ℕ) :
    (headLength a k).1 = (if k = 0 then a.wlHead + szLlc else a.wlHead) ∧ ∀ d ∈ (headLength a k).2, d.2 ≤ d.1 := by
  have hsz : a.headSz = a.wlHead + szLlc := by
    unfold PktAttrib.headSz PktAttrib.wlHead
    rw [h.single, if_neg Bool.false_ne_true]; omega
  have hlt : a.wlHead + szLlc < 65536 := by
    have h1 : fragLen < 65536 := h.threshold
    have h2 : a.room fragLen = fragLen - (a.wlHead + a.wlTail) := rfl
    have h3 : 4 ≤ a.wlTail := Nat.le_add_right 4 _
    have h8 : szLlc = 8 := rfl
    omega
  unfold headLength
  rw [hsz]
  have hmod : (a.wlHead + szLlc) % u16Values = a.wlHead + szLlc := Nat.mod_eq_of_lt hlt
  simp only [hmod]
  by_cases hk : k = 0
  · rw [if_pos hk, if_pos hk]; exact ⟨rfl, nofun⟩
  · rw [if_neg hk, if_neg hk]
    refine ⟨?_, fun d hd => ?_⟩
    · show (a.wlHead + szLlc + 65536 - szLlc) % 65536 = a.wlHead; omega
    · rw [List.mem_singleton.mp hd]; exact Nat.le_add_left _ _

/-- The tail of a fragment: the ICV that the software adds, and the MIC in the last. -/
def tailLength (fragLen : ℕ) (a : PktAttrib) (k : ℕ) : ℕ :=
  a.swIcvLen + if k + 1 = a.wlFragNum fragLen then a.micLen else 0

theorem tailSz_eq (a : PktAttrib) : a.tailSz = a.micLen + a.swIcvLen := by
  unfold PktAttrib.tailSz PktAttrib.swIcvLen
  cases henc : a.encrypts with
  | false =>
    have hnone : a.encrypt = .noPrivacy := by
      by_contra hne
      unfold PktAttrib.encrypts at henc; exact absurd (of_decide_eq_false henc) (not_not.mpr hne)
    have hmic : a.micLen = 0 := by
      unfold PktAttrib.micLen
      rw [hnone]; exact if_neg nofun
    rw [if_neg Bool.false_ne_true, if_neg fun h => Bool.false_ne_true h.1, hmic]
  | true =>
    rw [if_pos rfl]; cases a.bswenc <;> rfl

theorem OsPacket.tail (h : OsPacket fragLen a skb) {k : ℕ} (hk : k < a.wlFragNum fragLen) :
    (wlanTail a (a.wlFragNum fragLen) k).1 = tailLength fragLen a k ∧ ∀ d ∈ (wlanTail a (a.wlFragNum fragLen) k).2, d.2 ≤ d.1 := by
  have hmic : a.micLen = if a.encrypt = .tkip then tkipMicLen else 0 := rfl
  have hicv' : a.swIcvLen < 65536 := by
    have h1 := h.overhead
    have h2 : fragLen < 65536 := h.threshold
    have h3 := wlTail_eq a
    omega
  have hm8 : tkipMicLen = 8 := rfl
  unfold wlanTail tailLength
  rw [tailSz_eq]
  generalize a.swIcvLen = icv at hicv' ⊢
  by_cases hzero : a.micLen + icv = 0
  · rw [if_pos hzero]
    refine ⟨?_, nofun⟩
    show 0 = icv + _
    split_ifs <;> omega
  · rw [if_neg hzero]
    by_cases htkip : a.encrypt = .tkip ∧ k ≠ a.wlFragNum fragLen - 1
    · rw [if_pos htkip, if_neg (by omega)]
      rw [if_pos htkip.1] at hmic
      refine ⟨?_, fun d hd => ?_⟩
      · unfold sub32 u32Values; omega
      · rw [List.mem_singleton.mp hd]
        show tkipMicLen ≤ a.micLen + icv
        omega
    · rw [if_neg htkip]
      refine ⟨?_, nofun⟩
      show a.micLen + icv = icv + _
      split_ifs with hlast
      · omega
      · have hno : a.encrypt ≠ .tkip := fun ht => htkip ⟨ht, by omega⟩
        rw [if_neg hno] at hmic; omega

/-- The size of the payload of a fragment, when the packet ends well. -/
def pieceLen (fragLen : ℕ) (a : PktAttrib) (skbLen k : ℕ) : ℕ := cutAt fragLen a skbLen (k + 1) - cutAt fragLen a skbLen k

theorem OsPacket.piece (h : OsPacket fragLen a skb) (hend : EndsWell fragLen a) (hk : k < a.wlFragNum fragLen) :
    cutAt fragLen a skb.len k + pieceLen fragLen a skb.len k = cutAt fragLen a skb.len (k + 1) ∧
      cutAt fragLen a skb.len (k + 1) ≤ skb.len ∧
        (if k = 0 then szLlc else 0) + pieceLen fragLen a skb.len k + (if k + 1 = a.wlFragNum fragLen then a.micLen else 0) ≤ a.room fragLen ∧
          (payloadSz (a.payloadFragsz fragLen) (a.wlFragNum fragLen) skb.len (cutAt fragLen a skb.len k) k).1 = pieceLen fragLen a skb.len k ∧
            ∀ d ∈ (payloadSz (a.payloadFragsz fragLen) (a.wlFragNum fragLen) skb.len (cutAt fragLen a skb.len k) k).2, d.2 ≤ d.1 := by
  obtain ⟨hpos, hlow, hhigh⟩ := h.wlFragNum
  have hneed : a.need = a.pktlen + szLlc + a.micLen := rfl
  have hlen := h.len
  have h8 : szLlc = 8 := rfl
  have hlt : a.room fragLen < 65536 := h.room_pos.2
  have hhdr : a.pktHdrlen < 65536 := h.hdr
  have hneedlt : a.need < 10 * 65536 := h.need_lt
  have hcut0 : cutAt fragLen a skb.len 0 = a.pktHdrlen := if_pos rfl
  have hcut : ∀ j, j ≠ 0 → j < a.wlFragNum fragLen → cutAt fragLen a skb.len j = a.pktHdrlen + j * a.room fragLen - szLlc := by
    intro j h0 hj
    unfold cutAt
    rw [if_neg h0, if_pos hj]
  have hend := h.endsWell_iff.mp hend
  unfold pieceLen
  rw [h.payloadFragsz]
  by_cases hlast : k + 1 = a.wlFragNum fragLen
  · -- the last fragment takes what is left
    have hcutn : cutAt fragLen a skb.len (k + 1) = skb.len := by
      unfold cutAt
      rw [if_neg (Nat.succ_ne_zero k), if_neg (by omega)]
    have hpay : payloadSz (a.room fragLen) (a.wlFragNum fragLen) skb.len (cutAt fragLen a skb.len k) k =
        (sub32 skb.len (cutAt fragLen a skb.len k), [(skb.len, cutAt fragLen a skb.len k)]) := if_pos (by omega)
    rw [hpay, hcutn, if_pos hlast]
    have hstart : cutAt fragLen a skb.len k ≤ skb.len ∧
        (if k = 0 then szLlc else 0) + (skb.len - cutAt fragLen a skb.len k) + a.micLen ≤ a.room fragLen := by
      by_cases hzero : k = 0
      · subst hzero
        rw [hcut0, if_pos rfl]
        rw [← hlast, Nat.zero_add, Nat.one_mul] at hhigh; omega
      · obtain ⟨-, hle⟩ := hend.resolve_left (by omega)
        rw [hcut k hzero (by omega), if_neg hzero]
        rw [← hlast, Nat.add_sub_cancel] at hle hlow
        rw [← hlast, Nat.succ_mul] at hhigh
        have hk1 : a.room fragLen ≤ k * a.room fragLen := Nat.le_mul_of_pos_left _ (Nat.pos_of_ne_zero hzero)
        omega
    refine ⟨by omega, le_rfl, hstart.2, ?_, fun d hd => ?_⟩
    · unfold sub32 u32Values; omega
    · rw [List.mem_singleton.mp hd]; exact hstart.1
  · obtain ⟨hroom, hle⟩ := hend.resolve_left (by omega)
    have hmul : (k + 1) * a.room fragLen ≤ (a.wlFragNum fragLen - 1) * a.room fragLen := Nat.mul_le_mul_right _ (by omega)
    have hsucc : (k + 1) * a.room fragLen = k * a.room fragLen + a.room fragLen := Nat.succ_mul k _
    rw [hcut (k + 1) (Nat.succ_ne_zero k) (by omega), if_neg hlast]
    by_cases hzero : k = 0
    · -- the first fragment has the LLC
      subst hzero
      have hpay : payloadSz (a.room fragLen) (a.wlFragNum fragLen) skb.len (cutAt fragLen a skb.len 0) 0 =
          (sub32 (a.room fragLen) szLlc, [(a.room fragLen, szLlc)]) := by
        unfold payloadSz
        rw [if_neg (by omega), if_pos rfl]
      rw [hpay, hcut0, if_pos rfl]
      refine ⟨by omega, by omega, by omega, ?_, fun d hd => ?_⟩
      · unfold sub32 u32Values; omega
      · rw [List.mem_singleton.mp hd]; exact hroom
    · have hpay : payloadSz (a.room fragLen) (a.wlFragNum fragLen) skb.len (cutAt fragLen a skb.len k) k = (a.room fragLen, []) := by
        unfold payloadSz
        rw [if_neg (by omega), if_neg hzero]
      have hk1 : a.room fragLen ≤ k * a.room fragLen := Nat.le_mul_of_pos_left _ (Nat.pos_of_ne_zero hzero)
      rw [hpay, hcut k hzero hk, if_neg hzero]
      exact ⟨by omega, by omega, by omega, by omega, nofun⟩

/-- The length of the header of a fragment, with the LLC in the first. -/
def headLen (a : PktAttrib) (k : ℕ) : ℕ := if k = 0 then a.wlHead + szLlc else a.wlHead

/-- The request of a fragment, with its header and its tail at some place. -/
def fragReq (fragLen : ℕ) (a : PktAttrib) (skbLen : ℕ) (parts : List (List α)) (k headPos tailPos : ℕ) : XmitReq α :=
  let r := (XmitReq.push ⟨0, 0, []⟩ (.head headPos (headLen a k)) (headLen a k)).addPieces
    (cuts (cutAt fragLen a skbLen k) (pieceLen fragLen a skbLen k) parts)
  if tailLength fragLen a k = 0 then r else r.push (.tail tailPos (tailLength fragLen a k)) (tailLength fragLen a k)

theorem OsPacket.round (h : OsPacket fragLen a skb) (linear : Bool) (hend : EndsWell fragLen a) (hk : k < a.wlFragNum fragLen) :
    ∃ headPos tailPos ds, (roundsOf linear fragLen a skb (k + 1)).reqs = (roundsOf linear fragLen a skb k).reqs ++
        [fragReq fragLen a skb.len (skb.settle linear).parts k headPos tailPos] ∧
      (roundsOf linear fragLen a skb (k + 1)).diffs = (roundsOf linear fragLen a skb k).diffs ++ ds ∧ ∀ d ∈ ds, d.2 ≤ d.1 := by
  have hroom : a.wlFragNum fragLen = 1 ∨ szLlc ≤ a.room fragLen := hend.imp_right And.left
  have hroom8 : szLlc ≤ a.room fragLen := by
    rcases hroom with hone | hroom
    · have hhigh := h.wlFragNum.2.2
      rw [hone, Nat.one_mul] at hhigh
      exact le_trans (Nat.le_add_right_of_le (Nat.le_add_left szLlc a.pktlen)) hhigh
    · exact hroom
  obtain ⟨hhead, hheadDiffs⟩ := h.head hroom8 k
  obtain ⟨htail, htailDiffs⟩ := h.tail hk
  obtain ⟨-, -, hbound, hpay, hpayDiffs⟩ := h.piece hend hk
  have hsmall : pieceLen fragLen a skb.len k < u16Values := by
    have hlt := h.room_pos.2
    omega
  have hoff := h.offset linear hroom hk
  have hlen := roundsOf_len linear fragLen a skb k
  have hskb := roundsOf_skb linear fragLen a skb k
  rw [roundsOf_succ]
  refine ⟨(roundsOf linear fragLen a skb k).headPos, (roundsOf linear fragLen a skb k).tailPos, _, ?_, rfl, fun d hd => ?_⟩
  · unfold perfragStep fragReq
    simp only [hoff, hlen, hskb, hpay, hhead, htail]
    rw [fillTxreqListSkb_eq _ _ hsmall]; rfl
  · rw [hlen, hoff] at hd
    rcases List.mem_append.mp hd with hd | hd
    · rcases List.mem_append.mp hd with hd | hd
      · exact hheadDiffs d hd
      · exact hpayDiffs d hd
    · exact htailDiffs d hd

theorem flatMap_payload (cs : List (List α)) : (cs.map PktBuf.payload).flatMap PktBuf.payloadBytes = cs.flatten := by
  induction cs with
  | nil => rfl
  | cons c cs ih =>
    rw [List.map_cons, List.flatMap_cons, ih]; rfl

theorem sum_payload (cs : List (List α)) : ((cs.map PktBuf.payload).map PktBuf.length).sum = cs.flatten.length := by
  induction cs with
  | nil => rfl
  | cons c cs ih =>
    rw [List.map_cons, List.map_cons, List.sum_cons, ih, List.flatten_cons, List.length_append]; rfl

theorem fragReq_list (fragLen : ℕ) (a : PktAttrib) (skbLen : ℕ) (parts : List (List α)) (k headPos tailPos : ℕ) :
    (fragReq fragLen a skbLen parts k headPos tailPos).pktList =
      .head headPos (headLen a k) :: ((cuts (cutAt fragLen a skbLen k) (pieceLen fragLen a skbLen k) parts).map .payload ++
        if tailLength fragLen a k = 0 then [] else [.tail tailPos (tailLength fragLen a k)]) := by
  unfold fragReq
  simp only []
  split_ifs with htail
  · rw [addPieces_pktList, List.append_nil]; rfl
  · show (XmitReq.addPieces _ _).pktList ++ [_] = _
    rw [addPieces_pktList]; rfl

theorem OsPacket.fragReq_right (h : OsPacket fragLen a skb) (hend : EndsWell fragLen a) (hk : k < a.wlFragNum fragLen)
    {parts : List (List α)} (hparts : parts.flatten = skb.bytes) (headPos tailPos : ℕ) :
    (fragReq fragLen a skb.len parts k headPos tailPos).payloadBytes =
        (skb.bytes.drop (cutAt fragLen a skb.len k)).take (pieceLen fragLen a skb.len k) ∧
      (fragReq fragLen a skb.len parts k headPos tailPos).totalLen + a.hwIcvLen + szFcs ≤ fragLen ∧
        (fragReq fragLen a skb.len parts k headPos tailPos).totalLen =
          ((fragReq fragLen a skb.len parts k headPos tailPos).pktList.map PktBuf.length).sum := by
  obtain ⟨hcut, hle, hbound, -, -⟩ := h.piece hend hk
  have hbytes : (cuts (cutAt fragLen a skb.len k) (pieceLen fragLen a skb.len k) parts).flatten =
      (skb.bytes.drop (cutAt fragLen a skb.len k)).take (pieceLen fragLen a skb.len k) := by
    rw [flatten_cuts, hparts]
  have hlength : ((skb.bytes.drop (cutAt fragLen a skb.len k)).take (pieceLen fragLen a skb.len k)).length = pieceLen fragLen a skb.len k := by
    rw [List.length_take, List.length_drop]
    have hlen : skb.bytes.length = skb.len := rfl
    omega
  have hlist := fragReq_list fragLen a skb.len parts k headPos tailPos
  have hsum : ((fragReq fragLen a skb.len parts k headPos tailPos).pktList.map PktBuf.length).sum =
      headLen a k + pieceLen fragLen a skb.len k + tailLength fragLen a k := by
    rw [hlist, List.map_cons, List.sum_cons, List.map_append, List.sum_append, sum_payload, hbytes, hlength]
    show headLen a k + (pieceLen fragLen a skb.len k + _) = _
    split_ifs with htail
    · rw [htail]; rfl
    · show headLen a k + (pieceLen fragLen a skb.len k + (tailLength fragLen a k + 0)) = _; omega
  -- the whole is within the threshold
  have htotal : headLen a k + pieceLen fragLen a skb.len k + tailLength fragLen a k + a.hwIcvLen + szFcs ≤ fragLen := by
    have hroom : a.room fragLen = fragLen - (a.wlHead + a.wlTail) := rfl
    have hover := h.overhead
    have htail := wlTail_eq a
    unfold headLen tailLength
    split_ifs at hbound ⊢ <;> omega
  have hlt : fragLen < u16Values := h.threshold
  have hadd : (fragReq fragLen a skb.len parts k headPos tailPos).totalLen =
      headLen a k + pieceLen fragLen a skb.len k + tailLength fragLen a k := by
    have hu32 : ∀ n, n ≤ fragLen → n < u32Values := fun n hn => lt_of_le_of_lt hn (lt_trans hlt (by decide))
    have hhead : (XmitReq.push (⟨0, 0, []⟩ : XmitReq α) (.head headPos (headLen a k)) (headLen a k)).totalLen = headLen a k := by
      show (0 + headLen a k) % u32Values = _
      rw [Nat.zero_add, Nat.mod_eq_of_lt (hu32 _ (by omega))]
    have hpieces : ((XmitReq.push (⟨0, 0, []⟩ : XmitReq α) (.head headPos (headLen a k)) (headLen a k)).addPieces
        (cuts (cutAt fragLen a skb.len k) (pieceLen fragLen a skb.len k) parts)).totalLen = headLen a k + pieceLen fragLen a skb.len k := by
      rw [addPieces_totalLen _ (by rw [hhead]; exact hu32 _ (by omega)), hbytes, hlength, hhead]
      exact Nat.mod_eq_of_lt (hu32 _ (by omega))
    unfold fragReq
    simp only []
    split_ifs with htail
    · rw [hpieces, htail, Nat.add_zero]
    · show add32 (XmitReq.totalLen _) _ = _
      rw [hpieces]; exact Nat.mod_eq_of_lt (hu32 _ (by omega))
  refine ⟨?_, hadd ▸ htotal, hadd.trans hsum.symm⟩
  unfold XmitReq.payloadBytes
  rw [hlist, List.flatMap_cons, List.flatMap_append, flatMap_payload, hbytes]
  show [] ++ (_ ++ _) = _
  rw [List.nil_append]
  split_ifs
  · exact List.append_nil _
  · exact List.append_nil _

/-- Where the packet cannot be made linear, the list of each fragment has room for the parts that its payload lies in. -/
def ListRoom (linear : Bool) (fragLen : ℕ) (a : PktAttrib) (skb : Skb α) : Prop :=
  linear = true ∨ skb.totalFragNr ≤ numPktListPerTxreq - 2 ∨
    ∀ k < a.wlFragNum fragLen, (cuts (cutAt fragLen a skb.len k) (pieceLen fragLen a skb.len k) skb.parts).length +
      1 + (if tailLength fragLen a k = 0 then 0 else 1) ≤ numPktListPerTxreq

theorem fragReq_length (fragLen : ℕ) (a : PktAttrib) (skbLen : ℕ) (parts : List (List α)) (k headPos tailPos : ℕ) :
    (fragReq fragLen a skbLen parts k headPos tailPos).pktList.length =
      (cuts (cutAt fragLen a skbLen k) (pieceLen fragLen a skbLen k) parts).length + 1 + (if tailLength fragLen a k = 0 then 0 else 1) := by
  rw [fragReq_list, List.length_cons, List.length_append, List.length_map]
  split_ifs
  · rfl
  · show _ + 1 + 1 = _ + 1 + 1; rfl

theorem roundsOf_mono (linear : Bool) (fragLen : ℕ) (a : PktAttrib) (skb : Skb α) {k m : ℕ} (hkm : k ≤ m) :
    (∀ d ∈ (roundsOf linear fragLen a skb k).diffs, d ∈ (roundsOf linear fragLen a skb m).diffs) ∧
      ∀ r ∈ (roundsOf linear fragLen a skb k).reqs, r ∈ (roundsOf linear fragLen a skb m).reqs := by
  induction m, hkm using Nat.le_induction with
  | base => exact ⟨fun _ hd => hd, fun _ hr => hr⟩
  | succ m hkm ih =>
    rw [roundsOf_succ]
    exact ⟨fun d hd => List.mem_append_left _ (ih.1 d hd), fun r hr => List.mem_append_left _ (ih.2 r hr)⟩

theorem OsPacket.endsWell (h : OsPacket fragLen a skb) (linear : Bool) (hdiffs : ∀ d ∈ (roundsOf linear fragLen a skb (a.wlFragNum fragLen)).diffs, d.2 ≤ d.1) :
    EndsWell fragLen a := by
  rw [h.endsWell_iff]
  by_contra hnot
  obtain ⟨hmany, hnot⟩ := not_or.mp hnot
  obtain ⟨hpos, -, -⟩ := h.wlFragNum
  have hround : ∀ k < a.wlFragNum fragLen, ∀ d ∈ (payloadSz (a.room fragLen) (a.wlFragNum fragLen) skb.len
      (roundsOf linear fragLen a skb k).payloadOffset k).2, d.2 ≤ d.1 := by
    intro k hk d hd
    refine hdiffs d ((roundsOf_mono linear fragLen a skb (Nat.succ_le_of_lt hk)).1 d ?_)
    rw [roundsOf_succ]
    refine List.mem_append_right _ (List.mem_append_left _ (List.mem_append_right _ ?_))
    rw [h.payloadFragsz, roundsOf_len]; exact hd
  by_cases hroom : szLlc ≤ a.room fragLen
  · -- the last fragment starts behind the packet
    have hlast := hround (a.wlFragNum fragLen - 1) (by omega) (skb.len, (roundsOf linear fragLen a skb (a.wlFragNum fragLen - 1)).payloadOffset)
      (by unfold payloadSz; rw [if_pos rfl]; exact List.mem_singleton.mpr rfl)
    have hcut : cutAt fragLen a skb.len (a.wlFragNum fragLen - 1) = a.pktHdrlen + (a.wlFragNum fragLen - 1) * a.room fragLen - szLlc := by
      unfold cutAt
      rw [if_neg (by omega), if_pos (by omega)]
    rw [h.offset linear (Or.inr hroom) (by omega), hcut] at hlast; exact hnot ⟨hroom, hlast⟩
  · exact hroom (hround 0 hpos (a.room fragLen, szLlc) (by
      unfold payloadSz
      rw [if_neg (by omega), if_pos rfl]; exact List.mem_singleton.mpr rfl))

theorem OsPacket.rounds (h : OsPacket fragLen a skb) (linear : Bool) (hend : EndsWell fragLen a) (hk : k ≤ a.wlFragNum fragLen) :
    (∀ r ∈ (roundsOf linear fragLen a skb k).reqs, ∃ j < a.wlFragNum fragLen, ∃ headPos tailPos,
        r = fragReq fragLen a skb.len (skb.settle linear).parts j headPos tailPos) ∧
      a.pktHdrlen ≤ cutAt fragLen a skb.len k ∧ (roundsOf linear fragLen a skb k).reqs.flatMap XmitReq.payloadBytes =
          (skb.bytes.drop a.pktHdrlen).take (cutAt fragLen a skb.len k - a.pktHdrlen) ∧
          ∀ d ∈ (roundsOf linear fragLen a skb k).diffs, d.2 ≤ d.1 := by
  induction k with
  | zero =>
    have hcut0 : cutAt fragLen a skb.len 0 = a.pktHdrlen := if_pos rfl
    rw [hcut0, Nat.sub_self, List.take_zero]; exact ⟨nofun, le_rfl, rfl, nofun⟩
  | succ k ih =>
    obtain ⟨hreqs, hle, hpayload, hdiffs⟩ := ih (by omega)
    obtain ⟨headPos, tailPos, ds, hreq, hds, hdsOk⟩ := h.round linear hend hk
    obtain ⟨hcut, -, -, -, -⟩ := h.piece hend hk
    have hbytes := (h.fragReq_right hend hk (Skb.settle_bytes linear skb) headPos tailPos).1
    refine ⟨fun r hr => ?_, by omega, ?_, fun d hd => ?_⟩
    · rw [hreq] at hr
      rcases List.mem_append.mp hr with hr | hr
      · exact hreqs r hr
      · exact ⟨k, hk, headPos, tailPos, List.mem_singleton.mp hr⟩
    · have hsplit : cutAt fragLen a skb.len (k + 1) - a.pktHdrlen =
          (cutAt fragLen a skb.len k - a.pktHdrlen) + pieceLen fragLen a skb.len k := by omega
      rw [hreq, List.flatMap_append, hpayload, List.flatMap_singleton, hbytes, hsplit, List.take_add, List.drop_drop,
        Nat.add_sub_cancel' hle]
    · rw [hds] at hd
      rcases List.mem_append.mp hd with hd | hd
      · exact hdiffs d hd
      · exact hdsOk d hd

/-- **The fragments of a packet are right exactly when it ends well and the list has room for its parts.** -/
theorem fragmentsRight_iff (h : OsPacket fragLen a skb) :
    FragmentsRight linear fragLen a skb ↔ EndsWell fragLen a ∧ ListRoom linear fragLen a skb := by
  constructor
  · intro hright
    have hend : EndsWell fragLen a := h.endsWell linear fun d hd => hright.diffs d (List.mem_append_right _ hd)
    refine ⟨hend, ?_⟩
    cases linear with
    | true => exact Or.inl rfl
    | false =>
      refine Or.inr (Or.inr fun k hk => ?_)
      obtain ⟨headPos, tailPos, -, hreq, -, -⟩ := h.round false hend hk
      have hset : skb.settle false = skb := if_neg fun hbad => Bool.false_ne_true hbad.2
      have hmem : fragReq fragLen a skb.len skb.parts k headPos tailPos ∈ (roundsOf false fragLen a skb (a.wlFragNum fragLen)).reqs := by
        refine (roundsOf_mono false fragLen a skb (Nat.succ_le_of_lt hk)).2 _ ?_
        rw [Nat.succ_eq_add_one, hreq, hset]
        exact List.mem_append_right _ (List.mem_singleton.mpr rfl)
      have hle := hright.entries _ hmem
      rwa [fragReq_length] at hle
  · rintro ⟨hend, hroom⟩
    obtain ⟨hreqs, hle, hpayload, hdiffs⟩ := h.rounds linear hend le_rfl
    have hfrag : ∀ r ∈ (roundsOf linear fragLen a skb (a.wlFragNum fragLen)).reqs,
        r.totalLen + a.hwIcvLen + szFcs ≤ fragLen ∧ r.totalLen = (r.pktList.map PktBuf.length).sum ∧
          r.pktList.length ≤ numPktListPerTxreq := by
      intro r hr
      obtain ⟨k, hk, headPos, tailPos, rfl⟩ := hreqs r hr
      obtain ⟨-, hsize, htotal⟩ := h.fragReq_right hend hk (Skb.settle_bytes linear skb) headPos tailPos
      refine ⟨hsize, htotal, ?_⟩
      rw [fragReq_length]
      have hfew : ∀ parts : List (List α), parts.length ≤ numPktListPerTxreq - 2 →
          (cuts (cutAt fragLen a skb.len k) (pieceLen fragLen a skb.len k) parts).length + 1 +
            (if tailLength fragLen a k = 0 then 0 else 1) ≤ numPktListPerTxreq := by
        intro parts hparts
        have hcuts := length_cuts_le (cutAt fragLen a skb.len k) (pieceLen fragLen a skb.len k) parts
        have h8 : numPktListPerTxreq = 8 := rfl
        split_ifs <;> omega
      rcases hroom with hlin | hnr | hparts
      · exact hfew _ (Skb.length_parts_settle skb (Or.inl hlin))
      · exact hfew _ (Skb.length_parts_settle skb (Or.inr hnr))
      · by_cases hset : skb.totalFragNr > numPktListPerTxreq - 2 ∧ linear = true
        · exact hfew _ (Skb.length_parts_settle skb (Or.inl hset.2))
        · have hskb : skb.settle linear = skb := if_neg hset
          rw [hskb]; exact hparts k hk
    refine ⟨?_, fun r hr => (hfrag r hr).1, fun r hr => (hfrag r hr).2.1, fun r hr => (hfrag r hr).2.2, fun d hd => ?_⟩
    · have hpos := h.wlFragNum.1
      have hcutn : cutAt fragLen a skb.len (a.wlFragNum fragLen) = skb.len := by
        unfold cutAt
        rw [if_neg (by omega), if_neg (by omega)]
      show (roundsOf linear fragLen a skb (a.wlFragNum fragLen)).reqs.flatMap XmitReq.payloadBytes = _
      rw [hpayload, hcutn]; exact List.take_of_length_le (by rw [List.length_drop]; exact le_rfl)
    · rcases List.mem_append.mp hd with hd | hd
      · have hover := h.overhead
        have hthreshold : fragLen < 65536 := h.threshold
        have hsub : sub32 fragLen a.wlHead = fragLen - a.wlHead := by
          unfold sub32 u32Values; omega
        rcases List.mem_pair.mp hd with rfl | rfl
        · show a.wlHead ≤ fragLen; omega
        · show a.wlTail ≤ sub32 fragLen a.wlHead
          rw [hsub]; omega
      · exact hdiffs d hd

end Loop

/-- A packet with TKIP, and its bytes in a linear part and a page. -/
def tkipAttrib (pktlen : ℕ) : PktAttrib := ⟨24, 14, pktlen, false, .tkip, 8, 4, false⟩

def pagedSkb (n m : ℕ) : Skb ℕ := ⟨List.replicate n 0, [List.replicate m 1], []⟩

theorem pagedSkb_len (n m : ℕ) : (pagedSkb n m).len = n + m := by
  show (List.replicate n 0 ++ (List.replicate m 1 ++ [])).length = n + m
  rw [List.append_nil, List.length_append, List.length_replicate, List.length_replicate]

theorem pagedSkb_fragmentsRight : FragmentsRight true 256 (tkipAttrib 430) (pagedSkb 64 380) :=
  (fragmentsRight_iff ⟨rfl, by decide, pagedSkb_len 64 380, by decide, by decide, by decide⟩).mpr
    ⟨Or.inr ⟨by decide, fun _ => by decide⟩, Or.inl rfl⟩

/-- With 418 bytes the rest for the third fragment is less than the MIC, and the size of its payload is taken below zero. -/
theorem shortEnd_wraps : ¬ FragmentsRight true 256 (tkipAttrib 418) (pagedSkb 64 368) := by
  intro hright
  have h : OsPacket 256 (tkipAttrib 418) (pagedSkb 64 368) :=
    ⟨rfl, by decide, pagedSkb_len 64 368, by decide, by decide, by decide⟩
  rcases h.endsWell true fun d hd => hright.diffs d (List.mem_append_right _ hd) with hone | ⟨-, hend⟩
  · exact absurd hone (by decide)
  · exact absurd (hend rfl) (by decide)

end Rtl8852cu.Xmit
