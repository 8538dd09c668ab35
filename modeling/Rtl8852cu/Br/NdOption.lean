import Rtl8852cu.Lib.HostWord
import Rtl8852cu.Lib.Slice

/-!
# The link-layer address in a neighbour discovery message

`scan_tlv` and `update_nd_link_layer_addr` of `core/rtw_br_ext.c`: the address option of an ICMPv6 message is looked for, and
gets the address of the interface.

The message is in memory from 0 on; the length is an `int`.  The addresses in the log are the bytes that are written.
-/

namespace Rtl8852cu.Br

open Lib

def ndiscRouterSolicitation : BitVec 8 := 133
def ndiscRouterAdvertisement : BitVec 8 := 134
def ndiscNeighbourSolicitation : BitVec 8 := 135
def ndiscNeighbourAdvertisement : BitVec 8 := 136
def ndiscRedirect : BitVec 8 := 137

/-- `scan_tlv`, from `pos` on: where it returns to, and the bytes that are read.  It is `none` where `fuel` does not do for the
rounds. -/
def scanTlv (m : ByteMem) (tag len8b : BitVec 8) : ℕ → ℕ → ℤ → Option (Option ℕ × List ℕ)
  | 0, _, _ => none
  | fuel + 1, pos, len =>
    if len > 0 then
      if m pos = tag ∧ m (pos + 1) = len8b ∧ len ≥ len8b.toNat * 8 then some (some (pos + 2), [pos, pos + 1])
      else (scanTlv m tag len8b fuel (pos + (m (pos + 1)).toNat * 8) (len - (m (pos + 1)).toNat * 8)).map fun r =>
        (r.1, pos :: (pos + 1) :: r.2)
    else some (none, [])

/-- Where the options of a message begin, and the type of the one with the address. -/
def ndLayout (type : BitVec 8) : Option (ℕ × BitVec 8) :=
  if type = ndiscRouterSolicitation then some (8, 1)
  else if type = ndiscRouterAdvertisement then some (16, 1)
  else if type = ndiscNeighbourSolicitation then some (24, 1)
  else if type = ndiscNeighbourAdvertisement then some (24, 2)
  else if type = ndiscRedirect then some (40, 2)
  else none

/-- What the function returns and leaves behind. -/
structure NdRun where
  ret : ℕ
  mem : ByteMem
  accesses : List ℕ

def updateNdLinkLayerAddr (fuel : ℕ) (m : ByteMem) (len : ℤ) (replaceMac : ByteMem) : Option NdRun :=
  match ndLayout (m 0) with
  | none => some ⟨0, m, [0]⟩
  | some (hdr, tag) =>
    if len ≥ hdr then
      match scanTlv m tag 1 fuel hdr (len - hdr) with
      | none => none
      | some (none, acc) => some ⟨0, m, 0 :: acc⟩
      | some (some mac, acc) => some ⟨1, copy m mac replaceMac 0 6, 0 :: acc ++ List.range' mac 6⟩
    else some ⟨0, m, [0]⟩

/-! ### The options of a list -/

/-- The places of the options in `n` bytes from `pos` on, and the place and the number of the bytes behind them: an option of
length zero, or one that is cut off, ends the list. -/
def ndWalk (m : ByteMem) (pos n : ℕ) : List ℕ × ℕ × ℕ :=
  if n < 2 then ([], pos, n)
  else if (m (pos + 1)).toNat = 0 ∨ n < (m (pos + 1)).toNat * 8 then ([], pos, n)
  else
    let r := ndWalk m (pos + (m (pos + 1)).toNat * 8) (n - (m (pos + 1)).toNat * 8)
    (pos :: r.1, r.2)
termination_by n
decreasing_by omega

def ndOptions (m : ByteMem) (pos n : ℕ) : List ℕ := (ndWalk m pos n).1

/-- The first option of the type with one unit of eight bytes. -/
def addrOption (m : ByteMem) (tag : BitVec 8) (pos n : ℕ) : Option ℕ :=
  (ndOptions m pos n).find? fun p => decide (m p = tag ∧ m (p + 1) = 1)

/-- Behind the options there is an option of length zero. -/
def EndsInZero (m : ByteMem) (pos n : ℕ) : Prop :=
  2 ≤ (ndWalk m pos n).2.2 ∧ m ((ndWalk m pos n).2.1 + 1) = 0

/-- Behind the options there is one byte. -/
def EndsInByte (m : ByteMem) (pos n : ℕ) : Prop := (ndWalk m pos n).2.2 = 1

variable {m : ByteMem} {tag : BitVec 8} {pos n p : ℕ}

theorem ndWalk_short (h : n < 2) : ndWalk m pos n = ([], pos, n) := by
  unfold ndWalk
  rw [if_pos h]

theorem ndWalk_stop (h : ¬ n < 2) (hlen : (m (pos + 1)).toNat = 0 ∨ n < (m (pos + 1)).toNat * 8) :
    ndWalk m pos n = ([], pos, n) := by
  unfold ndWalk
  rw [if_neg h, if_pos hlen]

theorem ndWalk_step (h : ¬ n < 2) (hlen : ¬ ((m (pos + 1)).toNat = 0 ∨ n < (m (pos + 1)).toNat * 8)) :
    ndWalk m pos n = (pos :: ndOptions m (pos + (m (pos + 1)).toNat * 8) (n - (m (pos + 1)).toNat * 8),
      (ndWalk m (pos + (m (pos + 1)).toNat * 8) (n - (m (pos + 1)).toNat * 8)).2) := by
  conv_lhs => unfold ndWalk
  rw [if_neg h, if_neg hlen]; rfl

theorem ndOptions_inside (h : p ∈ ndOptions m pos n) : pos ≤ p ∧ p + (m (p + 1)).toNat * 8 ≤ pos + n := by
  induction pos, n using ndWalk.induct m with
  | case1 pos n hn =>
    unfold ndOptions at h
    rw [ndWalk_short hn] at h; cases h
  | case2 pos n hn hlen =>
    unfold ndOptions at h
    rw [ndWalk_stop hn hlen] at h; cases h
  | case3 pos n hn hlen ih =>
    unfold ndOptions at h
    rw [ndWalk_step hn hlen] at h
    rcases List.mem_cons.mp h with rfl | h
    · omega
    · have := ih h; omega

theorem addrOption_cons (h : ¬ n < 2) (hlen : ¬ ((m (pos + 1)).toNat = 0 ∨ n < (m (pos + 1)).toNat * 8)) :
    addrOption m tag pos n = if m pos = tag ∧ m (pos + 1) = 1 then some pos
      else addrOption m tag (pos + (m (pos + 1)).toNat * 8) (n - (m (pos + 1)).toNat * 8) := by
  unfold addrOption
  conv_lhs => unfold ndOptions
  rw [ndWalk_step h hlen, List.find?_cons]
  split_ifs with hmatch
  · rw [decide_eq_true hmatch]
  · rw [decide_eq_false hmatch]

theorem addrOption_nil (h : ndWalk m pos n = ([], pos, n)) : addrOption m tag pos n = none := by
  unfold addrOption ndOptions
  rw [h]; rfl

theorem addrOption_spec (h : addrOption m tag pos n = some p) :
    m p = tag ∧ m (p + 1) = 1 ∧ pos ≤ p ∧ p + 8 ≤ pos + n := by
  unfold addrOption at h
  have hfound := List.find?_some h
  have hp := of_decide_eq_true hfound
  have hin := ndOptions_inside (List.mem_of_find?_eq_some h)
  have hone : (m (p + 1)).toNat = 1 := by
    rw [hp.2]; rfl
  exact ⟨hp.1, hp.2, hin.1, by omega⟩

theorem ends_step (h : ¬ n < 2) (hlen : ¬ ((m (pos + 1)).toNat = 0 ∨ n < (m (pos + 1)).toNat * 8)) :
    (EndsInZero m pos n ↔ EndsInZero m (pos + (m (pos + 1)).toNat * 8) (n - (m (pos + 1)).toNat * 8)) ∧
      (EndsInByte m pos n ↔ EndsInByte m (pos + (m (pos + 1)).toNat * 8) (n - (m (pos + 1)).toNat * 8)) := by
  unfold EndsInZero EndsInByte
  rw [ndWalk_step h hlen]; exact ⟨Iff.rfl, Iff.rfl⟩

/-! ### The walk -/

theorem scanTlv_match {fuel : ℕ} (hmatch : m pos = tag ∧ m (pos + 1) = 1) (hn : 8 ≤ n) :
    scanTlv m tag 1 (fuel + 1) pos n = some (some (pos + 2), [pos, pos + 1]) := by
  have hone : (1 : BitVec 8).toNat = 1 := rfl
  unfold scanTlv
  rw [if_pos (by omega), if_pos ⟨hmatch.1, hmatch.2, by omega⟩]

theorem scanTlv_next {fuel : ℕ} (hn : 0 < n) (hmatch : ¬ (m pos = tag ∧ m (pos + 1) = 1 ∧ 8 ≤ n)) :
    scanTlv m tag 1 (fuel + 1) pos n =
      (scanTlv m tag 1 fuel (pos + (m (pos + 1)).toNat * 8) ((n : ℤ) - (m (pos + 1)).toNat * 8)).map fun r =>
        (r.1, pos :: (pos + 1) :: r.2) := by
  have hone : (1 : BitVec 8).toNat = 1 := rfl
  conv_lhs => unfold scanTlv
  rw [if_pos (by omega), if_neg]
  rintro ⟨h1, h2, h3⟩
  exact hmatch ⟨h1, h2, by omega⟩

theorem scanTlv_step {fuel : ℕ} (hn : ¬ n < 2) (hlen : ¬ ((m (pos + 1)).toNat = 0 ∨ n < (m (pos + 1)).toNat * 8))
    (hmatch : ¬ (m pos = tag ∧ m (pos + 1) = 1)) :
    scanTlv m tag 1 (fuel + 1) pos n =
      (scanTlv m tag 1 fuel (pos + (m (pos + 1)).toNat * 8) (n - (m (pos + 1)).toNat * 8 : ℕ)).map fun r =>
        (r.1, pos :: (pos + 1) :: r.2) := by
  rw [scanTlv_next (by omega) fun hm => hmatch ⟨hm.1, hm.2.1⟩, Int.ofNat_sub (by omega)]; rfl

theorem scanTlv_done {fuel : ℕ} {len : ℤ} (h : len ≤ 0) : scanTlv m tag 1 (fuel + 1) pos len = some (none, []) := by
  unfold scanTlv
  rw [if_neg (by omega)]

theorem not_match_of_stop (hlen : (m (pos + 1)).toNat = 0 ∨ n < (m (pos + 1)).toNat * 8) :
    ¬ (m pos = tag ∧ m (pos + 1) = 1 ∧ 8 ≤ n) := by
  rintro ⟨-, h2, h3⟩
  have hone : (m (pos + 1)).toNat = 1 := by
    rw [h2]; rfl
  omega

theorem scanTlv_found (h : addrOption m tag pos n = some p) :
    ∃ fuel acc, scanTlv m tag 1 fuel pos n = some (some (p + 2), acc) ∧ ∀ a ∈ acc, pos ≤ a ∧ a < pos + n := by
  induction pos, n using ndWalk.induct m with
  | case1 pos n hn =>
    rw [addrOption_nil (ndWalk_short hn)] at h; cases h
  | case2 pos n hn hlen =>
    rw [addrOption_nil (ndWalk_stop hn hlen)] at h; cases h
  | case3 pos n hn hlen ih =>
    rw [addrOption_cons hn hlen] at h
    by_cases hmatch : m pos = tag ∧ m (pos + 1) = 1
    · rw [if_pos hmatch] at h
      obtain rfl := Option.some.inj h
      have hone : (m (pos + 1)).toNat = 1 := by
        rw [hmatch.2]; rfl
      refine ⟨1, _, scanTlv_match hmatch (by omega), fun a ha => ?_⟩
      simp only [List.mem_cons, List.not_mem_nil, or_false] at ha; omega
    · rw [if_neg hmatch] at h
      obtain ⟨fuel, acc, hscan, hacc⟩ := ih h
      refine ⟨fuel + 1, pos :: (pos + 1) :: acc, ?_, fun a ha => ?_⟩
      · rw [scanTlv_step hn hlen hmatch, hscan]; rfl
      · simp only [List.mem_cons] at ha
        rcases ha with rfl | rfl | ha
        · omega
        · omega
        · have := hacc a ha; omega

theorem scanTlv_not_found (h : addrOption m tag pos n = none) (hzero : ¬ EndsInZero m pos n) (hbyte : ¬ EndsInByte m pos n) :
    ∃ fuel acc, scanTlv m tag 1 fuel pos n = some (none, acc) ∧ ∀ a ∈ acc, pos ≤ a ∧ a < pos + n := by
  induction pos, n using ndWalk.induct m with
  | case1 pos n hn =>
    unfold EndsInByte at hbyte
    rw [ndWalk_short hn] at hbyte
    dsimp only at hbyte
    obtain rfl : n = 0 := by omega
    exact ⟨1, [], scanTlv_done (by omega), nofun⟩
  | case2 pos n hn hlen =>
    -- the option is cut off: the length that is left falls below zero
    unfold EndsInZero at hzero
    rw [ndWalk_stop hn hlen] at hzero
    have hpos : (m (pos + 1)).toNat ≠ 0 := fun hz => hzero ⟨not_lt.mp hn, BitVec.eq_of_toNat_eq hz⟩
    refine ⟨2, [pos, pos + 1], ?_, fun a ha => ?_⟩
    · rw [scanTlv_next (by omega) (not_match_of_stop hlen), scanTlv_done (by omega)]; rfl
    · simp only [List.mem_cons, List.not_mem_nil, or_false] at ha; omega
  | case3 pos n hn hlen ih =>
    obtain ⟨hz, hb⟩ := ends_step hn hlen
    rw [addrOption_cons hn hlen] at h
    by_cases hmatch : m pos = tag ∧ m (pos + 1) = 1
    · rw [if_pos hmatch] at h; cases h
    · rw [if_neg hmatch] at h
      obtain ⟨fuel, acc, hscan, hacc⟩ := ih h (mt hz.mpr hzero) (mt hb.mpr hbyte)
      refine ⟨fuel + 1, pos :: (pos + 1) :: acc, ?_, fun a ha => ?_⟩
      · rw [scanTlv_step hn hlen hmatch, hscan]; rfl
      · simp only [List.mem_cons] at ha
        rcases ha with rfl | rfl | ha
        · omega
        · omega
        · have := hacc a ha; omega

theorem scanTlv_stuck (h : addrOption m tag pos n = none) (hzero : EndsInZero m pos n) (fuel : ℕ) :
    scanTlv m tag 1 fuel pos n = none := by
  induction pos, n using ndWalk.induct m generalizing fuel with
  | case1 pos n hn =>
    unfold EndsInZero at hzero
    rw [ndWalk_short hn] at hzero; exact absurd hzero.1 (by dsimp only; omega)
  | case2 pos n hn hlen =>
    unfold EndsInZero at hzero
    rw [ndWalk_stop hn hlen] at hzero
    have hlen0 : (m (pos + 1)).toNat = 0 := by
      rw [hzero.2]; rfl
    -- every round is the same one
    induction fuel with
    | zero => rfl
    | succ fuel ih =>
      have hpos : pos + 0 * 8 = pos := by omega
      have hleft : (n : ℤ) - (0 : ℕ) * 8 = n := by omega
      rw [scanTlv_next (by omega) (not_match_of_stop hlen), hlen0, hpos, hleft, ih]; rfl
  | case3 pos n hn hlen ih =>
    rw [addrOption_cons hn hlen] at h
    by_cases hmatch : m pos = tag ∧ m (pos + 1) = 1
    · rw [if_pos hmatch] at h; cases h
    · rw [if_neg hmatch] at h
      cases fuel with
      | zero => rfl
      | succ fuel =>
        rw [scanTlv_step hn hlen hmatch, ih h ((ends_step hn hlen).1.mp hzero) fuel]; rfl

theorem scanTlv_outside (h : addrOption m tag pos n = none) (hbyte : EndsInByte m pos n) {fuel : ℕ}
    {r : Option ℕ × List ℕ} (hr : scanTlv m tag 1 fuel pos n = some r) : pos + n ∈ r.2 := by
  induction pos, n using ndWalk.induct m generalizing fuel r with
  | case1 pos n hn =>
    unfold EndsInByte at hbyte
    rw [ndWalk_short hn] at hbyte
    obtain rfl : n = 1 := hbyte
    cases fuel with
    | zero => cases hr
    | succ fuel =>
      rw [scanTlv_next (by omega) (by omega)] at hr
      obtain ⟨r', -, rfl⟩ := Option.map_eq_some_iff.mp hr
      exact List.mem_cons_of_mem _ List.mem_cons_self
  | case2 pos n hn hlen =>
    unfold EndsInByte at hbyte
    rw [ndWalk_stop hn hlen] at hbyte; exact absurd hbyte (by dsimp only; omega)
  | case3 pos n hn hlen ih =>
    rw [addrOption_cons hn hlen] at h
    by_cases hmatch : m pos = tag ∧ m (pos + 1) = 1
    · rw [if_pos hmatch] at h; cases h
    · rw [if_neg hmatch] at h
      cases fuel with
      | zero => cases hr
      | succ fuel =>
        rw [scanTlv_step hn hlen hmatch] at hr
        obtain ⟨r', hr', rfl⟩ := Option.map_eq_some_iff.mp hr
        have hmem := ih h ((ends_step hn hlen).2.mp hbyte) hr'
        rw [Nat.add_assoc, Nat.add_sub_cancel' (by omega)] at hmem
        exact List.mem_cons_of_mem _ (List.mem_cons_of_mem _ hmem)

/-! ### The message -/

/-- The option whose address is replaced, in a message of `len` bytes. -/
def ndTarget (m : ByteMem) (len : ℤ) : Option ℕ :=
  match ndLayout (m 0) with
  | none => none
  | some (hdr, tag) => if len ≥ hdr then addrOption m tag hdr (len - hdr).toNat else none

/-- **The function returns, stays in the message, and replaces the address of that option and nothing else.** -/
def NdRight (m : ByteMem) (len : ℤ) (replaceMac : ByteMem) : Prop :=
  ∃ fuel r, updateNdLinkLayerAddr fuel m len replaceMac = some r ∧ (∀ a ∈ r.accesses, (a : ℤ) < len) ∧
    (r.ret = 1 ↔ ∃ p, ndTarget m len = some p) ∧
    r.mem = match ndTarget m len with
      | some p => fun i => if p + 2 ≤ i ∧ i < p + 8 then replaceMac (i - (p + 2)) else m i
      | none => m

/-- **The messages with which it does.**  They have a first byte; and where there is no such option, the options do not end in
one of length zero or in one byte. -/
def WellEnded (m : ByteMem) (len : ℤ) : Prop :=
  0 < len ∧ ∀ hdr tag, ndLayout (m 0) = some (hdr, tag) → len ≥ hdr → ndTarget m len = none →
    ¬ EndsInZero m hdr (len - hdr).toNat ∧ ¬ EndsInByte m hdr (len - hdr).toNat

theorem ndTarget_inside {len : ℤ} (h : ndTarget m len = some p) : (p : ℤ) + 8 ≤ len := by
  unfold ndTarget at h
  cases hlay : ndLayout (m 0) with
  | none =>
    rw [hlay] at h; cases h
  | some l =>
    obtain ⟨hdr, tag⟩ := l
    rw [hlay] at h
    dsimp only at h
    by_cases hlen : len ≥ hdr
    · rw [if_pos hlen] at h
      have := (addrOption_spec h).2.2.2
      omega
    · rw [if_neg hlen] at h; cases h

theorem ndLayout_pos {type : BitVec 8} {hdr : ℕ} (h : ndLayout type = some (hdr, tag)) : 0 < hdr := by
  unfold ndLayout at h
  split_ifs at h <;> cases h <;> decide

theorem ndRight_alone {len : ℤ} {replaceMac : ByteMem} (htarget : ndTarget m len = none)
    (hrun : ∀ fuel, updateNdLinkLayerAddr fuel m len replaceMac = some ⟨0, m, [0]⟩) :
    NdRight m len replaceMac ↔ 0 < len := by
  unfold NdRight
  rw [htarget]
  constructor
  · rintro ⟨fuel, r, hr, hacc, -⟩
    rw [hrun] at hr
    obtain rfl := Option.some.inj hr
    exact hacc 0 List.mem_cons_self
  · intro hpos
    refine ⟨0, _, hrun 0, fun a ha => ?_, ⟨nofun, nofun⟩, rfl⟩
    obtain rfl := List.mem_singleton.mp ha
    exact hpos

/-- **The function is right with exactly these messages.** -/
theorem nd_right_iff (m : ByteMem) (len : ℤ) (replaceMac : ByteMem) : NdRight m len replaceMac ↔ WellEnded m len := by
  cases hlay : ndLayout (m 0) with
  | none =>
    have htarget : ndTarget m len = none := by
      unfold ndTarget
      rw [hlay]
    rw [ndRight_alone htarget fun fuel => by unfold updateNdLinkLayerAddr; rw [hlay]]
    unfold WellEnded
    rw [hlay]; exact ⟨fun hpos => ⟨hpos, nofun⟩, And.left⟩
  | some l =>
    obtain ⟨hdr, tag⟩ := l
    have hhdr := ndLayout_pos hlay
    by_cases hlen : len ≥ hdr
    swap
    · have htarget : ndTarget m len = none := by
        unfold ndTarget
        rw [hlay]; exact if_neg hlen
      rw [ndRight_alone htarget fun fuel => by
        unfold updateNdLinkLayerAddr
        rw [hlay]; exact if_neg hlen]
      unfold WellEnded
      rw [hlay]
      refine ⟨fun hpos => ⟨hpos, fun hdr' tag' heq hge => ?_⟩, And.left⟩
      cases heq
      exact absurd hge hlen
    have htarget : ndTarget m len = addrOption m tag hdr (len - hdr).toNat := by
      unfold ndTarget
      rw [hlay]; exact if_pos hlen
    have hnat : ((len - hdr).toNat : ℤ) = len - hdr := Int.toNat_of_nonneg (by omega)
    have hwell : WellEnded m len ↔ (ndTarget m len = none →
        ¬ EndsInZero m hdr (len - hdr).toNat ∧ ¬ EndsInByte m hdr (len - hdr).toNat) := by
      unfold WellEnded
      rw [hlay]
      constructor
      · exact fun h hnone => h.2 hdr tag rfl hlen hnone
      · refine fun h => ⟨by omega, fun hdr' tag' heq _ hnone => ?_⟩
        cases heq
        exact h hnone
    have hrun : ∀ fuel, updateNdLinkLayerAddr fuel m len replaceMac =
        match scanTlv m tag 1 fuel hdr ((len - hdr).toNat : ℤ) with
        | none => none
        | some (none, acc) => some ⟨0, m, 0 :: acc⟩
        | some (some mac, acc) => some ⟨1, copy m mac replaceMac 0 6, 0 :: acc ++ List.range' mac 6⟩ := by
      intro fuel
      unfold updateNdLinkLayerAddr
      rw [hlay, hnat]; exact if_pos hlen
    rw [hwell]
    unfold NdRight
    cases hopt : ndTarget m len with
    | some p =>
      obtain ⟨fuel, acc, hscan, hacc⟩ := scanTlv_found (htarget ▸ hopt)
      have hin := ndTarget_inside hopt
      refine iff_of_true ⟨fuel, _, (hrun fuel).trans (by rw [hscan]), fun a ha => ?_, ⟨fun _ => ⟨p, rfl⟩, fun _ => rfl⟩, ?_⟩
        nofun
      · rw [List.cons_append, List.mem_cons, List.mem_append, List.mem_range'_1] at ha
        rcases ha with rfl | ha | ha
        · omega
        · have := hacc a ha; omega
        · omega
      · dsimp only
        unfold copy
        funext i
        rw [Nat.zero_add]
    | none =>
      rw [eq_self_iff_true, true_imp_iff]
      constructor
      · rintro ⟨fuel, r, hr, hacc, -⟩
        rw [hrun] at hr
        refine ⟨fun hzero => ?_, fun hbyte => ?_⟩
        · rw [scanTlv_stuck (htarget ▸ hopt) hzero] at hr; cases hr
        · cases hscan : scanTlv m tag 1 fuel hdr ((len - hdr).toNat : ℤ) with
          | none =>
            rw [hscan] at hr; cases hr
          | some x =>
            have hmem := scanTlv_outside (htarget ▸ hopt) hbyte hscan
            obtain ⟨found, acc⟩ := x
            have hin : hdr + (len - hdr).toNat ∈ r.accesses := by
              rw [hscan] at hr
              cases found with
              | none =>
                obtain rfl := Option.some.inj hr
                exact List.mem_cons_of_mem _ hmem
              | some mac =>
                obtain rfl := Option.some.inj hr
                exact List.mem_cons_of_mem _ (List.mem_append_left _ hmem)
            have := hacc _ hin
            omega
      · rintro ⟨hzero, hbyte⟩
        obtain ⟨fuel, acc, hscan, hacc⟩ := scanTlv_not_found (htarget ▸ hopt) hzero hbyte
        refine ⟨fuel, ⟨0, m, 0 :: acc⟩, (hrun fuel).trans (by rw [hscan]), fun a ha => ?_, ⟨nofun, nofun⟩, rfl⟩
        rcases List.mem_cons.mp ha with rfl | ha
        · omega
        · have := hacc a ha; omega

/-- A neighbour solicitation whose only option has type 5 and no length. -/
def zeroOption : ByteMem := fun i => if i = 0 then ndiscNeighbourSolicitation else if i = 24 then 5 else 0

/-- The walk over its options does not end. -/
theorem zeroOption_hangs : ¬ NdRight zeroOption 32 fun _ => 0 := by
  have hwalk : ndWalk zeroOption 24 8 = ([], 24, 8) := ndWalk_stop (by decide) (by decide)
  have hstuck : ∀ fuel, scanTlv zeroOption 1 1 fuel 24 (8 : ℕ) = none :=
    scanTlv_stuck (addrOption_nil hwalk) (by unfold EndsInZero; rw [hwalk]; decide)
  have hlay : ndLayout (zeroOption 0) = some (24, 1) := by decide
  have hlen : (32 : ℤ) - (24 : ℕ) = (8 : ℕ) := by decide
  rintro ⟨fuel, r, hr, -⟩
  unfold updateNdLinkLayerAddr at hr
  rw [hlay] at hr
  dsimp only at hr
  rw [if_pos (by decide), hlen, hstuck] at hr; cases hr

end Rtl8852cu.Br
